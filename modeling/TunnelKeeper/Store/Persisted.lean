import TunnelKeeper.Tunnel.Descriptor
import TunnelKeeper.Tunnel.Status

/-!
# Persisted state — what outlives a session

The last tunnel that worked, the status, and whether datagrams worked with that tunnel.  The tunnel
is kept as the value it was written as, so that an entry that is no descriptor is reported when the
tunnel is loaded and leaves the rest readable.  A document that cannot be read counts as the empty
state.
-/

namespace TunnelKeeper.Store

/-- Why a store gives no answer. -/
inductive StoreError where
  /-- The file could not be read or written. -/
  | io
  /-- The tunnel entry is no descriptor. -/
  | malformed
deriving DecidableEq, Repr

/-- The state that is kept. -/
structure Persisted where
  tunnel : Option Json := none
  status : Status := .disconnected
  udpSupported : Bool := false
deriving Repr, Inhabited

/-- A change of the state. -/
inductive Update where
  /-- Remembers a tunnel as the last one that worked. -/
  | tunnel (d : Descriptor)
  | status (s : Status)
  | udpSupported (supported : Bool)
deriving Repr

namespace Persisted

/-- The state after an update. -/
def apply (state : Persisted) : Update → Persisted
  | .tunnel d => { state with tunnel := some d.toJson }
  | .status s => { state with status := s }
  | .udpSupported supported => { state with udpSupported := supported }

/-- The last tunnel that worked. -/
def load (state : Persisted) : Except StoreError (Option Descriptor) :=
  match state.tunnel with
  | none => .ok none
  | some json =>
    match Descriptor.ofJson? json with
    | some d => .ok (some d)
    | none => .error .malformed

def fieldNames : List String := ["tunnel", "status", "udp_supported"]

/-- The value of the state, its entries in the order of the fields. -/
def toJson (state : Persisted) : Json :=
  .object [("tunnel", state.tunnel.getD .null), ("status", .text state.status.name),
    ("udp_supported", .bool state.udpSupported)]

/-- The text of the state, over several lines. -/
def text (state : Persisted) : String := state.toJson.pretty

/-- The tunnel entry of a document. -/
def tunnelOf? : Option Json.Document → Option (Option Json)
  | none => some none
  | some .null => some none
  | some document => (document.value? (Json.Document.depthLimit - 1)).map some

/-- What a document says about a field that may be left out. -/
def fieldOf? {α : Type} (read? : Json.Document → Option α) (fallback : α) :
    Option Json.Document → Option α
  | none => some fallback
  | some document => read? document

/-- The state a document describes. -/
def ofDocument? (document : Json.Document) : Option Persisted := do
  match ← document.record? fieldNames with
  | [tunnel, status, udpSupported] =>
    return ⟨← tunnelOf? tunnel, ← fieldOf? Status.ofDocument? .disconnected status,
      ← fieldOf? Json.Document.bool? false udpSupported⟩
  | _ => none

/-- The state a text describes; a text that describes none counts as the empty state. -/
def ofText (s : String) : Persisted := ((Json.Document.read? s).bind ofDocument?).getD {}

/-- What is loaded is the tunnel that the state has. -/
theorem load_of_tunnel {state : Persisted} {d : Descriptor} (h : state.tunnel = some d.toJson) :
    state.load = .ok (some d) := by
  simp [load, h, Descriptor.ofJson?_toJson]

/-- What is loaded after a tunnel was remembered is that tunnel. -/
theorem load_apply_tunnel (state : Persisted) (d : Descriptor) :
    (state.apply (.tunnel d)).load = .ok (some d) :=
  load_of_tunnel rfl

end Persisted

end TunnelKeeper.Store
