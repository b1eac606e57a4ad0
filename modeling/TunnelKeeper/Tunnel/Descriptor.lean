import TunnelKeeper.Json.Printer
import TunnelKeeper.Json.Record
import TunnelKeeper.Tunnel.Config

/-!
# Descriptors — a tunnel's identity with its configuration

A descriptor is read from a document (`ofDocument?`) or from a value that was read before
(`ofJson?`); both take an object with the two fields or a list of the two.  Its own text names the
id first.
-/

namespace TunnelKeeper

/-- A tunnel: the id the host chose and the configuration. -/
structure Descriptor where
  id : String
  config : TunnelConfig
deriving Repr, Inhabited

namespace Descriptor

def fieldNames : List String := ["id", "config"]

/-- Whether two descriptors are the same tunnel. -/
def same (a b : Descriptor) : Bool := a.id == b.id && a.config.same b.config

/-- Whether an optional descriptor is there and is the same tunnel. -/
def isSame (active : Option Descriptor) (d : Descriptor) : Bool :=
  match active with
  | some a => a.same d
  | none => false

/-- The id, followed by the server in parentheses where the configuration names one. -/
def display (d : Descriptor) : String :=
  match d.config.host, d.config.port with
  | .ok host, .ok port => d.id ++ " (" ++ host ++ ":" ++ Digits.text port.toNat ++ ")"
  | _, _ => d.id

/-- The value of a descriptor, its entries in the order of the fields. -/
def toFields (d : Descriptor) : Json := .object [("id", .text d.id), ("config", d.config.toJson)]

/-- The value of a descriptor, its entries in the order of the keys. -/
def toJson (d : Descriptor) : Json := .object [("config", d.config.toJson), ("id", .text d.id)]

/-- The descriptor a value stands for. -/
def ofJson? (json : Json) : Option Descriptor := do
  match ← json.record? fieldNames with
  | [some (.text id), some (.object entries)] => some ⟨id, ⟨entries⟩⟩
  | _ => none

/-- The descriptor of a whole document. -/
def ofDocument? (document : Json.Document) : Option Descriptor := do
  match ← document.record? fieldNames with
  | [some (.text (some id)), some config] =>
    match ← config.value? (Json.Document.depthLimit - 1) with
    | .object entries => some ⟨id, ⟨entries⟩⟩
    | _ => none
  | _ => none

/-- The text of a descriptor. -/
def text (d : Descriptor) : String := d.toFields.compact

/-- A value made from a descriptor stands for it. -/
theorem ofJson?_toJson (d : Descriptor) : ofJson? d.toJson = some d := by
  simp [ofJson?, toJson, Json.record?, fieldNames, Json.Entries.find?, TunnelConfig.toJson]

end Descriptor

end TunnelKeeper
