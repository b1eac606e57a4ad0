import TunnelKeeper.Json.Meaning
import TunnelKeeper.Json.Record
import TunnelKeeper.Net.Reading
import TunnelKeeper.Toml.Value

/-!
# Nodes — settings before they have a type

Settings come from two formats.  Both are brought to `Node`, which keeps what settings are made of
and nothing else, and the settings are read from nodes.  A record is a table, or a list of its
fields in order; one format refuses items beyond the last field, the other ignores them, and a
list remembers which (`exact`).
-/

namespace TunnelKeeper.Settings

/-- A value of a settings document. -/
inductive Node where
  | text (s : String)
  | integer (n : Int)
  | list (exact : Bool) (items : List Node)
  | table (fields : List (String × Node))
  | null
  /-- A value that no setting has. -/
  | other
deriving Repr, Inhabited

namespace Node

mutual

/-- The node of a document of the first format.  An object with a broken key stands for nothing. -/
def ofDocument : Json.Document → Node
  | .null => .null
  | .bool _ => .other
  | .number n =>
    match n.number? with
    | some (.natural size) => .integer size
    | some (.negative size) => .integer (-size)
    | _ => .other
  | .text (some s) => .text s
  | .text none => .other
  | .list items => .list true (ofDocuments items)
  | .object fields =>
    match ofFields? fields with
    | some fields => .table fields
    | none => .other

def ofDocuments : List Json.Document → List Node
  | [] => []
  | item :: items => ofDocument item :: ofDocuments items

def ofFields? : List (Option String × Json.Document) → Option (List (String × Node))
  | [] => some []
  | (none, _) :: _ => none
  | (some key, value) :: fields => (ofFields? fields).map ((key, ofDocument value) :: ·)

end

mutual

/-- The node of a value of the second format.  A date is a table without any field known here. -/
def ofToml : Toml.Value → Node
  | .text s => .text s
  | .integer n => .integer n
  | .float _ => .other
  | .bool _ => .other
  | .date _ => .table []
  | .list items => .list false (ofTomlItems items)
  | .table entries => .table (ofTomlEntries entries)

def ofTomlItems : List Toml.Value → List Node
  | [] => []
  | item :: items => ofToml item :: ofTomlItems items

def ofTomlEntries : List (String × Toml.Value) → List (String × Node)
  | [] => []
  | (key, value) :: entries => (key, ofToml value) :: ofTomlEntries entries

end

/-! ### Reading values -/

def text? : Node → Option String
  | .text s => some s
  | _ => none

/-- A number from zero up to the largest one of so many bits. -/
def natural? (bits : Nat) : Node → Option Nat
  | .integer (.ofNat n) => if n < Nat.pow 2 bits then some n else none
  | _ => none

/-- A number of sixty-four bits, or nothing. -/
def limit? : Node → Option (Option Nat)
  | .null => some none
  | node => (natural? 64 node).map some

def port? (node : Node) : Option UInt16 := (natural? 16 node).map Nat.toUInt16

def address? : Node → Option SocketAddress
  | .text s => SocketAddress.read? s
  | _ => none

def texts? : Node → Option (List String)
  | .list _ items => items.mapM text?
  | _ => none

/-! ### Reading records -/

/-- The fields of a record that are there, each once. -/
abbrev Fields := List (String × Node)

/-- Pairs names with items in order. -/
def inOrder? (exact : Bool) : (names : List String) → List Node → Option Fields
  | name :: names, item :: items => (inOrder? exact names items).map ((name, item) :: ·)
  | _ :: _, [] => some []
  | [], [] => some []
  | [], _ :: _ => if exact then none else some []

/-- The fields with one of the names; none where such a name is there twice. -/
def known? (names : List String) : Fields → Option Fields
  | [] => some []
  | (name, value) :: rest => do
    let fields ← known? names rest
    if !names.contains name then return fields
    else if fields.any (·.1 == name) then none
    else return (name, value) :: fields

/-- The fields of a record. -/
def record? (names : List String) : Node → Option Fields
  | .table fields => known? names fields
  | .list exact items => inOrder? exact names items
  | _ => none

/-- What stands under a name. -/
def Fields.find? (fields : Fields) (name : String) : Option Node := fields.lookup name

/-- A field that may be left out. -/
def Fields.get {α : Type} (fields : Fields) (name : String) (read? : Node → Option α)
    (fallback : α) : Option α :=
  match fields.find? name with
  | some node => read? node
  | none => some fallback

/-- A field that must be there. -/
def Fields.required {α : Type} (fields : Fields) (name : String) (read? : Node → Option α) :
    Option α :=
  (fields.find? name).bind read?

end Node

end TunnelKeeper.Settings
