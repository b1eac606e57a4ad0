import TunnelKeeper.Json.Meaning

/-!
# Records — fixed fields in documents and values

A record with named fields may be written as an object or as a list of its fields in order.  As an
object it ignores names it does not know and refuses a name it knows twice; as a list it refuses
more items than it has fields.  `Document.record?` and `Json.record?` give what stands for each
field, if anything; what a missing field means is up to the field.
-/

namespace TunnelKeeper.Json

/-- Pairs the fields of a record with the items of a list; none if items are left over. -/
def inOrder {α : Type} : (names : List String) → List α → Option (List (Option α))
  | names, [] => some (names.map fun _ => none)
  | [], _ :: _ => none
  | _ :: names, item :: items => (inOrder names items).map (some item :: ·)

namespace Document

/-- The documents under a name, in the order of the text. -/
def named (name : String) (fields : List (Option String × Document)) : List Document :=
  (fields.filter (·.1 == some name)).map (·.2)

/-- What an object holds under a name that may be there once. -/
def field? (fields : List (Option String × Document)) (name : String) : Option (Option Document) :=
  match named name fields with
  | [] => some none
  | [value] => some (some value)
  | _ :: _ :: _ => none

/-- The documents of the fields of a record. -/
def record? (names : List String) : Document → Option (List (Option Document))
  | .object fields =>
    if fields.all (·.1.isSome) then names.mapM (field? fields) else none
  | .list items => inOrder names items
  | _ => none

/-- A text. -/
def text? : Document → Option String
  | .text s => s
  | _ => none

/-- A truth value. -/
def bool? : Document → Option Bool
  | .bool b => some b
  | _ => none

/-- One of a set of names, as a text or as an object that holds null under the name. -/
def choice? {α : Type} (ofName? : String → Option α) : Document → Option α
  | .text (some name) => ofName? name
  | .object [(some name, .null)] => ofName? name
  | _ => none

end Document

/-- The values of the fields of a record. -/
def record? (names : List String) : Json → Option (List (Option Json))
  | .object entries => some (names.map fun name => Entries.find? name entries)
  | .list items => inOrder names items
  | _ => none

end TunnelKeeper.Json
