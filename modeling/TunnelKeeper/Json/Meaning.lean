import TunnelKeeper.Json.Document
import TunnelKeeper.Json.Value
import TunnelKeeper.Number.Decimal

/-!
# Meaning — the value a document denotes

A document denotes a value unless a string in it spells no text, a number is too large for a
double, or lists and objects are nested more than `Document.depthLimit` deep.  A repeated key of
an object keeps its last value.
-/

namespace TunnelKeeper.Json

namespace Numeral

/-- A number without point and exponent. -/
def isWhole (n : Numeral) : Bool := n.fraction.isEmpty && n.exponent.isNone

/-- The number a numeral denotes.  Whole numerals from `-2 ^ 63` to `2 ^ 64 - 1` are exact; `-0`
is the negative zero of the doubles. -/
def number? (n : Numeral) : Option Number :=
  let size := Digits.value n.whole
  if n.isWhole && !n.negative && size < Nat.pow 2 64 then some (.natural size)
  else if n.isWhole && n.negative && 0 < size && size ≤ Nat.pow 2 63 then some (.negative size)
  else (Double.ofNumeral? n.negative n.whole n.fraction n.exponent).map .double

end Numeral

namespace Document

/-- How deep lists and objects may be nested in each other. -/
def depthLimit : Nat := 127

mutual

/-- The value of a document inside which `depth` more lists or objects may be opened. -/
def value? (depth : Nat) : Document → Option Json
  | .null => some .null
  | .bool b => some (.bool b)
  | .number n => n.number?.map .number
  | .text s => s.map .text
  | .list items =>
    match depth with
    | 0 => none
    | depth + 1 => (values? depth items).map .list
  | .object fields =>
    match depth with
    | 0 => none
    | depth + 1 => (entries? depth fields).map fun fields => .object (Entries.ofList fields)

/-- The values of the items of a list. -/
def values? (depth : Nat) : List Document → Option (List Json)
  | [] => some []
  | item :: items => do
    let value ← value? depth item
    let values ← values? depth items
    return value :: values

/-- The fields of an object with their values, in the order of the text. -/
def entries? (depth : Nat) : List (Option String × Document) → Option (List (String × Json))
  | [] => some []
  | (key, item) :: fields => do
    let key ← key
    let value ← value? depth item
    let entries ← entries? depth fields
    return (key, value) :: entries

end

end Document

/-- The value a text denotes. -/
def read? (s : String) : Option Json := do
  (← Document.read? s).value? Document.depthLimit

end TunnelKeeper.Json
