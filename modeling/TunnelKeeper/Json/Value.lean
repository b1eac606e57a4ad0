import TunnelKeeper.Number.Double

/-!
# JSON values — the data a configuration is made of

A value is what a document means once it has been read: whole numbers of 64 bits stay exact,
everything else is a double, and the entries of an object are kept in the order of their keys,
each key once (`Entries.insert`).  Two configurations are the same tunnel when their values are
the same (`Json.same`), where the two zeros of the doubles are one number.
-/

namespace TunnelKeeper

namespace Json

/-- A number: a natural number below `2 ^ 64`, a negative whole number of at least `-2 ^ 63`
(given by its size), or a double. -/
inductive Number where
  | natural (n : Nat)
  | negative (size : Nat)
  | double (d : Double)
deriving DecidableEq, Repr

/-- Numbers of one kind that are equal; a whole number is never the same as a double. -/
def Number.same : Number → Number → Bool
  | .natural m, .natural n => m == n
  | .negative m, .negative n => m == n
  | .double a, .double b => a.sameNumber b
  | _, _ => false

end Json

/-- A JSON value. -/
inductive Json where
  | null
  | bool (b : Bool)
  | number (n : Json.Number)
  | text (s : String)
  | list (items : List Json)
  | object (entries : List (String × Json))
deriving Repr, Inhabited

namespace Json

/-- The entries of an object. -/
abbrev Entries := List (String × Json)

namespace Entries

/-- Sets a key, keeping the keys in order and each of them once. -/
def insert (key : String) (value : Json) : Entries → Entries
  | [] => [(key, value)]
  | (k, v) :: rest =>
    if key < k then (key, value) :: (k, v) :: rest
    else if key = k then (key, value) :: rest
    else (k, v) :: insert key value rest

/-- The value under a key. -/
def find? (key : String) : Entries → Option Json
  | [] => none
  | (k, v) :: rest => if k = key then some v else find? key rest

/-- The entries given one after the other; a later value of a key replaces an earlier one. -/
def ofList (fields : List (String × Json)) : Entries :=
  fields.foldl (fun entries field => insert field.1 field.2 entries) []

end Entries

mutual

/-- Whether two values are the same. -/
def same : Json → Json → Bool
  | .null, .null => true
  | .bool a, .bool b => a == b
  | .number a, .number b => a.same b
  | .text a, .text b => a == b
  | .list a, .list b => sameItems a b
  | .object a, .object b => sameEntries a b
  | _, _ => false

/-- Whether two lists hold the same values in the same order. -/
def sameItems : List Json → List Json → Bool
  | [], [] => true
  | a :: as, b :: bs => same a b && sameItems as bs
  | _, _ => false

/-- Whether two objects have the same keys with the same values. -/
def sameEntries : List (String × Json) → List (String × Json) → Bool
  | [], [] => true
  | (k, a) :: as, (l, b) :: bs => k == l && same a b && sameEntries as bs
  | _, _ => false

end

/-- The text of a value that is one. -/
def text? : Json → Option String
  | .text s => some s
  | _ => none

end Json

end TunnelKeeper
