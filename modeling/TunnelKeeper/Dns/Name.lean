import TunnelKeeper.Check.Error
import TunnelKeeper.Text.Digits

/-!
# Names — domain names as labels

A name is read from its text with points between the labels.  A backslash takes the next character
as it is, or three octal digits as the character of that number; an escape that the text cuts short
is dropped.  A label has 1 to 63 letters, digits, underscores, points (escaped ones) and dashes,
of which a dash does not come first, or it is a single star.
-/

namespace TunnelKeeper.Dns

/-- A label as bytes. -/
abbrev Label := List UInt8

/-- A name, first label first.  The root has no labels. -/
structure Name where
  labels : List Label
deriving DecidableEq, Repr

/-- How far the reading of an escape has come. -/
inductive Escape where
  | none
  | backslash
  | one (first : Nat)
  | two (first second : Nat)
deriving DecidableEq, Repr

/-- An octal digit. -/
def octal? (c : Char) : Option Nat :=
  if '0' ≤ c && c ≤ '7' then some (Digits.worth c) else Option.none

/-- A character that may stand in a label. -/
def isLabelChar (first : Bool) (c : Char) : Bool :=
  Digits.isDigit c || ('a' ≤ c && c ≤ 'z') || ('A' ≤ c && c ≤ 'Z') || c == '_' || c == '.' ||
    (c == '-' && !first)

/-- The largest label and the largest name, each label of which counts one byte more. -/
def longestLabel : Nat := 63
def longestName : Nat := 255

/-- The label of some characters. -/
def label? (chars : List Char) : Option Label :=
  let allowed :=
    match chars with
    | [] => false
    | ['*'] => true
    | c :: rest => isLabelChar true c && rest.all (isLabelChar false)
  if allowed && chars.length ≤ longestLabel then some (chars.map fun c => c.toNat.toUInt8)
  else Option.none

/-- The bytes that labels take, each with its length. -/
def size (labels : List Label) : Nat := labels.foldr (fun label n => label.length + 1 + n) 0

/-- Adds a label to labels that come last first. -/
def addLabel (done : List Label) (chars : List Char) : Option (List Label) := do
  let labels := (← label? chars) :: done
  if size labels ≤ longestName then return labels else Option.none

/-- Reads labels; `current` holds the characters of the present one and `done` the labels before
it, both last first. -/
def readLabels (done : List Label) (current : List Char) : Escape → List Char → Option (List Label)
  | _, [] =>
    if current.isEmpty then some done.reverse
    else (addLabel done current.reverse).map List.reverse
  | .none, c :: rest =>
    if c == '.' then do
      let done ← addLabel done current.reverse
      readLabels done [] .none rest
    else if c == '\\' then readLabels done current .backslash rest
    else readLabels done (c :: current) .none rest
  | .backslash, c :: rest =>
    match octal? c with
    | some n => readLabels done current (.one n) rest
    | Option.none =>
      if Digits.isDigit c then Option.none else readLabels done (c :: current) .none rest
  | .one a, c :: rest => do readLabels done current (.two a (← octal? c)) rest
  | .two a b, c :: rest => do
    readLabels done (Char.ofNat (64 * a + 8 * b + (← octal? c)) :: current) .none rest

namespace Name

def root : Name := ⟨[]⟩

/-- The name a text spells. -/
def readChars? (s : List Char) : Option Name :=
  if s == ['.'] then some root else (readLabels [] [] .none s).map Name.mk

def read? (s : String) : Option Name := readChars? s.toList

/-- The bytes of a name: each label after its length, and a zero at the end. -/
def bytes (name : Name) : List UInt8 :=
  name.labels.flatMap (fun label => label.length.toUInt8 :: label) ++ [0]

end Name

end TunnelKeeper.Dns
