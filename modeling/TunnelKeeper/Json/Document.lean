import TunnelKeeper.Text.Digits

/-!
# JSON documents — the tree of a text before it means anything

A document is read in two steps.  `Document.read?` settles the form: which characters are strings,
numbers, lists and objects.  What the parts mean is decided later and only for the parts that are
used: a string may hold a broken surrogate escape, a number may be out of every range and lists
may be nested without limit in the fields that nobody asks for.

Fields keep their order and their repetitions, because a record refuses a repeated field where a
free object takes the last one.
-/

namespace TunnelKeeper.Json

/-- A number as it is written.  An empty fraction means that there is no point; the exponent is
given with whether it is negative. -/
structure Numeral where
  negative : Bool
  whole : List Char
  fraction : List Char
  exponent : Option (Bool × List Char)
deriving Repr

/-- The form of a document.  A string whose escapes do not spell characters has no text. -/
inductive Document where
  | null
  | bool (b : Bool)
  | number (numeral : Numeral)
  | text (s : Option String)
  | list (items : List Document)
  | object (fields : List (Option String × Document))
deriving Repr, Inhabited

namespace Document

/-- The white space between the parts of a document. -/
def isGap (c : Char) : Bool := c == ' ' || c == '\t' || c == '\n' || c == '\r'

def skipGap (s : List Char) : List Char := s.dropWhile isGap

/-! ### Strings -/

/-- What has been read of a string: its characters backwards, or nothing once an escape did not
spell a character; and a leading surrogate that waits for its other half. -/
structure Unit16 where
  chars : Option (List Char)
  leading : Option Nat

namespace Unit16

def start : Unit16 := ⟨some [], none⟩

/-- A character that is no surrogate. -/
def push (s : Unit16) (c : Char) : Unit16 :=
  match s.leading with
  | none => ⟨s.chars.map (c :: ·), none⟩
  | some _ => ⟨none, none⟩

/-- A unit of sixteen bits. -/
def pushUnit (s : Unit16) (unit : Nat) : Unit16 :=
  match s.leading with
  | some high =>
    if 0xDC00 ≤ unit && unit < 0xE000 then
      ⟨s.chars.map (Char.ofNat (0x10000 + (high - 0xD800) * 0x400 + (unit - 0xDC00)) :: ·), none⟩
    else ⟨none, none⟩
  | none =>
    if 0xD800 ≤ unit && unit < 0xDC00 then ⟨s.chars, some unit⟩
    else if 0xDC00 ≤ unit && unit < 0xE000 then ⟨none, none⟩
    else ⟨s.chars.map (Char.ofNat unit :: ·), none⟩

/-- The text, where every escape spelled a character. -/
def finish (s : Unit16) : Option String :=
  match s.leading with
  | none => s.chars.map fun chars => String.ofList chars.reverse
  | some _ => none

end Unit16

/-- What a one-letter escape stands for. -/
def escaped? : Char → Option Char
  | '"' => some '"'
  | '\\' => some '\\'
  | '/' => some '/'
  | 'b' => some '\x08'
  | 'f' => some '\x0c'
  | 'n' => some '\n'
  | 'r' => some '\r'
  | 't' => some '\t'
  | _ => none

/-- The unit that four hexadecimal digits spell. -/
def unit? (a b c d : Char) : Option Nat := Digits.readHex? [a, b, c, d]

/-- The rest of a string after its opening quote: its text and what follows the closing quote. -/
def readString (seen : Unit16) : List Char → Option (Option String × List Char)
  | [] => none
  | '"' :: rest => some (seen.finish, rest)
  | '\\' :: 'u' :: a :: b :: c :: d :: rest =>
    match unit? a b c d with
    | some unit => readString (seen.pushUnit unit) rest
    | none => none
  | '\\' :: c :: rest =>
    match escaped? c with
    | some c => readString (seen.push c) rest
    | none => none
  | c :: rest => if c.toNat < 0x20 || c == '\\' then none else readString (seen.push c) rest

/-! ### Numbers -/

/-- Splits off the digits at the front. -/
def digits (s : List Char) : List Char × List Char := s.span Digits.isDigit

/-- The fraction of a number, if a point follows. -/
def readFraction (s : List Char) : Option (List Char × List Char) :=
  match s with
  | '.' :: rest =>
    let (ds, rest) := digits rest
    if ds.isEmpty then none else some (ds, rest)
  | _ => some ([], s)

/-- The exponent of a number, if its mark follows. -/
def readExponent (s : List Char) : Option (Option (Bool × List Char) × List Char) :=
  let go (down : Bool) (rest : List Char) :=
    let (ds, rest) := digits rest
    if ds.isEmpty then none else some (some (down, ds), rest)
  match s with
  | e :: rest =>
    if e == 'e' || e == 'E' then
      match rest with
      | '+' :: rest => go false rest
      | '-' :: rest => go true rest
      | _ => go false rest
    else some (none, s)
  | [] => some (none, [])

/-- A number without its sign.  The whole part is one zero or does not start with one. -/
def readUnsigned (negative : Bool) (s : List Char) : Option (Numeral × List Char) := do
  let (whole, rest) := digits s
  if whole.isEmpty || (whole.head? == some '0' && 1 < whole.length) then none
  else
    let (fraction, rest) ← readFraction rest
    let (exponent, rest) ← readExponent rest
    return (⟨negative, whole, fraction, exponent⟩, rest)

/-! ### Values -/

/-- What follows a word that must be there. -/
def dropWord (word : List Char) (s : List Char) : Option (List Char) :=
  if word.isPrefixOf s then some (s.drop word.length) else none

mutual

/-- One value at the front of a text, and what follows it. -/
def readValue : (fuel : Nat) → List Char → Option (Document × List Char)
  | 0, _ => none
  | fuel + 1, s =>
    match skipGap s with
    | 'n' :: rest => (dropWord ['u', 'l', 'l'] rest).map (.null, ·)
    | 't' :: rest => (dropWord ['r', 'u', 'e'] rest).map (.bool true, ·)
    | 'f' :: rest => (dropWord ['a', 'l', 's', 'e'] rest).map (.bool false, ·)
    | '"' :: rest => (readString .start rest).map fun (t, rest) => (.text t, rest)
    | '-' :: rest => (readUnsigned true rest).map fun (n, rest) => (.number n, rest)
    | '[' :: rest =>
      match skipGap rest with
      | ']' :: rest => some (.list [], rest)
      | rest => (readItems fuel rest).map fun (items, rest) => (.list items, rest)
    | '{' :: rest =>
      match skipGap rest with
      | '}' :: rest => some (.object [], rest)
      | rest => (readFields fuel rest).map fun (fields, rest) => (.object fields, rest)
    | s => (readUnsigned false s).map fun (n, rest) => (.number n, rest)

/-- The values of a list that is not empty, and what follows its closing bracket. -/
def readItems : (fuel : Nat) → List Char → Option (List Document × List Char)
  | 0, _ => none
  | fuel + 1, s => do
    let (item, rest) ← readValue fuel s
    match skipGap rest with
    | ']' :: rest => some ([item], rest)
    | ',' :: rest =>
      let (items, rest) ← readItems fuel rest
      some (item :: items, rest)
    | _ => none

/-- The fields of an object that is not empty, and what follows its closing brace. -/
def readFields : (fuel : Nat) → List Char → Option (List (Option String × Document) × List Char)
  | 0, _ => none
  | fuel + 1, s => do
    match skipGap s with
    | '"' :: rest =>
      let (key, rest) ← readString .start rest
      match skipGap rest with
      | ':' :: rest =>
        let (value, rest) ← readValue fuel rest
        match skipGap rest with
        | '}' :: rest => some ([(key, value)], rest)
        | ',' :: rest =>
          let (fields, rest) ← readFields fuel rest
          some ((key, value) :: fields, rest)
        | _ => none
      | _ => none
    | _ => none

end

/-- The form of a whole text: one value with white space around it. -/
def readChars? (s : List Char) : Option Document :=
  match readValue (2 * s.length + 2) s with
  | some (document, rest) => if (skipGap rest).isEmpty then some document else none
  | none => none

def read? (s : String) : Option Document := readChars? s.toList

end Document

end TunnelKeeper.Json
