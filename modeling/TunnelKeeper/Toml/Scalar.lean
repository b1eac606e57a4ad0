import TunnelKeeper.Number.Decimal
import TunnelKeeper.Text.Digits
import TunnelKeeper.Toml.Value

/-!
# TOML scalars — keys, strings, numbers and dates

Every reader here takes the text from its own first character on and gives what it read and the
rest.  Strings come in four kinds: between quotes with escapes or between apostrophes without, and
each of them over several lines between triple marks.  Numbers may have single underscores between
digits.  Dates have to exist in the calendar.
-/

namespace TunnelKeeper.Toml

/-- Blanks within a line. -/
def isBlank (c : Char) : Bool := c == ' ' || c == '\t'

def skipBlanks (s : List Char) : List Char := s.dropWhile isBlank

/-- The rest after a line end, which is a line feed with or without a carriage return. -/
def lineEnd? : List Char → Option (List Char)
  | '\n' :: rest => some rest
  | '\r' :: '\n' :: rest => some rest
  | _ => none

/-- A character that may stand in comments and strings: no control character but the tab. -/
def isPlain (c : Char) : Bool := c == '\t' || (0x20 ≤ c.toNat && c.toNat != 0x7F)

/-! ### Strings -/

/-- The character that hexadecimal digits spell. -/
def spelled? (digits : List Char) : Option Char := do
  let n ← Digits.readHex? digits
  if h : n.isValidChar then some (Char.ofNatAux n h) else none

/-- What follows a backslash in a string with escapes. -/
def readEscape : List Char → Option (Char × List Char)
  | 'b' :: rest => some ('\x08', rest)
  | 't' :: rest => some ('\t', rest)
  | 'n' :: rest => some ('\n', rest)
  | 'f' :: rest => some ('\x0c', rest)
  | 'r' :: rest => some ('\r', rest)
  | '"' :: rest => some ('"', rest)
  | '\\' :: rest => some ('\\', rest)
  | 'u' :: a :: b :: c :: d :: rest => (spelled? [a, b, c, d]).map (·, rest)
  | 'U' :: a :: b :: c :: d :: e :: f :: g :: h :: rest =>
    (spelled? [a, b, c, d, e, f, g, h]).map (·, rest)
  | _ => none

/-- The rest of a quoted string on one line. -/
def readBasic : (fuel : Nat) → (seen : List Char) → List Char → Option (String × List Char)
  | 0, _, _ => none
  | fuel + 1, seen, s =>
    match s with
    | '"' :: rest => some (String.ofList seen.reverse, rest)
    | '\\' :: rest =>
      match readEscape rest with
      | some (c, rest) => readBasic fuel (c :: seen) rest
      | none => none
    | c :: rest => if isPlain c then readBasic fuel (c :: seen) rest else none
    | [] => none

/-- The rest of a string between apostrophes on one line. -/
def readLiteral (seen : List Char) : List Char → Option (String × List Char)
  | '\'' :: rest => some (String.ofList seen.reverse, rest)
  | c :: rest => if isPlain c then readLiteral (c :: seen) rest else none
  | [] => none

/-- Blanks and line ends. -/
def isSpace (c : Char) : Bool := isBlank c || c == '\n'

/-- The text after the white space that an escaped line end swallows. -/
def skipSpace : List Char → List Char
  | [] => []
  | '\r' :: '\n' :: rest => skipSpace rest
  | c :: rest => if isSpace c then skipSpace rest else c :: rest

/-- The text after a backslash that ends its line. -/
def escapedLineEnd? (s : List Char) : Option (List Char) :=
  (lineEnd? (skipBlanks s)).map skipSpace

/-- How a run of marks ends a string of several lines: up to two of them belong to the string. -/
def closing? (mark : Char) (s : List Char) : Option (List Char × List Char) :=
  let run := (s.takeWhile (· == mark)).length
  if run < 3 then none
  else
    let kept := min (run - 3) 2
    some (List.replicate kept mark, s.drop (kept + 3))

/-- The rest of a quoted string of several lines. -/
def readLongBasic : (fuel : Nat) → (seen : List Char) → List Char → Option (String × List Char)
  | 0, _, _ => none
  | fuel + 1, seen, s =>
    match closing? '"' s with
    | some (kept, rest) => some (String.ofList (kept ++ seen).reverse, rest)
    | none =>
      match s with
      | '\\' :: rest =>
        match escapedLineEnd? rest with
        | some rest => readLongBasic fuel seen rest
        | none =>
          match readEscape rest with
          | some (c, rest) => readLongBasic fuel (c :: seen) rest
          | none => none
      | '\r' :: '\n' :: rest => readLongBasic fuel ('\n' :: seen) rest
      | c :: rest =>
        if isPlain c || c == '\n' then readLongBasic fuel (c :: seen) rest else none
      | [] => none

/-- The rest of a string of several lines between triple apostrophes. -/
def readLongLiteral : (fuel : Nat) → (seen : List Char) → List Char → Option (String × List Char)
  | 0, _, _ => none
  | fuel + 1, seen, s =>
    match closing? '\'' s with
    | some (kept, rest) => some (String.ofList (kept ++ seen).reverse, rest)
    | none =>
      match s with
      | '\r' :: '\n' :: rest => readLongLiteral fuel ('\n' :: seen) rest
      | c :: rest =>
        if isPlain c || c == '\n' then readLongLiteral fuel (c :: seen) rest else none
      | [] => none

/-- The text without one line end at its front. -/
def afterLineEnd (s : List Char) : List Char := (lineEnd? s).getD s

/-- A string of any kind. -/
def readString : List Char → Option (String × List Char)
  | '"' :: '"' :: '"' :: rest => readLongBasic (rest.length + 1) [] (afterLineEnd rest)
  | '\'' :: '\'' :: '\'' :: rest => readLongLiteral (rest.length + 1) [] (afterLineEnd rest)
  | '"' :: rest => readBasic (rest.length + 1) [] rest
  | '\'' :: rest => readLiteral [] rest
  | _ => none

/-! ### Keys -/

/-- A character of a key without quotes. -/
def isBare (c : Char) : Bool :=
  Digits.isDigit c || ('a' ≤ c && c ≤ 'z') || ('A' ≤ c && c ≤ 'Z') || c == '_' || c == '-'

/-- One part of a key. -/
def readSimpleKey : List Char → Option (String × List Char)
  | '"' :: rest => readBasic (rest.length + 1) [] rest
  | '\'' :: rest => readLiteral [] rest
  | s =>
    let bare := s.takeWhile isBare
    if bare.isEmpty then none else some (String.ofList bare, s.dropWhile isBare)

/-- The parts of a key with points between them and blanks around them. -/
def readKeyParts : (fuel : Nat) → List Char → Option (List String × List Char)
  | 0, _ => none
  | fuel + 1, s => do
    let (part, rest) ← readSimpleKey (skipBlanks s)
    match skipBlanks rest with
    | '.' :: rest =>
      let (parts, rest) ← readKeyParts fuel rest
      return (part :: parts, rest)
    | rest => return ([part], rest)

/-- Neither values nor keys may be nested this deep. -/
def nestingLimit : Nat := 80

/-- A key: the path to a table and the last part. -/
def readKey (s : List Char) : Option ((List String × String) × List Char) := do
  let (parts, rest) ← readKeyParts (s.length + 1) s
  if nestingLimit ≤ parts.length then none
  else return ((parts.dropLast, ← parts.getLast?), rest)

/-! ### Numbers -/

/-- The digits of a run in which single underscores may stand between digits, without the
underscores.  A run that ends in an underscore is refused. -/
def readRun (isDigit : Char → Bool) : (fuel : Nat) → List Char → Option (List Char × List Char)
  | 0, s => some ([], s)
  | fuel + 1, s =>
    match s with
    | '_' :: c :: rest =>
      if isDigit c then do
        let (digits, rest) ← readRun isDigit fuel rest
        return (c :: digits, rest)
      else none
    | '_' :: [] => none
    | c :: rest =>
      if isDigit c then do
        let (digits, rest) ← readRun isDigit fuel rest
        return (c :: digits, rest)
      else some ([], c :: rest)
    | [] => some ([], [])

/-- A run of digits that starts with a digit. -/
def readDigits (isDigit : Char → Bool) : List Char → Option (List Char × List Char)
  | [] => none
  | c :: rest =>
    if isDigit c then do
      let (digits, rest) ← readRun isDigit (rest.length + 1) rest
      return (c :: digits, rest)
    else none

/-- The whole part of a number: one zero, or a run that does not start with one. -/
def readWhole : List Char → Option (List Char × List Char)
  | '0' :: rest => some (['0'], rest)
  | s => readDigits Digits.isDigit s

/-- The exponent of a number, if its mark follows. -/
def readExponent (s : List Char) : Option (Option (Bool × List Char) × List Char) :=
  match s with
  | e :: rest =>
    if e == 'e' || e == 'E' then
      let (down, rest) :=
        match rest with
        | '+' :: rest => (false, rest)
        | '-' :: rest => (true, rest)
        | rest => (false, rest)
      (readDigits Digits.isDigit rest).map fun (digits, rest) => (some (down, digits), rest)
    else some (none, s)
  | [] => some (none, [])

/-- Whether `0.digits · 10 ^ power` is nearest to an infinite double, where the first digit is not
zero. -/
def isHuge (digits : List Char) (power : Int) : Bool :=
  if power < 300 then false
  else if 320 < power then true
  else
    let shift := power - (digits.length : Int)
    let (num, den) :=
      if 0 ≤ shift then (Digits.value digits * Nat.pow 10 shift.toNat, 1)
      else (Digits.value digits, Nat.pow 10 (-shift).toNat)
    (Double.nearest? false num den).isNone

/-- Whether a positive number is too large to be a double. -/
def overflows (whole fraction : List Char) (exponent : Option (Bool × List Char)) : Bool :=
  let all := whole ++ fraction
  let significant := all.dropWhile (· == '0')
  if significant.isEmpty then false
  else
    let zeros : Int := (all.length - significant.length : Nat)
    let power : Int :=
      match exponent with
      | none => 0
      | some (down, digits) =>
        if down then -(Digits.value digits : Int) else Digits.value digits
    isHuge significant ((whole.length : Int) - zeros + power)

/-- A whole number, where 64 bits with a sign hold it. -/
def integer? (negative : Bool) (size : Nat) : Option Value :=
  if negative then if size ≤ Nat.pow 2 63 then some (.integer (-size)) else none
  else if size < Nat.pow 2 63 then some (.integer size) else none

/-- A number in base ten after its sign. -/
def readDecimal (negative : Bool) (s : List Char) : Option (Value × List Char) := do
  let (whole, rest) ← readWhole s
  let (fraction, rest) ←
    match rest with
    | '.' :: rest => readDigits Digits.isDigit rest
    | rest => some ([], rest)
  let (exponent, rest) ← readExponent rest
  if fraction.isEmpty && exponent.isNone then
    return (← integer? negative (Digits.value whole), rest)
  else if !negative && overflows whole fraction exponent then none
  else return (.float (String.ofList (s.take (s.length - rest.length))), rest)

/-- A whole number in base two, eight or sixteen, after its mark. -/
def readBased (base : Nat) (s : List Char) : Option (Value × List Char) := do
  let isDigit (c : Char) : Bool :=
    match Digits.hexWorth? c with
    | some n => decide (n < base)
    | none => false
  let (digits, rest) ← readDigits isDigit s
  let size := digits.foldl (fun total c => base * total + (Digits.hexWorth? c).getD 0) 0
  return (← integer? false size, rest)

/-- The rest after a word. -/
def afterWord? (word s : List Char) : Option (List Char) :=
  if word.isPrefixOf s then some (s.drop word.length) else none

/-- The numbers that are words. -/
def readNamed (s : List Char) : Option (Value × List Char) :=
  match s with
  | 'i' :: _ => (afterWord? ['i', 'n', 'f'] s).map (.float "inf", ·)
  | 'n' :: _ => (afterWord? ['n', 'a', 'n'] s).map (.float "nan", ·)
  | _ => none

/-- A number after its sign. -/
def readSigned (negative : Bool) (s : List Char) : Option (Value × List Char) :=
  match readNamed s with
  | some found => some found
  | none => readDecimal negative s

/-- A number. -/
def readNumber : List Char → Option (Value × List Char)
  | '0' :: 'x' :: rest => readBased 16 rest
  | '0' :: 'o' :: rest => readBased 8 rest
  | '0' :: 'b' :: rest => readBased 2 rest
  | '+' :: rest => readSigned false rest
  | '-' :: rest => readSigned true rest
  | s => readSigned false s

/-! ### Dates -/

/-- A number of two digits within bounds. -/
def readPair (low high : Nat) : List Char → Option (Nat × List Char)
  | a :: b :: rest =>
    if Digits.isDigit a && Digits.isDigit b then
      let n := Digits.value [a, b]
      if low ≤ n && n ≤ high then some (n, rest) else none
    else none
  | _ => none

/-- The rest after a character that must be there. -/
def after? (c : Char) : List Char → Option (List Char)
  | [] => none
  | d :: rest => if d == c then some rest else none

/-- The days of a month. -/
def daysOf (year month : Nat) : Nat :=
  if month == 2 then
    if year % 4 == 0 && (year % 100 != 0 || year % 400 == 0) then 29 else 28
  else if month == 4 || month == 6 || month == 9 || month == 11 then 30
  else 31

/-- A calendar date after its year and the first dash. -/
def readMonthDay (year : Nat) (s : List Char) : Option (List Char) := do
  let (month, s) ← readPair 1 12 s
  let (day, s) ← readPair 1 31 (← after? '-' s)
  if day ≤ daysOf year month then return s else none

/-- A time of day after its hour and the first colon; a minute may have a sixty-first second. -/
def readMinutes (s : List Char) : Option (List Char) := do
  let (_, s) ← readPair 0 59 s
  let (_, s) ← readPair 0 60 (← after? ':' s)
  match s with
  | '.' :: c :: rest =>
    if Digits.isDigit c then return rest.dropWhile Digits.isDigit else return s
  | _ => return s

/-- The offset of a time of day; there need not be one. -/
def readOffset (s : List Char) : Option (List Char) :=
  match s with
  | 'Z' :: rest => some rest
  | 'z' :: rest => some rest
  | c :: rest =>
    if c == '+' || c == '-' then do
      let (_, rest) ← readPair 0 23 rest
      let (_, rest) ← readPair 0 59 (← after? ':' rest)
      return rest
    else some s
  | [] => some []

/-- The time that may follow a date. -/
def readTimeAfterDate (s : List Char) : Option (List Char) :=
  match s with
  | c :: rest =>
    if c == 'T' || c == 't' || c == ' ' then
      match readPair 0 23 rest with
      | some (_, ':' :: rest) => (readMinutes rest).bind readOffset
      | _ => some s
    else some s
  | [] => some []

/-- What is written in front of a rest. -/
def written (s rest : List Char) : String := String.ofList (s.take (s.length - rest.length))

/-- A date, a time or a number: whatever starts with a digit or a sign. -/
def readDateOrNumber (s : List Char) : Option (Value × List Char) :=
  match s with
  | a :: b :: c :: d :: '-' :: rest =>
    if [a, b, c, d].all Digits.isDigit then do
      let rest ← readTimeAfterDate (← readMonthDay (Digits.value [a, b, c, d]) rest)
      return (.date (written s rest), rest)
    else readNumber s
  | a :: b :: ':' :: rest =>
    if [a, b].all Digits.isDigit then
      if Digits.value [a, b] ≤ 23 then do
        let rest ← readMinutes rest
        return (.date (written s rest), rest)
      else none
    else readNumber s
  | _ => readNumber s

end TunnelKeeper.Toml
