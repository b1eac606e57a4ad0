import TunnelKeeper.Text.Digits

/-!
# TOML texts — documents of one level of tables

A `Sheet` has entries of its own and named tables of entries; every entry is a text, a number or
a list of texts.  A text is written in the plainest of six forms that can hold it: between quotes,
between apostrophes, between triple quotes, between triple apostrophes, and at last with escapes
on one line or on several.  Lists of two items or more take a line for each.
-/

namespace TunnelKeeper.Toml

/-- What stands for a key of a sheet. -/
inductive Entry where
  | text (s : String)
  | natural (n : Nat)
  | texts (items : List String)
deriving Repr

/-- A document whose tables hold no tables. -/
structure Sheet where
  entries : List (String × Entry)
  tables : List (String × List (String × Entry))
deriving Repr

namespace Written

/-- The length of the longest run of a character. -/
def longestRun (c : Char) : (current longest : Nat) → List Char → Nat
  | current, longest, [] => max current longest
  | current, longest, d :: rest =>
    if d == c then longestRun c (current + 1) longest rest
    else longestRun c 0 (max current longest) rest

/-- A control character, which only an escape can write; tabs and line feeds are none. -/
def isControl (c : Char) : Bool :=
  c != '\t' && c != '\n' && (c.toNat < 0x20 || c.toNat == 0x7F)

/-- An upper-case hexadecimal digit. -/
def upperHexDigit (n : Nat) : Char :=
  if n < 10 then Digits.ofWorth n else Char.ofNat ('A'.toNat + (n - 10))

/-- How a character stands between quotes. -/
def escape (lines : Bool) (c : Char) : List Char :=
  match c with
  | '\x08' => ['\\', 'b']
  | '\t' => ['\\', 't']
  | '\n' => if lines then ['\n'] else ['\\', 'n']
  | '\x0c' => ['\\', 'f']
  | '\r' => ['\\', 'r']
  | '\\' => ['\\', '\\']
  | c =>
    if isControl c then
      ['\\', 'u', '0', '0', upperHexDigit (c.toNat / 16), upperHexDigit (c.toNat % 16)]
    else [c]

/-- The characters between quotes; at most `spare` quotes in a row stand for themselves. -/
def escaped (lines : Bool) (spare : Nat) : (run : Nat) → List Char → List Char
  | _, [] => []
  | run, '"' :: rest =>
    if run < spare then '"' :: escaped lines spare (run + 1) rest
    else '\\' :: '"' :: escaped lines spare 0 rest
  | _, c :: rest => escape lines c ++ escaped lines spare 0 rest

/-- A text in the plainest form. -/
def textChars (s : List Char) : List Char :=
  let control := s.any isControl
  let backslash := s.any (· == '\\')
  let lines := s.any (· == '\n')
  let quotes := longestRun '"' 0 0 s
  let apostrophes := longestRun '\'' 0 0 s
  let opening := if lines then ['\n'] else []
  let tripleQuotes := ['"', '"', '"']
  let tripleApostrophes := ['\'', '\'', '\'']
  if !control && !backslash && quotes == 0 && !lines then '"' :: escaped false 0 0 s ++ ['"']
  else if !control && apostrophes == 0 && !lines then '\'' :: s ++ ['\'']
  else if !control && !backslash && quotes ≤ 2 then
    tripleQuotes ++ opening ++ escaped true 2 0 s ++ tripleQuotes
  else if !control && apostrophes ≤ 2 then
    tripleApostrophes ++ opening ++ s ++ tripleApostrophes
  else if lines then tripleQuotes ++ opening ++ escaped true 2 0 s ++ tripleQuotes
  else '"' :: escaped false 0 0 s ++ ['"']

/-- A list of texts. -/
def textsChars (items : List String) : List Char :=
  match items with
  | [] => ['[', ']']
  | [item] => '[' :: textChars item.toList ++ [']']
  | items =>
    let line (item : String) : List Char :=
      ['\n', ' ', ' ', ' ', ' '] ++ textChars item.toList ++ [',']
    '[' :: items.flatMap line ++ ['\n', ']']

/-- The largest number a document can hold. -/
def greatest : Nat := Nat.pow 2 63 - 1

/-- What stands for a key; a number that is too large cannot be written. -/
def entryChars? : Entry → Option (List Char)
  | .text s => some (textChars s.toList)
  | .natural n => if n ≤ greatest then some (Digits.ofNat n) else none
  | .texts items => some (textsChars items)

/-- A line of a key and what stands for it. -/
def lineChars? (line : String × Entry) : Option (List Char) :=
  (entryChars? line.2).map fun value => line.1.toList ++ [' ', '=', ' '] ++ value ++ ['\n']

/-- The lines of a table. -/
def linesChars? : List (String × Entry) → Option (List Char)
  | [] => some []
  | line :: rest => do return (← lineChars? line) ++ (← linesChars? rest)

/-- Tables, an empty line and a header in front of each. -/
def tablesChars? : List (String × List (String × Entry)) → Option (List Char)
  | [] => some []
  | (name, lines) :: rest => do
    return ['\n', '['] ++ name.toList ++ [']', '\n'] ++ (← linesChars? lines) ++
      (← tablesChars? rest)

end Written

/-- The text of a sheet, where all its numbers can be written. -/
def Sheet.chars? (sheet : Sheet) : Option (List Char) := do
  return (← Written.linesChars? sheet.entries) ++ (← Written.tablesChars? sheet.tables)

def Sheet.text? (sheet : Sheet) : Option String := sheet.chars?.map String.ofList

end TunnelKeeper.Toml
