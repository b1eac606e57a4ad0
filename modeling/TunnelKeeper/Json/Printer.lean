import TunnelKeeper.Json.Value
import TunnelKeeper.Number.Decimal

/-!
# Printing — the two texts of a value

`Json.chars` writes a value on one line without any white space, `Json.prettyChars` one item or
entry to a line, two blanks deeper at each level.  Only quotes, backslashes and the control
characters below the blank are escaped, so a value never takes more than one line of the compact
text.
-/

namespace TunnelKeeper.Json

/-- How a character stands inside a string. -/
def escape (c : Char) : List Char :=
  match c with
  | '"' => ['\\', '"']
  | '\\' => ['\\', '\\']
  | '\x08' => ['\\', 'b']
  | '\x0c' => ['\\', 'f']
  | '\n' => ['\\', 'n']
  | '\r' => ['\\', 'r']
  | '\t' => ['\\', 't']
  | c => if c.toNat < 0x20 then '\\' :: 'u' :: Digits.hexPadded 4 c.toNat else [c]

/-- A text between quotes. -/
def quoted (s : String) : List Char := '"' :: s.toList.flatMap escape ++ ['"']

/-- The text of a number. -/
def Number.chars : Number → List Char
  | .natural n => Digits.ofNat n
  | .negative size => '-' :: Digits.ofNat size
  | .double d => d.chars

mutual

/-- The compact text of a value. -/
def chars : Json → List Char
  | .null => ['n', 'u', 'l', 'l']
  | .bool true => ['t', 'r', 'u', 'e']
  | .bool false => ['f', 'a', 'l', 's', 'e']
  | .number n => n.chars
  | .text s => quoted s
  | .list items => '[' :: itemsChars items ++ [']']
  | .object entries => '{' :: entriesChars entries ++ ['}']

/-- Items with commas between them. -/
def itemsChars : List Json → List Char
  | [] => []
  | [item] => chars item
  | item :: items => chars item ++ ',' :: itemsChars items

/-- Entries with commas between them. -/
def entriesChars : List (String × Json) → List Char
  | [] => []
  | [(key, value)] => quoted key ++ ':' :: chars value
  | (key, value) :: entries => quoted key ++ ':' :: chars value ++ ',' :: entriesChars entries

end

/-- The compact text of a value. -/
def compact (json : Json) : String := String.ofList json.chars

/-- A new line, indented for a level. -/
def newLine (level : Nat) : List Char := '\n' :: List.replicate (2 * level) ' '

mutual

/-- The text of a value over several lines; `level` is the depth of the line it starts on. -/
def prettyChars (level : Nat) : Json → List Char
  | .list [] => ['[', ']']
  | .object [] => ['{', '}']
  | .list items => '[' :: prettyItems (level + 1) items ++ newLine level ++ [']']
  | .object entries => '{' :: prettyEntries (level + 1) entries ++ newLine level ++ ['}']
  | .null => ['n', 'u', 'l', 'l']
  | .bool true => ['t', 'r', 'u', 'e']
  | .bool false => ['f', 'a', 'l', 's', 'e']
  | .number n => n.chars
  | .text s => quoted s

/-- Items on lines of their own. -/
def prettyItems (level : Nat) : List Json → List Char
  | [] => []
  | [item] => newLine level ++ prettyChars level item
  | item :: items => newLine level ++ prettyChars level item ++ ',' :: prettyItems level items

/-- Entries on lines of their own. -/
def prettyEntries (level : Nat) : List (String × Json) → List Char
  | [] => []
  | [(key, value)] => newLine level ++ quoted key ++ ':' :: ' ' :: prettyChars level value
  | (key, value) :: entries =>
    newLine level ++ quoted key ++ ':' :: ' ' :: prettyChars level value ++
      ',' :: prettyEntries level entries

end

/-- The text of a value over several lines. -/
def pretty (json : Json) : String := String.ofList (json.prettyChars 0)

end TunnelKeeper.Json
