/-!
# Digits — decimal numerals as lists of characters

A numeral is a list of the ASCII digits.  `Digits.ofNat` writes the one numeral of a number that
has no leading zero, `Digits.value` reads any numeral, leading zeros included, and
`Digits.read?` refuses whatever is not a numeral.  `Digits.readWord?` does the same in 64 bits and
refuses what these do not hold.
-/

namespace TunnelKeeper.Digits

/-- One of the ten ASCII digits. -/
def isDigit (c : Char) : Bool := '0' ≤ c && c ≤ '9'

/-- What a digit is worth; a character that is no digit is worth its distance from `0`. -/
def worth (c : Char) : Nat := c.toNat - '0'.toNat

/-- The digit worth `n`, for `n` below ten. -/
def ofWorth (n : Nat) : Char := Char.ofNat ('0'.toNat + n)

/-- Writes `n` in front of `rest`; `fuel` bounds the number of digits and `n` itself is enough. -/
def writeBefore : (fuel n : Nat) → (rest : List Char) → List Char
  | 0, n, rest => ofWorth (n % 10) :: rest
  | fuel + 1, n, rest =>
    if n < 10 then ofWorth n :: rest
    else writeBefore fuel (n / 10) (ofWorth (n % 10) :: rest)

/-- The numeral of `n` without a leading zero. -/
def ofNat (n : Nat) : List Char := writeBefore n n []

/-- The numeral of `n` as a text. -/
def text (n : Nat) : String := String.ofList (ofNat n)

/-- The number a numeral denotes, most significant digit first. -/
def value (numeral : List Char) : Nat :=
  numeral.foldl (fun total c => 10 * total + worth c) 0

/-- The number of a non-empty numeral; anything else denotes nothing. -/
def read? (numeral : List Char) : Option Nat :=
  if numeral.isEmpty || !numeral.all isDigit then none else some (value numeral)

/-- A number of 64 bits with one digit more at its end, where 64 bits hold that, too. -/
def append? (total : UInt64) (c : Char) : Option UInt64 :=
  if isDigit c && 10 * total.toNat + worth c < Nat.pow 2 64 then
    some (10 * total + (worth c).toUInt64)
  else none

/-- The number of a non-empty numeral, read digit by digit in 64 bits; none where it overflows. -/
def readWord? (numeral : List Char) : Option UInt64 :=
  if numeral.isEmpty then none else numeral.foldlM append? 0

/-- What a hexadecimal digit of either case is worth. -/
def hexWorth? (c : Char) : Option Nat :=
  if isDigit c then some (worth c)
  else if 'a' ≤ c && c ≤ 'f' then some (c.toNat - 'a'.toNat + 10)
  else if 'A' ≤ c && c ≤ 'F' then some (c.toNat - 'A'.toNat + 10)
  else none

/-- The lower-case hexadecimal digit worth `n`, for `n` below sixteen. -/
def hexDigit (n : Nat) : Char :=
  if n < 10 then ofWorth n else Char.ofNat ('a'.toNat + (n - 10))

/-- The number of a non-empty list of hexadecimal digits. -/
def readHex? (numeral : List Char) : Option Nat :=
  if numeral.isEmpty then none
  else numeral.foldlM (fun total c => (hexWorth? c).map (16 * total + ·)) 0

/-- Writes `n` in lower-case hexadecimal in front of `rest`. -/
def writeHexBefore : (fuel n : Nat) → (rest : List Char) → List Char
  | 0, n, rest => hexDigit (n % 16) :: rest
  | fuel + 1, n, rest =>
    if n < 16 then hexDigit n :: rest
    else writeHexBefore fuel (n / 16) (hexDigit (n % 16) :: rest)

/-- The lower-case hexadecimal numeral of `n` without a leading zero. -/
def hexOfNat (n : Nat) : List Char := writeHexBefore n n []

/-- The last `width` lower-case hexadecimal digits of `n`. -/
def hexPadded : (width n : Nat) → List Char
  | 0, _ => []
  | width + 1, n => hexPadded width (n / 16) ++ [hexDigit (n % 16)]

theorem ofNat_of_lt {n : Nat} (h : n < 10) : ofNat n = [ofWorth n] := by
  unfold ofNat
  cases n with
  | zero => rfl
  | succ n => simp [writeBefore, h]

end TunnelKeeper.Digits
