import TunnelKeeper.Number.Shortest

/-!
# Decimal texts — how documents spell doubles, and how they are read

`Double.chars` writes the shortest digits: positionally while the first digit stands for at least
`10 ^ -5` and at most `10 ^ 15`, with an exponent otherwise.  `Double.ofScaled?` is the reading
rule of the same documents: as many leading digits as fit into 64 bits are kept, rounded to a
double, and that double is multiplied or divided by a power of ten and rounded again.  So a
numeral with many digits may read as a neighbour of the nearest double.
-/

namespace TunnelKeeper.Double

/-- Where positional writing ends. -/
structure Layout where
  leastPositional : Int
  greatestPositional : Int

/-- Documents write `0.00001` and `1000000000000000.0` positionally, `1e-6` and `1e+16` not. -/
def layout : Layout := ⟨-5, 15⟩

/-- The text of a positive decimal whose first digit stands for `10 ^ first`. -/
def positional (digits : List Char) (first : Int) : List Char :=
  if first < 0 then
    '0' :: '.' :: List.replicate (-first - 1).toNat '0' ++ digits
  else
    let whole := (first + 1).toNat
    if digits.length ≤ whole then
      digits ++ List.replicate (whole - digits.length) '0' ++ ['.', '0']
    else digits.take whole ++ '.' :: digits.drop whole

/-- The text with an exponent, whose sign is always written. -/
def scientific (digits : List Char) (first : Int) : List Char :=
  let mark := if first < 0 then ['e', '-'] else ['e', '+']
  let power := mark ++ Digits.ofNat first.natAbs
  match digits with
  | [] => power
  | [d] => d :: power
  | d :: rest => d :: '.' :: rest ++ power

/-- The text of a double: the shortest digits, and always a point or an exponent. -/
def chars (d : Double) : List Char :=
  let sign := if d.negative then ['-'] else []
  if d.isZero then sign ++ ['0', '.', '0']
  else
    let decimal := d.shortest
    let digits := Digits.ofNat decimal.digits
    let first := decimal.exponent + (digits.length : Int) - 1
    sign ++
      if layout.leastPositional ≤ first && first ≤ layout.greatestPositional then
        positional digits first
      else scientific digits first

/-- The largest whole number that 64 bits hold. -/
def greatestWord : Nat := Nat.pow 2 64 - 1

/-- Appends digits to a number while the result fits into 64 bits; also gives the digits left. -/
def absorb : (total : Nat) → (digits : List Char) → Nat × List Char
  | total, [] => (total, [])
  | total, c :: rest =>
    let next := 10 * total + Digits.worth c
    if next ≤ greatestWord then absorb next rest else (total, c :: rest)

/-- Divides by `10 ^ 308` as long as the exponent is below the table of powers. -/
def lower : (rounds : Nat) → Double → (power : Nat) → Option Double
  | 0, d, _ => some d
  | rounds + 1, d, power =>
    if d.isZero then some d
    else if power ≤ 308 then do d.div? (← ofNat? (Nat.pow 10 power))
    else do lower rounds (← d.div? (← ofNat? (Nat.pow 10 308))) (power - 308)

/-- `significand · 10 ^ power` read in two roundings; none where it is too large. -/
def ofScaled? (negative : Bool) (significand : Nat) (power : Int) : Option Double := do
  let whole ← ofNat? significand
  let size ←
    if whole.isZero then some whole
    else if 308 < power then none
    else if 0 ≤ power then do whole.mul? (← ofNat? (Nat.pow 10 power.toNat))
    else lower 4 whole (-power).toNat
  return if negative then size.neg else size

/-- The greatest exponent a numeral may spell; a larger one stands for "no such power". -/
def greatestPower : Nat := Nat.pow 2 31 - 1

/-- Reads a numeral in parts: sign, whole digits, fraction digits and exponent. -/
def ofNumeral? (negative : Bool) (whole fraction : List Char)
    (exponent : Option (Bool × List Char)) : Option Double :=
  let (upTo, dropped) := absorb 0 whole
  let (significand, unread) := absorb upTo fraction
  let point : Int := (dropped.length : Int) - ((fraction.length - unread.length : Nat) : Int)
  match exponent with
  | none => ofScaled? negative significand point
  | some (down, digits) =>
    let power := Digits.value digits
    if greatestPower < power then
      if significand == 0 || down then some (zero negative) else none
    else ofScaled? negative significand (if down then point - power else point + power)

example : (ofScaled? false 1 (-7)).map chars = some ['1', 'e', '-', '7'] := by decide

example : (ofScaled? false 1 (-5)).map chars = some ['0', '.', '0', '0', '0', '0', '1'] := by decide

example : (ofScaled? false 1 21).map chars = some ['1', 'e', '+', '2', '1'] := by decide

end TunnelKeeper.Double
