import TunnelKeeper.Number.Double
import TunnelKeeper.Text.Digits

/-!
# Shortest digits — the fewest decimal digits that read back

A double is the nearest one to a whole interval of numbers.  Its shortest digits are found on the
decimal grids of one, two, three … significant digits: the first grid that has a point inside the
interval wins, and of two such points the nearer one, an exact half going to the even digit.  The
interval includes its ends exactly when the mantissa is even, because ties are read to the even
mantissa.  Seventeen digits always suffice.
-/

namespace TunnelKeeper.Double

/-- The numbers that read as a double: the value and the two ends, over one denominator. -/
structure Reach where
  low : Nat
  value : Nat
  high : Nat
  den : Nat
  closed : Bool
deriving Repr

/-- The interval around a positive double.  Below a power of two the gap is half as wide. -/
def reach (d : Double) : Reach :=
  let m := d.mantissa
  let narrow := m == leastNormal && leastExponent < d.exponent
  let low := if narrow then 4 * m - 1 else 4 * m - 2
  let (scale, den) :=
    if 2 ≤ d.exponent then (Nat.pow 2 (d.exponent - 2).toNat, 1)
    else (1, Nat.pow 2 (2 - d.exponent).toNat)
  ⟨low * scale, 4 * m * scale, (4 * m + 2) * scale, den, m % 2 == 0⟩

/-- Whether the number `num / den`, over the interval's own denominator, reads as the double. -/
def Reach.holds (r : Reach) (num : Nat) : Bool :=
  if r.closed then r.low ≤ num && num ≤ r.high else r.low < num && num < r.high

/-- How often a positive quotient below one must be multiplied by ten to reach one. -/
def tensToOne : (fuel num den : Nat) → Nat
  | 0, _, _ => 0
  | fuel + 1, num, den => if den ≤ num then 0 else tensToOne fuel (num * 10) den + 1

/-- The exponent of the first decimal digit of a positive quotient. -/
def decimalExponent (num den : Nat) : Int :=
  if den ≤ num then ((Digits.ofNat (num / den)).length : Int) - 1
  else -(tensToOne 400 num den : Int)

/-- A decimal `digits · 10 ^ exponent`. -/
structure Decimal where
  digits : Nat
  exponent : Int
deriving DecidableEq, Repr

/-- The better of the two neighbours of the value on the grid `10 ^ exponent`, if one of them
lies in the interval. -/
def Reach.onGrid? (r : Reach) (exponent : Int) : Option Nat :=
  -- Everything is brought over a denominator in which the grid has a whole width.
  let (unit, factor) :=
    if 0 ≤ exponent then (r.den * Nat.pow 10 exponent.toNat, 1) else (r.den, Nat.pow 10 (-exponent).toNat)
  let scaled : Reach :=
    ⟨r.low * factor, r.value * factor, r.high * factor, r.den, r.closed⟩
  let below := scaled.value / unit
  let above := below + 1
  let belowFits := scaled.holds (below * unit)
  let aboveFits := scaled.holds (above * unit)
  let toBelow := scaled.value - below * unit
  let toAbove := above * unit - scaled.value
  if belowFits && aboveFits then
    some (if toBelow < toAbove then below
      else if toAbove < toBelow then above
      else if below % 2 == 0 then below else above)
  else if belowFits then some below
  else if aboveFits then some above
  else none

/-- Tries grids of `count`, `count + 1`, … digits. -/
def Reach.search (r : Reach) (first : Int) : (fuel count : Nat) → Decimal
  | 0, count => ⟨r.value / r.den, first - count + 1⟩
  | fuel + 1, count =>
    let exponent := first - count + 1
    match r.onGrid? exponent with
    | some digits => ⟨digits, exponent⟩
    | none => r.search first fuel (count + 1)

/-- Moves the zeros at the end of the digits into the exponent. -/
def Decimal.strip : (fuel : Nat) → Decimal → Decimal
  | 0, d => d
  | fuel + 1, d =>
    if d.digits != 0 && d.digits % 10 == 0 then
      strip fuel ⟨d.digits / 10, d.exponent + 1⟩
    else d

/-- The shortest decimal that reads back as the size of a double that is not zero. -/
def shortest (d : Double) : Decimal :=
  let r := d.reach
  (r.search (decimalExponent r.value r.den) 17 1).strip 20

example : (⟨false, 7205759403792794, -56⟩ : Double).shortest = ⟨1, -1⟩ := by decide

example : (⟨false, 4503599627370496, -52⟩ : Double).shortest = ⟨1, 0⟩ := by decide

end TunnelKeeper.Double
