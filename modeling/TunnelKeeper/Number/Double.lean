/-!
# Doubles — finite binary64 values as exact data

A finite double is a sign, a whole mantissa and a power of two.  Every value here is made by
`Double.nearest?`, which rounds a quotient of natural numbers to the nearest double, ties to the
even mantissa, and gives nothing where the nearest double would be infinite.  Products and
quotients of doubles are exact quotients first and are rounded once.
-/

namespace TunnelKeeper

/-- The value `± mantissa · 2 ^ exponent`.  The mantissa is below `2 ^ 53`; it is at least
`2 ^ 52` unless the exponent is the least one, `-1074`.  Zero has a sign of its own. -/
structure Double where
  negative : Bool
  mantissa : Nat
  exponent : Int
deriving DecidableEq, Repr, Inhabited

namespace Double

/-- The exponent of the subnormal numbers. -/
def leastExponent : Int := -1074

/-- The exponent of the largest doubles. -/
def greatestExponent : Int := 971

/-- The least mantissa of a normal number. -/
def leastNormal : Nat := Nat.pow 2 52

def zero (negative : Bool) : Double := ⟨negative, 0, leastExponent⟩

def isZero (d : Double) : Bool := d.mantissa == 0

/-- `num / den` rounded to a whole number, a half going to the even neighbour. -/
def roundHalfEven (num den : Nat) : Nat :=
  let floor := num / den
  let twice := 2 * (num % den)
  if twice < den then floor
  else if den < twice then floor + 1
  else if floor % 2 == 0 then floor else floor + 1

/-- The largest `e` with `2 ^ e ≤ num / den`, for positive `num` and `den`. -/
def binaryExponent (num den : Nat) : Int :=
  let guess : Int := (num.log2 : Int) - (den.log2 : Int)
  let reached :=
    if 0 ≤ guess then den * Nat.pow 2 guess.toNat ≤ num else den ≤ num * Nat.pow 2 (-guess).toNat
  if reached then guess else guess - 1

/-- `num / den` in units of `2 ^ exponent`, as a quotient of natural numbers. -/
def inUnits (num den : Nat) (exponent : Int) : Nat × Nat :=
  if 0 ≤ exponent then (num, den * Nat.pow 2 exponent.toNat) else (num * Nat.pow 2 (-exponent).toNat, den)

/-- The double nearest to `± num / den`; none where that would be infinite. -/
def nearest? (negative : Bool) (num den : Nat) : Option Double :=
  if num == 0 then some (zero negative)
  else
    let exponent := max leastExponent (binaryExponent num den - 52)
    let (scaledNum, scaledDen) := inUnits num den exponent
    let mantissa := roundHalfEven scaledNum scaledDen
    let (mantissa, exponent) :=
      if mantissa == 2 * leastNormal then (leastNormal, exponent + 1) else (mantissa, exponent)
    if greatestExponent < exponent then none else some ⟨negative, mantissa, exponent⟩

/-- The double nearest to a natural number. -/
def ofNat? (n : Nat) : Option Double := nearest? false n 1

/-- The size of a double as a quotient of natural numbers. -/
def quotient (d : Double) : Nat × Nat :=
  if 0 ≤ d.exponent then (d.mantissa * Nat.pow 2 d.exponent.toNat, 1)
  else (d.mantissa, Nat.pow 2 (-d.exponent).toNat)

/-- The rounded product; none where it overflows. -/
def mul? (a b : Double) : Option Double :=
  let (an, ad) := a.quotient
  let (bn, bd) := b.quotient
  nearest? (a.negative != b.negative) (an * bn) (ad * bd)

/-- The rounded quotient by a double that is not zero; none where it overflows. -/
def div? (a b : Double) : Option Double :=
  let (an, ad) := a.quotient
  let (bn, bd) := b.quotient
  nearest? (a.negative != b.negative) (an * bd) (ad * bn)

def neg (d : Double) : Double := { d with negative := !d.negative }

/-- Two doubles are the same number when they are equal as data or both zero. -/
def sameNumber (a b : Double) : Bool := a == b || (a.isZero && b.isZero)

example : nearest? false 1 10 = some ⟨false, 7205759403792794, -56⟩ := by decide

example : nearest? true 0 1 = some (zero true) := by decide

end Double

end TunnelKeeper
