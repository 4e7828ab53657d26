/-!
Finite binary floating-point numbers of double precision, in exact arithmetic on whole numbers.
-/

namespace VaultOperator

/-- The number `mantissa * 2 ^ exponent`, negated if `negative`. The functions below make these
with a mantissa of 53 bits, the first of which is set unless the exponent is the least one. -/
structure Double where
  negative : Bool
  mantissa : Nat
  exponent : Int
  deriving DecidableEq, Repr

namespace Double

def leastExponent : Int := -1074

def greatestExponent : Int := 971

/-- The least mantissa whose first bit is set: two to the power of 52. -/
def leastMantissa : Nat := 4503599627370496

def zero : Double := ⟨false, 0, leastExponent⟩

instance : Inhabited Double := ⟨zero⟩

def isZero (x : Double) : Bool :=
  x.mantissa == 0

def neg (x : Double) : Double :=
  { x with negative := !x.negative }

/-- Equal as numbers: the two zeros are one. -/
def same (x y : Double) : Bool :=
  x == y || (x.isZero && y.isZero)

/-- The whole number nearest to `num / den`, of two the even one. -/
def roundHalfEven (num den : Nat) : Nat :=
  let quotient := num / den
  let twice := 2 * (num % den)
  if twice < den then quotient
  else if den < twice then quotient + 1
  else if quotient % 2 = 0 then quotient
  else quotient + 1

def scale (num den : Nat) (power : Int) : Nat × Nat :=
  if 0 ≤ power then (num * Nat.pow 2 power.toNat, den)
  else (num, den * Nat.pow 2 (-power).toNat)

/-- The exponent at which `num / den` has a mantissa of 53 bits, or the least exponent. -/
def exponentOf (num den : Nat) : Int :=
  let guess : Int := (Nat.log2 num : Int) - Nat.log2 den - 52
  let (n, d) := scale num den (-guess)
  max leastExponent (if n < d * leastMantissa then guess - 1 else guess)

/-- The double nearest to `num / den`, of two the one with an even mantissa; none when that is
past the greatest double. -/
def ofRatio? (num den : Nat) : Option Double :=
  if num = 0 then some zero
  else
    let exponent := exponentOf num den
    let (n, d) := scale num den (-exponent)
    let mantissa := roundHalfEven n d
    let (mantissa, exponent) :=
      if mantissa = 2 * leastMantissa then (leastMantissa, exponent + 1) else (mantissa, exponent)
    if greatestExponent < exponent then none else some ⟨false, mantissa, exponent⟩

/-- The magnitude as a fraction. -/
def toRatio (x : Double) : Nat × Nat :=
  scale x.mantissa 1 x.exponent

def tenTo (power : Nat) : Double :=
  (ofRatio? (Nat.pow 10 power) 1).getD zero

/-- The product of two magnitudes, rounded; none when it is too great. -/
def mul? (x y : Double) : Option Double :=
  let (a, b) := x.toRatio
  let (c, d) := y.toRatio
  ofRatio? (a * c) (b * d)

def div (x y : Double) : Double :=
  let (a, b) := x.toRatio
  let (c, d) := y.toRatio
  (ofRatio? (a * d) (b * c)).getD zero

/-- The greatest power of ten that is a double. -/
def maxTenPower : Nat := 308

/-- Divides by a power of ten, at most `10 ^ 308` at a time, rounding each time. -/
def divTenTo (x : Double) (power : Nat) : Double :=
  if x.isZero then x
  else if power ≤ maxTenPower then x.div (tenTo power)
  else divTenTo (x.div (tenTo maxTenPower)) (power - maxTenPower)
termination_by power
decreasing_by all_goals (simp only [maxTenPower] at *; omega)

/-- The double that a decimal with this significand and exponent is read as: the significand is
rounded to a double first and then scaled by a power of ten. None when that is too great. -/
def ofDecimal? (significand : Nat) (exponent : Int) : Option Double :=
  (ofRatio? significand 1).bind fun x =>
    if x.isZero then some x
    else if exponent < 0 then some (x.divTenTo (-exponent).toNat)
    else if exponent.toNat ≤ maxTenPower then x.mul? (tenTo exponent.toNat)
    else none

end Double

end VaultOperator
