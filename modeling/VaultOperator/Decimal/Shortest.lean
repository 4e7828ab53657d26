import VaultOperator.Decimal.Double

/-!
The shortest decimal that reads back as a given double, and its writing.
-/

namespace VaultOperator.Decimal

/-- The number `digits * 10 ^ exponent`. -/
structure Numeral where
  digits : Nat
  exponent : Int
  deriving DecidableEq, Repr

/-- A double with the halfway points to its neighbours, all in units of `1 / den`. The halfway
points themselves read back as the double when its mantissa is even. -/
structure Interval where
  low : Nat
  value : Nat
  high : Nat
  den : Nat
  closed : Bool

def Interval.ofDouble (x : Double) : Interval :=
  let down := if x.mantissa = Double.leastMantissa ∧ Double.leastExponent < x.exponent then 1 else 2
  let (unit, den) := Double.scale 1 1 (x.exponent - 2)
  { low := (4 * x.mantissa - down) * unit
    value := 4 * x.mantissa * unit
    high := (4 * x.mantissa + 2) * unit
    den := den
    closed := x.mantissa % 2 = 0 }

def Interval.holds (i : Interval) (num den : Nat) : Bool :=
  let low := i.low * den
  let high := i.high * den
  let at_ := num * i.den
  if i.closed then low ≤ at_ && at_ ≤ high else low < at_ && at_ < high

/-- The number of decimal places to shift `num / den` by until it is at least one. -/
def shiftUp (num den : Nat) : Nat → Nat → Nat
  | 0, places => places
  | fuel + 1, places => if den ≤ num then places else shiftUp (num * 10) den fuel (places + 1)

/-- The exponent of the first digit of `num / den`. -/
def magnitude (num den : Nat) : Int :=
  if den ≤ num then ((Nat.toDigits 10 (num / den)).length : Int) - 1
  else -(shiftUp num den 400 0 : Int)

/-- Of the two multiples of `10 ^ exponent` around the value those that read back; of both the
nearer, of two equally near ones the even. -/
def Interval.onGrid? (i : Interval) (exponent : Int) : Option Nat :=
  let num := if 0 ≤ exponent then Nat.pow 10 exponent.toNat else 1
  let den := if 0 ≤ exponent then 1 else Nat.pow 10 (-exponent).toNat
  let below := i.value * den / (i.den * num)
  let above := below + 1
  match i.holds (below * num) den, i.holds (above * num) den with
  | false, false => none
  | true, false => some below
  | false, true => some above
  | true, true => some (Double.roundHalfEven (i.value * den) (i.den * num))

/-- The coarsest grid of decimals that holds one that reads back. -/
def Interval.shortest (i : Interval) (top : Int) : Nat → Nat → Numeral
  | 0, places => ⟨i.value / i.den, top - places⟩
  | fuel + 1, places =>
    match i.onGrid? (top - places) with
    | some digits => ⟨digits, top - places⟩
    | none => i.shortest top fuel (places + 1)

/-- The same number without zeros at the end of the digits. -/
def Numeral.strip (d : Numeral) : Nat → Numeral
  | 0 => d
  | fuel + 1 =>
    if d.digits ≠ 0 ∧ d.digits % 10 = 0 then
      Numeral.strip ⟨d.digits / 10, d.exponent + 1⟩ fuel
    else d

/-- The decimal of fewest digits that reads back as the magnitude of `x`, and among those the
nearest. -/
def shortest (x : Double) : Numeral :=
  if x.isZero then ⟨0, 0⟩
  else
    let i := Interval.ofDouble x
    (i.shortest (magnitude i.value i.den) 17 0).strip 20

structure Style where
  /-- The first digit's exponent from which on, and below which, the scientific form is used. -/
  positionalBelow : Int
  positionalFrom : Int
  exponentMark : String
  positiveSign : String

/-- Between `1e-5` and `1e16` digits stand around a point, with `.0` after whole numbers; outside
the first digit is followed by an exponent that carries its sign. -/
def jsonStyle : Style :=
  { positionalBelow := 16, positionalFrom := -5, exponentMark := "e", positiveSign := "+" }

def zeros (n : Nat) : String :=
  String.ofList (List.replicate n '0')

def Numeral.write (d : Numeral) (style : Style) : String :=
  let digits := toString d.digits
  let length : Int := digits.length
  let first := length + d.exponent - 1
  if d.digits = 0 then "0.0"
  else if style.positionalFrom ≤ first ∧ first < style.positionalBelow then
    if 0 ≤ d.exponent then digits ++ zeros d.exponent.toNat ++ ".0"
    else if 0 ≤ first then
      let cut := (first + 1).toNat
      String.ofList (digits.toList.take cut) ++ "." ++ String.ofList (digits.toList.drop cut)
    else "0." ++ zeros (-first - 1).toNat ++ digits
  else
    let head := String.ofList (digits.toList.take 1)
    let tail := String.ofList (digits.toList.drop 1)
    let exponent := if first < 0 then toString first else style.positiveSign ++ toString first
    head ++ (if tail.isEmpty then "" else "." ++ tail) ++ style.exponentMark ++ exponent

end Decimal

def Double.text (x : Double) : String :=
  (if x.negative then "-" else "") ++ (Decimal.shortest x).write Decimal.jsonStyle

end VaultOperator
