import RecordQuery.Decimal.Arithmetic
import RecordQuery.Binary64.Basic
/-!
# Between decimals and binary numbers

`toFloat` goes to the 64-bit format and `ofFloat?` comes back. The way back is no single rounding: a
number `significand * 2 ^ exponent` first becomes `coefficient * 10 ^ exponent` by trading twos for
tens as long as the coefficient fits 96 bits, and then gives up decimal digits one at a time, half
up, until about fifteen of them are left.
-/

namespace RecordQuery.Decimal

/-- The 64-bit number for a decimal. The fraction is added to the whole part and the sum is rounded
to the decimal places of the scale, half away from zero; the sign comes last. -/
def toFloat (d : Decimal) : Float :=
  if d.scale = 0 then Binary64.ofInt d.signed
  else
    let power := tenPow d.scale
    let fraction := Binary64.ofRatio false (d.coefficient % power) 1 / Binary64.ofRatio false power 1
    let whole := Binary64.ofRatio false (d.coefficient / power) 1
    let magnitude :=
      if Binary64.isZero fraction then whole
      else
        let unit := Binary64.ofRatio false power 1
        ((whole + fraction) * unit).round / unit
    if d.negative then -magnitude else magnitude

/-! ## From binary to decimal -/

/-- A coefficient on its way to a decimal, times a power of ten. -/
structure Scaled where
  coefficient : Nat
  exponent : Int
deriving DecidableEq, Repr

/-- Makes `steps` halvings into tenths: an even coefficient is halved and gains a ten, an odd one is
multiplied by five, or loses its last bit when five times it does not fit. -/
def Scaled.absorbHalves : (steps : Nat) → Scaled → Scaled
  | 0, s => s
  | steps + 1, s =>
    if s.coefficient % 2 = 0 then
      absorbHalves steps ⟨s.coefficient / 2, s.exponent + 1⟩
    else if s.coefficient * 5 < coefficientBound then
      absorbHalves steps ⟨s.coefficient * 5, s.exponent⟩
    else absorbHalves steps ⟨s.coefficient / 2, s.exponent + 1⟩

/-- Divides by `steps` fives: a coefficient with a free top bit is doubled and gives up a ten, any
other is divided. There is no result when twice the power of ten is more than the fives left. -/
def Scaled.absorbFives? : (steps : Nat) → Scaled → Option Scaled
  | 0, s => some s
  | steps + 1, s =>
    if s.coefficient < 39614081257132168796771975168 then absorbFives? steps ⟨2 * s.coefficient, s.exponent - 1⟩
    else if (steps : Int) + 1 < 2 * s.exponent then none
    else absorbFives? steps ⟨s.coefficient / 5, s.exponent⟩

/-- Multiplies by `steps` tens, as long as the coefficient fits. -/
def Scaled.absorbTens? : (steps : Nat) → Scaled → Option Scaled
  | 0, s => some s
  | steps + 1, s =>
    if s.coefficient * 10 < coefficientBound then
      absorbTens? steps ⟨s.coefficient * 10, s.exponent - 1⟩
    else none

/-- Drops the last digit, half up. -/
def Scaled.dropDigit (s : Scaled) : Scaled :=
  ⟨s.coefficient / 10 + (if 5 ≤ s.coefficient % 10 then 1 else 0), s.exponent + 1⟩

/-- Drops digits until there are at most 28 decimal places. -/
def Scaled.fitScale : (steps : Nat) → Scaled → Scaled
  | 0, s => s
  | steps + 1, s =>
    if s.exponent < -28 then
      if s.coefficient / 10 = 0 then ⟨0, 0⟩ else fitScale steps s.dropDigit
    else s

/-- Drops decimal places while the coefficient is `2 ^ 52` or more. -/
def Scaled.fitPrecision : (steps : Nat) → Scaled → Scaled
  | 0, s => s
  | steps + 1, s =>
    if s.exponent < 0 ∧ 4503599627370496 ≤ s.coefficient then fitPrecision steps s.dropDigit else s

/-- The decimal for a scaled coefficient without powers of ten above one. -/
def Scaled.toDecimal? (s : Scaled) (negative : Bool) : Option Decimal :=
  let stripped := stripZeros (-s.exponent).toNat s.coefficient
  ofParts? negative stripped.1 stripped.2

/-- The decimal for a 64-bit number, if the number is finite and fits. A zero keeps its sign. -/
def ofFloat? (x : Float) : Option Decimal :=
  match Binary64.shape x with
  | .finite negative significand exponent =>
    if significand = 0 then ofParts? negative 0 0
    else do
      let start : Scaled := ⟨significand, exponent⟩
      let decimal ← Scaled.absorbFives? exponent.toNat (start.absorbHalves (-exponent).toNat)
      let whole ← decimal.absorbTens? decimal.exponent.toNat
      let fitted := whole.fitScale (-whole.exponent).toNat
      (fitted.fitPrecision (-fitted.exponent).toNat).toDecimal? negative
  | _ => none

end RecordQuery.Decimal
