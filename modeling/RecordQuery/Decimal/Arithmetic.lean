import RecordQuery.Decimal.Basic
/-!
# Exact arithmetic on decimals

Every operation computes its exact value as a ratio of natural numbers and then asks `nearest?` for
the decimal of it: the one with the most decimal places whose coefficient still fits, rounded once,
a tie to the even coefficient. There is no result when not even the whole part fits.
-/

namespace RecordQuery.Decimal

/-- The decimal nearest to `num / den` with at most `places` decimal places, and as many of them as
fit. -/
def nearest? (negative : Bool) (num den : Nat) : (places : Nat) → Option Decimal
  | 0 => ofParts? negative (roundQuotient .even num den) 0
  | places + 1 =>
    match ofParts? negative (roundQuotient .even (num * tenPow (places + 1)) den) (places + 1) with
    | some d => some d
    | none => nearest? negative num den places

/-- The opposite decimal; zero has no opposite sign. -/
def negate (d : Decimal) : Decimal :=
  { d with negative := !d.negative && !d.isZero }

/-- The sum. A zero leaves the other operand as it is, with its scale. -/
def add? (a b : Decimal) : Option Decimal :=
  if a.isZero then some b
  else if b.isZero then some a
  else
    let places := max a.scale b.scale
    let sum := a.signed * tenPow (places - a.scale) + b.signed * tenPow (places - b.scale)
    nearest? (sum < 0) sum.natAbs (tenPow places) places

/-- The difference. -/
def sub? (a b : Decimal) : Option Decimal :=
  a.add? b.negate

/-- The product. -/
def mul? (a b : Decimal) : Option Decimal :=
  if a.isZero || b.isZero then some zero
  else
    let places := a.scale + b.scale
    nearest? (a.negative != b.negative) (a.coefficient * b.coefficient) (tenPow places)
      (min maxScale places)

/-- The quotient with all the decimal places that fit; there is none by zero. -/
def div? (a b : Decimal) : Option Decimal :=
  if b.isZero then none
  else
    nearest? (a.negative != b.negative) (a.coefficient * tenPow b.scale)
      (b.coefficient * tenPow a.scale) maxScale

end RecordQuery.Decimal
