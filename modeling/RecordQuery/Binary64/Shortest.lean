import RecordQuery.Binary64.Basic
/-!
# The fewest digits that read back

`shortest` finds the decimal text of a number: of the decimals that round to it, one with the fewest
digits, and of those the one nearest to it. The decimals that round to a number fill an interval
around it, whose ends belong to it exactly when the significand is even. For each digit count the
two decimals on either side of the number are tried; the first count with a hit wins.
-/

namespace RecordQuery.Binary64

/-- A decimal `digits * 10 ^ exponent`. -/
structure Decimals where
  digits : Nat
  exponent : Int
deriving DecidableEq, Repr

/-- An interval of exact values around a number, all over one denominator. -/
structure Interval where
  low : Nat
  center : Nat
  high : Nat
  denominator : Nat
  closed : Bool

/-- The values that round to `significand * 2 ^ exponent`. The lower half is the shorter one below a
power of two, where the numbers lie twice as dense. -/
def interval (significand : Nat) (exponent : Int) : Interval :=
  let below := if significand = hiddenBit ∧ -1074 < exponent then 1 else 2
  let unit := exponent - 2
  let factor := if 0 ≤ unit then twoPow unit.toNat else 1
  { low := (4 * significand - below) * factor
    center := 4 * significand * factor
    high := (4 * significand + 2) * factor
    denominator := if 0 ≤ unit then 1 else twoPow (-unit).toNat
    closed := significand % 2 = 0 }

/-- The interval with its values divided by `10 ^ exponent`. -/
def Interval.rescale (i : Interval) (exponent : Int) : Interval :=
  if 0 ≤ exponent then { i with denominator := i.denominator * tenPow exponent.toNat }
  else
    let factor := tenPow (-exponent).toNat
    { i with low := i.low * factor, center := i.center * factor, high := i.high * factor }

/-- `i.holds n` holds when the integer `n` is in the interval. -/
def Interval.holds (i : Interval) (n : Nat) : Bool :=
  let scaled := n * i.denominator
  if i.closed then i.low ≤ scaled && scaled ≤ i.high else i.low < scaled && scaled < i.high

/-- The integer next to the center that is in the interval, the nearer one if both are; a tie goes
up. -/
def Interval.nearestInteger? (i : Interval) : Option Nat :=
  let below := i.center / i.denominator
  let nearerBelow := 2 * (i.center % i.denominator) < i.denominator
  match i.holds below, i.holds (below + 1) with
  | true, true => some (if nearerBelow then below else below + 1)
  | true, false => some below
  | false, true => some (below + 1)
  | false, false => none

/-- Counts up from `exponent` while ten times the power is still not above `num / den`. -/
def raiseExponent (num den : Nat) : Nat → Int → Int
  | 0, exponent => exponent
  | steps + 1, exponent =>
    let next := exponent + 1
    let reached :=
      if 0 ≤ next then den * tenPow next.toNat ≤ num else den ≤ num * tenPow (-next).toNat
    if reached then raiseExponent num den steps next else exponent

/-- The exponent of the leading decimal digit of `num / den`. The binary logarithms bound it from
below to within two. -/
def leadingExponent (num den : Nat) : Int :=
  let guess := ((num.log2 : Int) - den.log2 - 1) * 30103 / 100000 - 1
  raiseExponent num den 4 guess

/-- Tries the digit counts from `count` on. -/
def searchDigits (i : Interval) (leading : Int) : Nat → Nat → Decimals
  | 0, _ => ⟨0, 0⟩
  | tries + 1, count =>
    let exponent := leading - (count : Int) + 1
    match (i.rescale exponent).nearestInteger? with
    | some digits => ⟨digits, exponent⟩
    | none => searchDigits i leading tries (count + 1)

/-- Moves zeros at the end of the digits into the exponent. -/
def Decimals.strip (d : Decimals) : Nat → Decimals
  | 0 => d
  | steps + 1 =>
    if d.digits ≠ 0 ∧ d.digits % 10 = 0 then
      Decimals.strip ⟨d.digits / 10, d.exponent + 1⟩ steps
    else d

/-- The shortest decimal that reads back as `significand * 2 ^ exponent`; seventeen digits always
suffice. -/
def shortest (significand : Nat) (exponent : Int) : Decimals :=
  let i := interval significand exponent
  (searchDigits i (leadingExponent i.center i.denominator) 17 1).strip 20

end RecordQuery.Binary64
