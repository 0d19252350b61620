import RecordQuery.Number.Rounding
import RecordQuery.Number.Digits
import RecordQuery.Number.Powers
/-!
# Numbers of the 64-bit binary format

The engine keeps the numbers that leave the decimal range as `Float`. Everything it needs to know of
one is read off its bits in exact integer arithmetic:

* `shape` : the significand and exponent, or which special value it is;
* `orderKey` : an integer that orders the numbers as their values do, with the two zeros together
  and no key for a value that is not a number;
* `ofRatio`, `ofDecimal` : the number nearest to an exact value, ties to the even significand.
-/

namespace RecordQuery.Binary64

/-- The parts of a number. A finite one is `significand * 2 ^ exponent` with its sign. -/
inductive Shape where
  | nan
  | infinite (negative : Bool)
  | finite (negative : Bool) (significand : Nat) (exponent : Int)
deriving DecidableEq, Repr

/-- The weight of the sign bit, `2 ^ 63`. -/
def signBit : Nat :=
  9223372036854775808

/-- The weight of the bit that a significand has above its stored bits, `2 ^ 52`. -/
def hiddenBit : Nat :=
  4503599627370496

/-- The bits below the sign bit. -/
def magnitudeBits (x : Float) : Nat :=
  x.toBits.toNat % signBit

/-- `isNegative x` holds when the sign bit is set, so also for negative zero. -/
def isNegative (x : Float) : Bool :=
  signBit ≤ x.toBits.toNat

/-- The bits of infinity, above all finite magnitudes. -/
def infinityBits : Nat :=
  2047 * hiddenBit

/-- The parts of a number, read off its bits. -/
def shape (x : Float) : Shape :=
  let field : Nat := magnitudeBits x / hiddenBit
  let fraction : Nat := magnitudeBits x % hiddenBit
  if field = 2047 then
    if fraction = 0 then .infinite (isNegative x) else .nan
  else if field = 0 then .finite (isNegative x) fraction (-1074)
  else .finite (isNegative x) (fraction + hiddenBit) ((field : Int) - 1075)

/-- `isFinite x` holds for every number but the infinities and what is not a number. -/
def isFinite (x : Float) : Bool :=
  magnitudeBits x < infinityBits

/-- `isInfinite x` holds for the two infinities. -/
def isInfinite (x : Float) : Bool :=
  magnitudeBits x == infinityBits

/-- `isZero x` holds for the two zeros. -/
def isZero (x : Float) : Bool :=
  magnitudeBits x == 0

/-! ## Order -/

/-- The place of a number in the order of values: larger values have larger keys and equal values,
such as the two zeros, have equal keys. What is not a number has no place. -/
def orderKey (x : Float) : Option Int :=
  if infinityBits < magnitudeBits x then none
  else if isNegative x then some (-(magnitudeBits x : Int))
  else some (magnitudeBits x)

/-- Compares two numbers by value; there is no answer when one of them is not a number. -/
def compare? (x y : Float) : Option Ordering :=
  match orderKey x, orderKey y with
  | some a, some b => some (compare a b)
  | _, _ => none

/-- `sameValue x y` holds when both are numbers and have one value. -/
def sameValue (x y : Float) : Bool :=
  compare? x y == some .eq

/-! ## The nearest number to an exact value -/

/-- The number with the given sign and the given bits below it. -/
def ofMagnitude (negative : Bool) (bits : Nat) : Float :=
  Float.ofBits (UInt64.ofNat ((if negative then signBit else 0) + bits))

/-- Zero with a sign. -/
def zero (negative : Bool) : Float :=
  ofMagnitude negative 0

/-- Infinity with a sign. -/
def infinity (negative : Bool) : Float :=
  ofMagnitude negative infinityBits

/-- The ratio `num / den / 2 ^ exponent`, as a ratio of natural numbers. -/
def unscale (num den : Nat) (exponent : Int) : Nat × Nat :=
  if 0 ≤ exponent then (num, den * twoPow exponent.toNat) else (num * twoPow (-exponent).toNat, den)

/-- The exponent of the last binary place that a number near `num / den` has: with it the ratio is
below `2 ^ 53`, and at least `2 ^ 52` unless the smallest exponent is reached. -/
def unitExponent (num den : Nat) : Int :=
  let low := max (-1074) ((num.log2 : Int) - den.log2 - 53)
  let (n, d) := unscale num den low
  if n < 2 * hiddenBit * d then low else low + 1

/-- The bits of the number nearest to `num / den`. The carry of a significand that rounds up to
`2 ^ 53` lands in the exponent, and what is past the largest number is infinity. -/
def nearestMagnitude (num den : Nat) : Nat :=
  let exponent := unitExponent num den
  let (n, d) := unscale num den exponent
  min infinityBits ((exponent + 1074).toNat * hiddenBit + roundQuotient .even n d)

/-- The number nearest to `num / den`, with a sign. -/
def ofRatio (negative : Bool) (num den : Nat) : Float :=
  if num = 0 then zero negative else ofMagnitude negative (nearestMagnitude num den)

/-- The number nearest to an integer. -/
def ofInt (n : Int) : Float :=
  ofRatio (n < 0) n.natAbs 1

/-- The number nearest to `digits * 10 ^ exponent`. A value of at least `10 ^ 309` is infinite and
one below `10 ^ -324` is zero, whatever its digits are, so no power outside these bounds is ever
computed. -/
def ofDecimal (negative : Bool) (digits : Nat) (exponent : Int) : Float :=
  let places := (Digits.count digits : Int) + exponent
  if digits = 0 then zero negative
  else if 310 ≤ places then infinity negative
  else if places ≤ -324 then zero negative
  else if 0 ≤ exponent then ofRatio negative (digits * tenPow exponent.toNat) 1
  else ofRatio negative digits (tenPow (-exponent).toNat)

end RecordQuery.Binary64
