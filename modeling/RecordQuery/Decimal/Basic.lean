import RecordQuery.Number.Rounding
import RecordQuery.Number.Digits
import RecordQuery.Number.Integer
import RecordQuery.Number.Powers
/-!
# Decimal numbers

A decimal is a sign, a coefficient below `2 ^ 96` and a scale of at most 28: it stands for
`± coefficient / 10 ^ scale`. The scale is kept as written, so `1.5` and `1.50` are two decimals of
one value. Both bounds are part of the type.

`compare` and `sameValue` look at values; `=` looks at the three parts.
-/

namespace RecordQuery

/-- The bound on coefficients, `2 ^ 96`. -/
abbrev Decimal.coefficientBound : Nat :=
  79228162514264337593543950336

/-- A decimal number with its scale. -/
structure Decimal where
  negative : Bool
  coefficient : Nat
  scale : Nat
  coefficient_lt : coefficient < Decimal.coefficientBound
  scale_le : scale ≤ 28
deriving DecidableEq, Repr

namespace Decimal

/-- The largest scale a decimal has. -/
def maxScale : Nat := 28

/-- The decimal with the given parts, if they are in bounds. -/
def ofParts? (negative : Bool) (coefficient scale : Nat) : Option Decimal :=
  if h : coefficient < coefficientBound ∧ scale ≤ 28 then some ⟨negative, coefficient, scale, h.1, h.2⟩
  else none

/-- Zero, without sign and without decimal places. -/
def zero : Decimal :=
  ⟨false, 0, 0, by decide, by decide⟩

/-- A 64-bit integer as a decimal. -/
def ofInt64 (n : Int64) : Decimal where
  negative := n.toInt < 0
  coefficient := n.toInt.natAbs
  scale := 0
  coefficient_lt := by
    have := n.le_toInt
    have := n.toInt_lt
    simp only [coefficientBound]
    omega
  scale_le := by decide

/-- The coefficient with its sign. -/
def signed (d : Decimal) : Int :=
  if d.negative then -(d.coefficient : Int) else d.coefficient

/-- `d.isZero` holds when the value is zero, whatever sign and scale. -/
def isZero (d : Decimal) : Bool :=
  d.coefficient == 0

/-! ## Order -/

/-- Compares two decimals by value. -/
def compare (a b : Decimal) : Ordering :=
  Ord.compare (a.signed * tenPow b.scale) (b.signed * tenPow a.scale)

/-- `a.sameValue b` holds when the two decimals have one value. -/
def sameValue (a b : Decimal) : Bool :=
  a.compare b == .eq

/-! ## Whole numbers -/

/-- The integer between zero and the decimal that is nearest to it. -/
def truncate (d : Decimal) : Int :=
  let whole := d.coefficient / tenPow d.scale
  if d.negative then -(whole : Int) else whole

/-- `d.isInteger` holds when there is no fraction. -/
def isInteger (d : Decimal) : Bool :=
  d.coefficient % tenPow d.scale == 0

/-- The decimal without its fraction, if that is a 64-bit integer. -/
def toInt64? (d : Decimal) : Option Int64 :=
  integer64? d.truncate

/-! ## Sign and scale -/

/-- The decimal without its sign. -/
def abs (d : Decimal) : Decimal :=
  { d with negative := false }

/-- Takes the zeros at the end off the decimal places. -/
def stripZeros : (scale coefficient : Nat) → Nat × Nat
  | 0, coefficient => (coefficient, 0)
  | scale + 1, coefficient =>
    if coefficient % 10 = 0 then stripZeros scale (coefficient / 10) else (coefficient, scale + 1)

theorem stripZeros_le (scale coefficient : Nat) :
    (stripZeros scale coefficient).1 ≤ coefficient ∧ (stripZeros scale coefficient).2 ≤ scale := by
  induction scale generalizing coefficient with
  | zero => simp [stripZeros]
  | succ scale ih =>
    simp only [stripZeros]
    split
    · have := ih (coefficient / 10)
      have := Nat.div_le_self coefficient 10
      omega
    · simp

/-- The decimal of the same value with the smallest scale; zero loses its sign. -/
def normalize (d : Decimal) : Decimal where
  negative := d.negative && !d.isZero
  coefficient := (stripZeros d.scale d.coefficient).1
  scale := (stripZeros d.scale d.coefficient).2
  coefficient_lt := Nat.lt_of_le_of_lt (stripZeros_le _ _).1 d.coefficient_lt
  scale_le := Nat.le_trans (stripZeros_le _ _).2 d.scale_le

/-- Dropping at least one place leaves room for a carry. -/
theorem shorten_lt {coefficient places : Nat} (h : coefficient < coefficientBound)
    (pos : 0 < places) : coefficient / tenPow places + 1 < coefficientBound := by
  have ten : 10 ≤ tenPow places := by
    obtain ⟨n, rfl⟩ := Nat.exists_eq_add_of_lt pos
    have := tenPow_pos n
    rw [Nat.zero_add, tenPow_succ]
    omega
  have : coefficient / tenPow places ≤ coefficient / 10 :=
    Nat.div_le_div_left ten (by decide)
  simp only [coefficientBound] at *
  omega

/-- A decimal with `places` fewer decimal places and the given coefficient, which is one of the two
around the exact one. A result of zero has no sign. -/
def shorten (d : Decimal) (places : Nat) (pos : 0 < places) (carry : Bool) : Decimal where
  negative := d.negative && !(d.coefficient / tenPow places == 0 && !carry)
  coefficient := d.coefficient / tenPow places + (if carry then 1 else 0)
  scale := d.scale - places
  coefficient_lt := by
    have := shorten_lt d.coefficient_lt pos
    split <;> omega
  scale_le := Nat.le_trans (Nat.sub_le _ _) d.scale_le

/-- Rounds to at most `places` decimal places, a tie away from zero. -/
def round (d : Decimal) (places : Nat) : Decimal :=
  if h : d.scale ≤ places then d
  else
    let dropped := d.scale - places
    d.shorten dropped (by omega)
      (roundQuotient .away d.coefficient (tenPow dropped) != d.coefficient / tenPow dropped)

/-- The smallest whole decimal that is not below. -/
def ceil (d : Decimal) : Decimal :=
  if h : 0 < d.scale then d.shorten d.scale h (!d.negative && !d.isInteger) else d

/-- The largest whole decimal that is not above. -/
def floor (d : Decimal) : Decimal :=
  if h : 0 < d.scale then d.shorten d.scale h (d.negative && !d.isInteger) else d

/-! ## Text -/

/-- The digits of a decimal: the whole part, and as many decimal places as the scale says. -/
def magnitudeText (d : Decimal) : List Char :=
  let whole := Digits.render (d.coefficient / tenPow d.scale)
  if d.scale = 0 then whole
  else whole ++ '.' :: Digits.padded d.scale (d.coefficient % tenPow d.scale)

/-- The text of a decimal, with all its decimal places. -/
def render (d : Decimal) : String :=
  String.ofList (if d.negative then '-' :: d.magnitudeText else d.magnitudeText)

/-- What is built from parts has these parts. -/
theorem ofParts?_eq_some {negative : Bool} {coefficient scale : Nat} {d : Decimal} :
    ofParts? negative coefficient scale = some d ↔
      d.negative = negative ∧ d.coefficient = coefficient ∧ d.scale = scale := by
  unfold ofParts?
  split
  next h =>
    cases d
    simp only [Option.some.injEq, Decimal.mk.injEq]
    grind
  next h =>
    have := d.coefficient_lt
    have := d.scale_le
    simp only [reduceCtorEq, false_iff]
    grind

end Decimal

end RecordQuery
