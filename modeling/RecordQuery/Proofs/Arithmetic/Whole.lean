import RecordQuery.Function.Arithmetic
import RecordQuery.Proofs.Value.Order
import Mathlib.Algebra.Order.Ring.Int
/-!
# Arithmetic on whole numbers

A whole number is held as an integer where 64 bits hold it and as a decimal without decimal places where
96 bits do (`Value.ofWhole?`). Which of the two an operand is does not matter: a sum, a difference or a
product of two whole numbers is the whole number that the integers give, again in the smaller of the two
forms (`arithmetic_whole`). The binary format is not asked.
-/

namespace RecordQuery

/-- What an operator gives on integers; a quotient is left out. -/
def wholeResult? : ArithOp → Int → Int → Option Int
  | .add, m, n => some (m + n)
  | .subtract, m, n => some (m - n)
  | .multiply, m, n => some (m * n)
  | .divide, _, _ => none

/-- 64 bits give the result on integers where they hold it. -/
theorem integerArithmetic?_eq (op : ArithOp) (m n : Int) :
    integerArithmetic? op m n = (wholeResult? op m n).bind integer64? := by
  cases op <;> rfl

/-! ## Whole decimals -/

namespace Decimal

/-- A whole number as a decimal without decimal places, where 96 bits hold it. -/
def ofWhole? (n : Int) : Option Decimal :=
  ofParts? (n < 0) n.natAbs 0

variable {m n : Int} {a b d : Decimal}

theorem ofWhole?_eq_some : ofWhole? n = some d ↔
    d.negative = decide (n < 0) ∧ d.coefficient = n.natAbs ∧ d.scale = 0 :=
  ofParts?_eq_some

theorem exists_ofWhole? (h : n.natAbs < coefficientBound) : ∃ d, ofWhole? n = some d := by
  rw [ofWhole?, ofParts?, dif_pos ⟨h, Nat.zero_le 28⟩]
  exact ⟨_, rfl⟩

theorem ofWhole?_toInt (i : Int64) : ofWhole? i.toInt = some (ofInt64 i) :=
  ofWhole?_eq_some.mpr ⟨rfl, rfl, rfl⟩

theorem signed_of_ofWhole? (h : ofWhole? n = some d) : d.signed = n := by
  obtain ⟨hnegative, hcoefficient, -⟩ := ofWhole?_eq_some.mp h
  rw [signed, hnegative, hcoefficient]
  simp only [decide_eq_true_eq]
  split <;> omega

theorem isZero_of_ofWhole? (h : ofWhole? n = some d) : d.isZero = decide (n = 0) := by
  obtain ⟨-, hcoefficient, -⟩ := ofWhole?_eq_some.mp h
  rw [isZero, hcoefficient, Bool.eq_iff_iff, beq_iff_eq, decide_eq_true_eq, Int.natAbs_eq_zero]

theorem ofWhole?_negate (h : ofWhole? n = some d) : ofWhole? (-n) = some d.negate := by
  have hzero := isZero_of_ofWhole? h
  obtain ⟨hnegative, hcoefficient, hscale⟩ := ofWhole?_eq_some.mp h
  refine ofWhole?_eq_some.mpr ⟨?_, ?_, hscale⟩
  · show (!d.negative && !d.isZero) = _
    rw [hnegative, hzero, ← decide_not, ← decide_not, ← Bool.decide_and]
    congr 1
    simp only [eq_iff_iff]
    omega
  · show d.coefficient = _
    omega

/-- Without decimal places there is nothing to round. -/
theorem nearest?_whole (negative : Bool) (num : Nat) :
    nearest? negative num (tenPow 0) 0 = ofParts? negative num 0 := by
  rw [nearest?, tenPow_zero, roundQuotient_of_dvd .even Nat.one_pos (Nat.mod_one num), Nat.div_one]

/-- The sum of whole decimals, where there is one, is that of the whole numbers. -/
theorem add?_whole (ha : ofWhole? m = some a) (hb : ofWhole? n = some b) :
    a.add? b = ofWhole? (m + n) := by
  obtain ⟨-, -, hascale⟩ := ofWhole?_eq_some.mp ha
  obtain ⟨-, -, hbscale⟩ := ofWhole?_eq_some.mp hb
  unfold add?
  rw [isZero_of_ofWhole? ha, isZero_of_ofWhole? hb]
  simp only [decide_eq_true_eq]
  split
  next hm => rw [hm, Int.zero_add, hb]
  next =>
    split
    next hn => rw [hn, Int.add_zero, ha]
    next =>
      rw [hascale, hbscale, signed_of_ofWhole? ha, signed_of_ofWhole? hb]
      show nearest? (m * 1 + n * 1 < 0) (m * 1 + n * 1).natAbs (tenPow 0) 0 = _
      rw [Int.mul_one, Int.mul_one, nearest?_whole, ofWhole?]

theorem sub?_whole (ha : ofWhole? m = some a) (hb : ofWhole? n = some b) :
    a.sub? b = ofWhole? (m - n) := by
  rw [sub?, add?_whole ha (ofWhole?_negate hb), Int.sub_eq_add_neg]

theorem mul?_whole (ha : ofWhole? m = some a) (hb : ofWhole? n = some b) :
    a.mul? b = ofWhole? (m * n) := by
  obtain ⟨hanegative, hacoefficient, hascale⟩ := ofWhole?_eq_some.mp ha
  obtain ⟨hbnegative, hbcoefficient, hbscale⟩ := ofWhole?_eq_some.mp hb
  unfold mul?
  rw [isZero_of_ofWhole? ha, isZero_of_ofWhole? hb, ← Bool.decide_or]
  simp only [decide_eq_true_eq]
  split
  next hzero =>
    rw [mul_eq_zero.mpr hzero]
    rfl
  next hne =>
    rw [not_or] at hne
    rw [hascale, hbscale, hanegative, hbnegative, hacoefficient, hbcoefficient]
    show nearest? _ _ (tenPow 0) 0 = _
    rw [nearest?_whole, ofWhole?, Int.natAbs_mul]
    -- neither is zero, so the product is negative when the signs differ
    have hsign : (decide (m < 0) != decide (n < 0)) = decide (m * n < 0) := by
      rw [Bool.eq_iff_iff, bne_iff_ne, ne_eq, decide_eq_decide, decide_eq_true_eq, mul_neg_iff]
      omega
    rw [hsign]

/-- A whole number that 96 bits hold is a value in the smaller form. -/
theorem isInteger_of_ofWhole? (h : ofWhole? n = some d) : d.isInteger = true := by
  obtain ⟨-, -, hscale⟩ := ofWhole?_eq_some.mp h
  rw [isInteger, hscale, tenPow_zero, Nat.mod_one]
  rfl

theorem toInt64?_of_ofWhole? (h : ofWhole? n = some d) : d.toInt64? = integer64? n := by
  obtain ⟨hnegative, hcoefficient, hscale⟩ := ofWhole?_eq_some.mp h
  rw [toInt64?, truncate, hscale, tenPow_zero, Nat.div_one, hnegative, hcoefficient]
  congr 1
  simp only [decide_eq_true_eq]
  split <;> omega

end Decimal

/-! ## Whole values -/

namespace Value

/-- A whole number as a value: an integer where 64 bits hold it, and else a decimal without decimal places
where 96 bits do. -/
def ofWhole? (n : Int) : Option Value :=
  match integer64? n with
  | some i => some (.integer i)
  | none => (Decimal.ofWhole? n).map .decimal

variable {m n : Int} {v : Value}

theorem ofWhole?_toInt (i : Int64) : ofWhole? i.toInt = some (.integer i) := by
  rw [ofWhole?, integer64?_toInt]

theorem natAbs_lt_of_integer64? {i : Int64} (h : integer64? n = some i) :
    n.natAbs < Decimal.coefficientBound := by
  have hlow := i.le_toInt
  have hhigh := i.toInt_lt
  rw [toInt_of_integer64? h] at hlow hhigh
  unfold Decimal.coefficientBound
  omega

theorem exists_ofWhole? (h : n.natAbs < Decimal.coefficientBound) : ∃ v, ofWhole? n = some v := by
  unfold ofWhole?
  split
  next i _ => exact ⟨.integer i, rfl⟩
  next =>
    obtain ⟨d, hd⟩ := Decimal.exists_ofWhole? h
    rw [hd]
    exact ⟨.decimal d, rfl⟩

/-- A whole decimal goes back to the smaller form. -/
theorem map_ofDecimal_ofWhole? (n : Int) : (Decimal.ofWhole? n).map ofDecimal = ofWhole? n := by
  cases hd : Decimal.ofWhole? n with
  | some d =>
      rw [Option.map_some, ofDecimal, if_pos (Decimal.isInteger_of_ofWhole? hd),
        Decimal.toInt64?_of_ofWhole? hd, ofWhole?, hd]
      split <;> simp_all
  | none =>
      cases hi : integer64? n with
      | some i =>
          obtain ⟨d, hsome⟩ := Decimal.exists_ofWhole? (natAbs_lt_of_integer64? hi)
          rw [hd] at hsome
          cases hsome
      | none =>
          rw [ofWhole?, hi, hd]
          rfl

/-- The two forms of a whole number. -/
theorem cases_of_ofWhole? (h : ofWhole? n = some v) :
    (∃ i, integer64? n = some i ∧ v = .integer i) ∨
      ∃ d, integer64? n = none ∧ Decimal.ofWhole? n = some d ∧ v = .decimal d := by
  unfold ofWhole? at h
  split at h
  next i hi =>
    cases h
    exact .inl ⟨i, hi, rfl⟩
  next hnone =>
    obtain ⟨d, hd, rfl⟩ := Option.map_eq_some_iff.mp h
    exact .inr ⟨d, hnone, hd, rfl⟩

theorem toInt_of_ofWhole? {i : Int64} (h : ofWhole? n = some (.integer i)) : i.toInt = n := by
  obtain ⟨j, hj, heq⟩ | ⟨d, -, -, heq⟩ := cases_of_ofWhole? h
  · cases heq
    exact toInt_of_integer64? hj
  · cases heq

/-- Either form is the same decimal. -/
theorem toDecimal?_of_ofWhole? (h : ofWhole? n = some v) : v.toDecimal? = Decimal.ofWhole? n := by
  obtain ⟨i, hi, rfl⟩ | ⟨d, -, hd, rfl⟩ := cases_of_ofWhole? h
  · rw [← toInt_of_integer64? hi, Decimal.ofWhole?_toInt]
    rfl
  · exact hd.symm

theorem exists_decimal_of_ofWhole? (h : ofWhole? n = some v) : ∃ d, Decimal.ofWhole? n = some d := by
  obtain ⟨i, hi, -⟩ | ⟨d, -, hd, -⟩ := cases_of_ofWhole? h
  · exact Decimal.exists_ofWhole? (natAbs_lt_of_integer64? hi)
  · exact ⟨d, hd⟩

theorem not_isNull_of_toFloat? {x : Float} (h : v.toFloat? = some x) : v.isNull = false := by
  cases v with
  | null => cases h
  | _ => rfl

theorem exists_toFloat?_of_ofWhole? (h : ofWhole? n = some v) : ∃ x, v.toFloat? = some x := by
  obtain ⟨i, -, rfl⟩ | ⟨d, -, -, rfl⟩ := cases_of_ofWhole? h
  · exact ⟨(Decimal.ofInt64 i).toFloat, rfl⟩
  · exact ⟨d.toFloat, rfl⟩

end Value

/-! ## Operators -/

/-- Whole decimals give a whole number. -/
theorem decimalArithmetic?_whole {op : ArithOp} {m n k : Int} {a b : Decimal}
    (hk : wholeResult? op m n = some k) (ha : Decimal.ofWhole? m = some a)
    (hb : Decimal.ofWhole? n = some b) : decimalArithmetic? op a b = Value.ofWhole? k := by
  cases op with
  | add =>
      cases hk
      rw [decimalArithmetic?, Decimal.add?_whole ha hb, Value.map_ofDecimal_ofWhole?]
  | subtract =>
      cases hk
      rw [decimalArithmetic?, Decimal.sub?_whole ha hb, Value.map_ofDecimal_ofWhole?]
  | multiply =>
      cases hk
      rw [decimalArithmetic?, Decimal.mul?_whole ha hb, Value.map_ofDecimal_ofWhole?]
  | divide => cases hk

/-- Two whole numbers in either form give the smaller form of the result, if there is one. -/
theorem exactArithmetic?_whole {op : ArithOp} {m n k : Int} {v w : Value}
    (hk : wholeResult? op m n = some k) (hv : Value.ofWhole? m = some v)
    (hw : Value.ofWhole? n = some w) : exactArithmetic? op v w = Value.ofWhole? k := by
  -- as decimals they give it in any case
  obtain ⟨a, ha⟩ := Value.exists_decimal_of_ofWhole? hv
  obtain ⟨b, hb⟩ := Value.exists_decimal_of_ofWhole? hw
  have hdecimal := decimalArithmetic?_whole hk ha hb
  unfold exactArithmetic?
  simp only [Value.toDecimal?_of_ofWhole? hv, Value.toDecimal?_of_ofWhole? hw, ha, hb, hdecimal]
  split
  next i hi =>
    split at hi
    next x y =>
      rw [Value.toInt_of_ofWhole? hv, Value.toInt_of_ofWhole? hw, integerArithmetic?_eq, hk] at hi
      rw [Value.ofWhole?, show integer64? k = some i from hi]
    next => cases hi
  next => rfl

/-- Numbers are added, subtracted, multiplied and divided as numbers. -/
theorem arithmetic_of_toFloat? {op : ArithOp} {v w : Value} {x y : Float} (hv : v.toFloat? = some x)
    (hw : w.toFloat? = some y) : arithmetic op v w = numberArithmetic op v w x y := by
  have hnull : (v.isNull || w.isNull) = false := by
    rw [Value.not_isNull_of_toFloat? hv, Value.not_isNull_of_toFloat? hw, Bool.or_false]
  unfold arithmetic
  rw [if_neg (by rw [hnull]; exact Bool.false_ne_true)]
  split
  next => cases hv
  next => rw [hv, hw]

/-- **Whole numbers stay whole.** A sum, a difference or a product of whole numbers in either form is the
whole number that the integers give, where 96 bits hold it. -/
theorem arithmetic_whole {op : ArithOp} {m n k : Int} {v w s : Value} (hk : wholeResult? op m n = some k)
    (hv : Value.ofWhole? m = some v) (hw : Value.ofWhole? n = some w) (hs : Value.ofWhole? k = some s) :
    arithmetic op v w = .ok s := by
  have hdivide : op ≠ .divide := by
    rintro rfl
    cases hk
  obtain ⟨x, hx⟩ := Value.exists_toFloat?_of_ofWhole? hv
  obtain ⟨y, hy⟩ := Value.exists_toFloat?_of_ofWhole? hw
  rw [arithmetic_of_toFloat? hx hy, numberArithmetic, if_neg fun h => hdivide h.1,
    exactArithmetic?_whole hk hv hw, hs]

end RecordQuery
