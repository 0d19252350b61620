import RecordQuery.Proofs.Arithmetic.Whole
import RecordQuery.Proofs.Binary64.Accuracy
import RecordQuery.Proofs.Value.Keys
/-!
# Integer arithmetic past 64 bits

A sum, a difference or a product of two integers is an integer where 64 bits hold it and a decimal where 96
bits do, as it is for all whole numbers. Only products are larger than that, and these are left to the binary
format. They have at most 127 binary digits, so none is infinite, and rounding takes one part in `2 ^ 51` off them
at most, which does not bring one back below the ceiling of the decimal range. So there is a result in every
case, and none has wrapped around (`integer_arithmetic_never_wraps`).
-/

namespace RecordQuery

/-! ## Above the decimal range -/

/-- The ceiling of the decimal range is a number of the format, the one nearest to `79 * 10 ^ 27`. -/
theorem Literal.magnitudeBits_decimalCeiling :
    Binary64.magnitudeBits decimalCeiling = Binary64.nearestMagnitude (79 * 10 ^ 27) 1 := by
  decide

/-- A value from the ceiling on is not held as a decimal. -/
theorem Literal.exceedsDecimal_of_toRat? {x : Float} {r : ℚ} (hx : Binary64.toRat? x = some r)
    (hr : 79 * 10 ^ 27 ≤ |r|) : exceedsDecimal x = true := by
  have hne : r ≠ 0 := by
    rintro rfl
    norm_num at hr
  have hpos : 0 < 79 * 10 ^ 27 := by decide
  obtain ⟨bits, hnearest, hceiling⟩ := Binary64.exists_nearest hpos Nat.one_pos
  have hle : bits ≤ Binary64.magnitudeBits x := by
    refine hnearest.le (Binary64.nearest_of_toRat? hx hne) (by positivity) ?_
    rw [Nat.cast_one, div_one]
    exact_mod_cast hr
  rw [exceedsDecimal, Bool.or_eq_true, decide_eq_true_eq, magnitudeBits_decimalCeiling, hceiling]
  exact .inl ((Nat.min_le_right _ _).trans hle)

theorem Value.ofFloat_of_toRat? {x : Float} {r : ℚ} (hx : Binary64.toRat? x = some r)
    (hr : 79 * 10 ^ 27 ≤ |r|) : ofFloat x = .float x := by
  rw [ofFloat, Binary64.isFinite_of_toRat? hx, if_neg (by decide),
    if_pos (Literal.exceedsDecimal_of_toRat? hx hr)]

/-- A product above the decimal range is a binary number. -/
theorem floatArithmetic_multiply {x y : Float} {r : ℚ} (h : Binary64.toRat? (x * y) = some r)
    (hr : 79 * 10 ^ 27 ≤ |r|) : floatArithmetic .multiply x y = .ok (.float (x * y)) := by
  unfold floatArithmetic
  simp only [reduceCtorEq, false_and, if_false, Binary64.isFinite_of_toRat? h, if_true,
    Value.ofFloat_of_toRat? h hr]

/-! ## The three forms -/

section

variable {k : Int} {v : Value}

theorem Decimal.toRat_of_ofWhole? {d : Decimal} (h : ofWhole? k = some d) : d.toRat = k := by
  obtain ⟨-, -, hscale⟩ := ofWhole?_eq_some.mp h
  rw [toRat, signed_of_ofWhole? h, hscale, tenPow_zero, Nat.cast_one, div_one]

theorem Value.eq_integer_of_ofWhole? {n : Int64} (h : ofWhole? k = some v) (hn : n.toInt = k) :
    v = .integer n := by
  rw [← hn, ofWhole?_toInt] at h
  exact (Option.some.inj h).symm

theorem Value.eq_decimal_of_ofWhole? (h : ofWhole? k = some v) (hk : ∀ n : Int64, n.toInt ≠ k) :
    ∃ d, v = .decimal d ∧ d.toRat = k := by
  obtain ⟨i, hi, -⟩ | ⟨d, -, hd, rfl⟩ := cases_of_ofWhole? h
  · exact absurd (toInt_of_integer64? hi) (hk i)
  · exact ⟨d, rfl, Decimal.toRat_of_ofWhole? hd⟩

/-- What 96 bits do not hold has neither of the two exact forms. -/
theorem Value.ofWhole?_eq_none (h : Decimal.coefficientBound ≤ k.natAbs) : ofWhole? k = none := by
  cases hv : ofWhole? k with
  | none => rfl
  | some v =>
      obtain ⟨d, hd⟩ := exists_decimal_of_ofWhole? hv
      have hlt := d.coefficient_lt
      rw [(Decimal.ofWhole?_eq_some.mp hd).2.1] at hlt
      omega

end

/-! ## Operators on integers -/

theorem natAbs_toInt_le (n : Int64) : n.toInt.natAbs ≤ 2 ^ 63 := by
  have hlow := n.le_toInt
  have hhigh := n.toInt_lt
  omega

/-- Only a product of integers is too large for 96 bits. -/
theorem eq_multiply_of_wholeResult? {op : ArithOp} {x y : Int64} {k : Int}
    (hk : wholeResult? op x.toInt y.toInt = some k) (hlarge : Decimal.coefficientBound ≤ k.natAbs) :
    op = .multiply := by
  have hx := natAbs_toInt_le x
  have hy := natAbs_toInt_le y
  unfold Decimal.coefficientBound at hlarge
  cases op with
  | add =>
      obtain rfl := Option.some.inj hk
      omega
  | subtract =>
      obtain rfl := Option.some.inj hk
      omega
  | multiply => rfl
  | divide => cases hk

theorem abs_toInt_bounds {n : Int64} (hn : n.toInt ≠ 0) :
    1 ≤ |(n.toInt : ℚ)| ∧ |(n.toInt : ℚ)| ≤ 2 ^ 63 := by
  have hhigh := natAbs_toInt_le n
  have hlow : 1 ≤ n.toInt.natAbs := Int.natAbs_pos.mpr hn
  rw [← Int.cast_abs, Int.abs_eq_natAbs, Int.cast_natCast]
  exact ⟨by exact_mod_cast hlow, by exact_mod_cast hhigh⟩

/-- A product that is too large for 96 bits is a binary number near to it. -/
theorem exists_floatArithmetic_product {x y : Int64}
    (hlarge : Decimal.coefficientBound ≤ (x.toInt * y.toInt).natAbs) :
    ∃ z r, floatArithmetic .multiply (Decimal.ofInt64 x).toFloat (Decimal.ofInt64 y).toFloat = .ok (.float z) ∧
      Binary64.toRat? z = some r ∧
        |r - (x.toInt * y.toInt : Int)| ≤ |((x.toInt * y.toInt : Int) : ℚ)| / 2 ^ 51 := by
  have hfloat : ∀ n : Int64, (Decimal.ofInt64 n).toFloat = Binary64.ofInt n.toInt := fun n => by
    rw [Decimal.toFloat, if_pos (show (Decimal.ofInt64 n).scale = 0 from rfl), Decimal.signed_ofInt64]
  have hx : x.toInt ≠ 0 := by
    intro hzero
    rw [hzero, Int.zero_mul] at hlarge
    exact absurd hlarge (by decide)
  have hy : y.toInt ≠ 0 := by
    intro hzero
    rw [hzero, Int.mul_zero] at hlarge
    exact absurd hlarge (by decide)
  obtain ⟨hxlow, hxhigh⟩ := abs_toInt_bounds hx
  obtain ⟨hylow, hyhigh⟩ := abs_toInt_bounds hy
  obtain ⟨r, hr, herror⟩ := Binary64.exists_toRat?_mul_ofInt hxlow hxhigh hylow hyhigh
  have hexact : 2 ^ 96 ≤ |(x.toInt * y.toInt : ℚ)| := by
    rw [← Int.cast_mul, ← Int.cast_abs, Int.abs_eq_natAbs, Int.cast_natCast]
    exact_mod_cast hlarge
  rw [hfloat, hfloat]
  push_cast
  refine ⟨_, r, floatArithmetic_multiply hr ?_, hr, herror⟩
  rw [div_eq_mul_inv] at herror
  have hnear := Binary64.le_abs_of_abs_sub_le herror
  linarith

/-- **Integer arithmetic never wraps.** A sum, a difference and a product of two integers has a result, which
is what the integers give: as an integer where 64 bits hold it, and else as a decimal of exactly that value
where 96 bits do. Past these, where only products are, it is a finite binary number within one part in `2 ^ 51` of
the exact product. -/
theorem integer_arithmetic_never_wraps {op : ArithOp} (hop : op ≠ .divide) (x y : Int64) :
    ∃ k v, wholeResult? op x.toInt y.toInt = some k ∧
      arithmetic op (.integer x) (.integer y) = .ok v ∧
      (∀ n : Int64, n.toInt = k → v = .integer n) ∧
      ((∀ n : Int64, n.toInt ≠ k) → k.natAbs < 2 ^ 96 → ∃ d, v = .decimal d ∧ d.toRat = k) ∧
      (2 ^ 96 ≤ k.natAbs → op = .multiply ∧
        ∃ z r, v = .float z ∧ Binary64.toRat? z = some r ∧ |r - k| ≤ |(k : ℚ)| / 2 ^ 51) := by
  obtain ⟨k, hk⟩ : ∃ k, wholeResult? op x.toInt y.toInt = some k := by
    cases op with
    | divide => exact absurd rfl hop
    | _ => exact ⟨_, rfl⟩
  have hbound : Decimal.coefficientBound = 2 ^ 96 := rfl
  have hx := Value.ofWhole?_toInt x
  have hy := Value.ofWhole?_toInt y
  by_cases hfits : k.natAbs < 2 ^ 96
  · obtain ⟨v, hv⟩ := Value.exists_ofWhole? (hbound ▸ hfits)
    refine ⟨k, v, hk, arithmetic_whole hk hx hy hv, fun n hn => Value.eq_integer_of_ofWhole? hv hn,
      fun hnone _ => Value.eq_decimal_of_ofWhole? hv hnone, fun hlarge => ?_⟩
    omega
  · have hlarge : Decimal.coefficientBound ≤ k.natAbs := hbound ▸ Nat.le_of_not_lt hfits
    obtain rfl := eq_multiply_of_wholeResult? hk hlarge
    have hproduct : k = x.toInt * y.toInt := (Option.some.inj hk).symm
    obtain ⟨z, r, hz, hr, herror⟩ := exists_floatArithmetic_product (hproduct ▸ hlarge)
    refine ⟨k, .float z, hk, ?_, fun n hn => ?_, fun _ hsmall => absurd hsmall hfits,
      fun _ => ⟨rfl, z, r, rfl, hr, hproduct ▸ herror⟩⟩
    · rw [arithmetic_of_toFloat? rfl rfl, numberArithmetic, if_neg fun h => hop h.1,
        exactArithmetic?_whole hk hx hy, Value.ofWhole?_eq_none hlarge]
      exact hz
    · have hn' := natAbs_toInt_le n
      omega

/-- A product that just fits, a sum and a product that are one too large, and the largest product. -/
theorem integer_arithmetic_never_wraps_at_limits :
    ArithOp.add ≠ .divide ∧ ArithOp.multiply ≠ .divide ∧
      arithmetic .multiply (.integer 3037000499) (.integer (-3037000499)) =
        .ok (.integer (-9223372030926249001)) ∧
      (∃ d, arithmetic .add (.integer Int64.maxValue) (.integer 1) = .ok (.decimal d) ∧ d.toRat = 2 ^ 63) ∧
      (∃ d, arithmetic .multiply (.integer Int64.minValue) (.integer (-1)) = .ok (.decimal d) ∧
        d.toRat = 2 ^ 63) ∧
      ∃ z r, arithmetic .multiply (.integer Int64.minValue) (.integer Int64.minValue) = .ok (.float z) ∧
        Binary64.toRat? z = some r ∧ |r - 2 ^ 126| ≤ 2 ^ 75 := by
  have hadd : ArithOp.add ≠ .divide := by decide
  have hmultiply : ArithOp.multiply ≠ .divide := by decide
  have hnone : ∀ n : Int64, n.toInt ≠ 9223372036854775808 := fun n => by
    have hhigh := n.toInt_lt
    omega
  refine ⟨hadd, hmultiply, ?_, ?_, ?_, ?_⟩
  · obtain ⟨k, v, hk, hv, hinteger, -⟩ :=
      integer_arithmetic_never_wraps hmultiply 3037000499 (-3037000499)
    obtain rfl := Option.some.inj hk
    have hfits : (-9223372030926249001 : Int64).toInt =
        (3037000499 : Int64).toInt * (-3037000499 : Int64).toInt := by decide
    rw [hv, hinteger _ hfits]
  · obtain ⟨k, v, hk, hv, -, hdecimal, -⟩ := integer_arithmetic_never_wraps hadd Int64.maxValue 1
    obtain rfl : k = 9223372036854775808 := (Option.some.inj hk).symm
    obtain ⟨d, rfl, hd⟩ := hdecimal hnone (by decide)
    exact ⟨d, hv, hd.trans (by norm_num)⟩
  · obtain ⟨k, v, hk, hv, -, hdecimal, -⟩ := integer_arithmetic_never_wraps hmultiply Int64.minValue (-1)
    obtain rfl : k = 9223372036854775808 := (Option.some.inj hk).symm
    obtain ⟨d, rfl, hd⟩ := hdecimal hnone (by decide)
    exact ⟨d, hv, hd.trans (by norm_num)⟩
  · obtain ⟨k, v, hk, hv, -, -, hfloat⟩ :=
      integer_arithmetic_never_wraps hmultiply Int64.minValue Int64.minValue
    obtain rfl : k = 85070591730234615865843651857942052864 := (Option.some.inj hk).symm
    obtain ⟨-, z, r, rfl, hr, herror⟩ := hfloat (by decide)
    refine ⟨z, r, hv, hr, ?_⟩
    norm_num at herror ⊢
    exact herror

end RecordQuery
