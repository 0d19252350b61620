import RecordQuery.Decimal.Binary
import RecordQuery.Proofs.Literal.Binary
/-!
# Whole numbers in the binary format

A whole number with `53 + k` binary digits loses the last `k` of them: it is rounded to a multiple of
`2 ^ k` (`wholeNearest`), which is what the nearest number of the format stands for. Coming back, such a
number is a decimal without places and has the same value, because the twos of its exponent all fit the
coefficient (`Decimal.ofFloat?_ofRatio`). So it comes back as it was exactly when `2 ^ k` divides it.
-/

namespace RecordQuery

/-! ## Multiples -/

/-- The multiple of `unit` that is nearest to a number, and of two the one with an even quotient. -/
def wholeNearest (num unit : Nat) : Nat :=
  roundQuotient .even num unit * unit

theorem wholeNearest_eq_iff {num unit : Nat} (hunit : 0 < unit) :
    wholeNearest num unit = num ↔ unit ∣ num := by
  constructor
  · intro h
    exact ⟨roundQuotient .even num unit, by rw [Nat.mul_comm]; exact h.symm⟩
  · intro h
    rw [wholeNearest, roundQuotient_of_dvd .even hunit (Nat.mod_eq_zero_of_dvd h),
      Nat.div_mul_cancel h]

/-- Rounding leaves the bounds that are multiples themselves. -/
theorem roundQuotient_le {num unit bound : Nat} (hunit : 0 < unit) (h : num ≤ bound * unit) :
    roundQuotient .even num unit ≤ bound := by
  by_cases hdvd : unit ∣ num
  · rw [roundQuotient_of_dvd .even hunit (Nat.mod_eq_zero_of_dvd hdvd)]
    exact Nat.div_le_of_le_mul (by rw [Nat.mul_comm]; exact h)
  · have hne : num ≠ bound * unit := by
      rintro rfl
      exact hdvd (Nat.dvd_mul_left unit bound)
    have hdiv : num / unit < bound := (Nat.div_lt_iff_lt_mul hunit).mpr (by omega)
    rcases roundQuotient_mem .even num unit with heq | heq <;> omega

theorem le_roundQuotient {num unit bound : Nat} (hunit : 0 < unit) (h : bound * unit ≤ num) :
    bound ≤ roundQuotient .even num unit := by
  have hdiv : bound ≤ num / unit := (Nat.le_div_iff_mul_le hunit).mpr h
  rcases roundQuotient_mem .even num unit with heq | heq <;> omega

/-! ## In the format -/

namespace Binary64

/-- `num.HasBits k`: a number has `53 + k` binary digits. -/
structure HasBits (num k : Nat) : Prop where
  low : hiddenBit * twoPow k ≤ num
  high : num < 2 * hiddenBit * twoPow k

namespace HasBits

variable {num k : Nat}

theorem pos (h : HasBits num k) : 0 < num :=
  Nat.lt_of_lt_of_le (Nat.mul_pos (by decide) (twoPow_pos k)) h.low

theorem nearest (h : HasBits num k) :
    Nearest num ((k + 1074) * hiddenBit + roundQuotient .even num (twoPow k)) := by
  have hpow : (0 : ℚ) < twoPow k := by exact_mod_cast twoPow_pos k
  have hzpow : (2 : ℚ) ^ (k : Int) = twoPow k := by
    rw [zpow_natCast, twoPow_eq]
    push_cast
    rfl
  refine ⟨k, _, ⟨by omega, ?_, .inr ?_⟩, ?_, rfl⟩
  · rw [hzpow, div_lt_iff₀ hpow]
    exact_mod_cast h.high
  · rw [hzpow, le_div_iff₀ hpow]
    exact_mod_cast h.low
  · rw [hzpow]
    exact roundsTo_roundQuotient num (twoPow_pos k)

/-- The number next to a whole number stands for the nearest multiple. -/
theorem shape_ofRatio (h : HasBits num k) (hk : k ≤ 970) (negative : Bool) :
    ∃ significand exponent,
      shape (ofRatio negative num 1) = .finite negative significand (exponent : Nat) ∧
        0 < significand ∧ significand * twoPow exponent = wholeNearest num (twoPow k) := by
  have hlow := le_roundQuotient (twoPow_pos k) h.low
  have hhigh := roundQuotient_le (twoPow_pos k) h.high.le
  have hvalue : wholeNearest num (twoPow k) = roundQuotient .even num (twoPow k) * twoPow k := rfl
  have hnearest := h.nearest
  generalize roundQuotient .even num (twoPow k) = q at *
  have hbits : (k + 1074) * hiddenBit + q < infinityBits := by
    unfold infinityBits hiddenBit at *
    omega
  have hratio : ofRatio negative num 1 = ofMagnitude negative ((k + 1074) * hiddenBit + q) := by
    rw [ofRatio_of_nearest h.pos Nat.one_pos (by simpa using hnearest), Nat.min_eq_right hbits.le]
  have hpositive : 0 < (k + 1074) * hiddenBit + q := by
    unfold hiddenBit at *
    omega
  obtain ⟨m, e, hshape, hparts, hsum⟩ := shape_ofMagnitude hpositive hbits negative
  rw [hratio, hshape]
  have hplace : ((k : Int) + 1074).toNat = k + 1074 := by omega
  rw [← hplace] at hsum
  -- the bits are those of the multiple itself, unless it carried into the next exponent
  rcases hparts.eq_or_carried (by omega) hlow hhigh hsum with ⟨rfl, rfl⟩ | ⟨rfl, rfl⟩
  · exact ⟨m, k, rfl, hparts.pos, hvalue.symm⟩
  · refine ⟨m, k + 1, rfl, hparts.pos, ?_⟩
    rw [hvalue, twoPow_succ]
    ring

end HasBits

end Binary64

/-! ## Back to a decimal -/

namespace Decimal

/-- Doubling takes a power of two into the coefficient while there is room for it. -/
theorem absorbFives?_of_lt (steps : Nat) {s : Scaled} (h : s.coefficient * twoPow steps < coefficientBound) :
    s.absorbFives? steps = some ⟨s.coefficient * twoPow steps, s.exponent - steps⟩ := by
  induction steps generalizing s with
  | zero => simp [Scaled.absorbFives?]
  | succ steps ih =>
    have hstep : 2 * s.coefficient * twoPow steps = s.coefficient * twoPow (steps + 1) := by
      rw [twoPow_succ]
      ring
    have hroom : s.coefficient < 39614081257132168796771975168 := by
      have hdouble : 2 * s.coefficient ≤ 2 * s.coefficient * twoPow steps :=
        Nat.le_mul_of_pos_right _ (twoPow_pos steps)
      unfold coefficientBound at h
      omega
    rw [Scaled.absorbFives?, if_pos hroom, ih (by rw [hstep]; exact h)]
    simp only [hstep, Nat.cast_add, Nat.cast_one, Option.some.injEq, Scaled.mk.injEq, true_and]
    omega

/-- A whole number of the format that fits is a decimal without places. -/
theorem ofFloat?_of_shape {x : Float} {negative : Bool} {significand exponent : Nat}
    (hshape : Binary64.shape x = .finite negative significand exponent) (hpos : 0 < significand)
    (hlt : significand * twoPow exponent < coefficientBound) :
    ofFloat? x = ofParts? negative (significand * twoPow exponent) 0 := by
  have hhalves : (Scaled.mk significand exponent).absorbHalves (-(exponent : Int)).toNat =
      ⟨significand, exponent⟩ := by
    rw [show (-(exponent : Int)).toNat = 0 by omega]
    rfl
  have hfives := absorbFives?_of_lt exponent (s := ⟨significand, exponent⟩) hlt
  simp only [sub_self] at hfives
  rw [ofFloat?, hshape]
  simp only [if_neg hpos.ne']
  rw [hhalves, Int.toNat_natCast, hfives]
  rfl

/-- A whole number of `53 + k` digits goes through the format to the nearest multiple of `2 ^ k`. -/
theorem ofFloat?_ofRatio {num k : Nat} (h : Binary64.HasBits num k) (hk : k ≤ 42) (negative : Bool) :
    ∃ d, ofFloat? (Binary64.ofRatio negative num 1) = some d ∧ d.negative = negative ∧
      d.coefficient = wholeNearest num (twoPow k) ∧ d.scale = 0 := by
  obtain ⟨significand, exponent, hshape, hpos, hvalue⟩ := h.shape_ofRatio (by omega) negative
  have hlt : significand * twoPow exponent < coefficientBound := by
    have hquotient := roundQuotient_le (twoPow_pos k) h.high.le
    have hpow : twoPow k ≤ twoPow 42 := Nat.pow_le_pow_right (by decide) hk
    calc significand * twoPow exponent
        = roundQuotient .even num (twoPow k) * twoPow k := hvalue
      _ ≤ 2 * Binary64.hiddenBit * twoPow 42 := Nat.mul_le_mul hquotient hpow
      _ < coefficientBound := by decide
  rw [ofFloat?_of_shape hshape hpos hlt, ← hvalue]
  have hbounds : significand * twoPow exponent < coefficientBound ∧ 0 ≤ 28 := ⟨hlt, by decide⟩
  exact ⟨_, dif_pos hbounds, rfl, rfl, rfl⟩

end Decimal

end RecordQuery
