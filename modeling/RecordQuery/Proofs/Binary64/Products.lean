import RecordQuery.Proofs.Binary64.Bits
import RecordQuery.Proofs.Binary64.Shortest
/-!
# Products of binary numbers

The product of two finite numbers is computed on their parts. The significands are multiplied, binary digits
are shifted out until 53 are left, and two bits stand for all the digits that are gone. They still tell where
the exact product lies (`Locates`), because every shift keeps that (`Locates.shiftRight`). So rounding at the
end is rounding of the exact product, a carry and all, and the result is the number nearest to it
(`mul_of_shape`).
-/

namespace RecordQuery.Binary64

open Float.Model Float.Model.UnpackedFloat Float.Model.Format

/-! ## Shifting digits out -/

/-- `Locates em x` holds when a significand and the two bits for what was shifted out tell where `x` lies: on
an integer, half-way between two integers, or in one of the two halves. -/
def Locates (em : ExtendedMantissa) (x : ℚ) : Prop :=
  match em.roundBit, em.stickyBit with
  | false, false => x = em.mantissa
  | false, true => em.mantissa < x ∧ x < em.mantissa + 1 / 2
  | true, false => x = em.mantissa + 1 / 2
  | true, true => em.mantissa + 1 / 2 < x ∧ x < em.mantissa + 1

theorem locates_exact (m : Nat) : Locates (.ofMantissaAndAccuracy m .exact) m :=
  rfl

namespace Locates

variable {em : ExtendedMantissa} {x : ℚ}

/-- The place of a number tells what it is rounded to. -/
theorem roundsTo (h : Locates em x) : RoundsTo x em.roundedMantissa := by
  obtain ⟨m, roundBit, stickyBit⟩ := em
  cases roundBit with
  | false =>
      cases stickyBit with
      | false =>
          have hx : x = m := h
          rw [hx]
          exact RoundsTo.of_nat m
      | true =>
          obtain ⟨hlow, hhigh⟩ : (m : ℚ) < x ∧ x < m + 1 / 2 := h
          refine ⟨?_, hhigh.le, ?_⟩
          · show (m : ℚ) - 1 / 2 ≤ x
            linarith
          · show x = (m : ℚ) - 1 / 2 ∨ x = m + 1 / 2 → _
            rintro (heq | heq) <;> linarith
  | true =>
      cases stickyBit with
      | false =>
          -- half-way the last bit is added, which makes the significand even
          have hx : x = m + 1 / 2 := h
          show RoundsTo x (m + m % 2)
          have heven : (m + m % 2) % 2 = 0 := by omega
          have hbit : m % 2 = 0 ∨ m % 2 = 1 := by omega
          refine ⟨?_, ?_, fun _ => heven⟩ <;>
            rcases hbit with hbit | hbit <;> rw [hx, hbit] <;> push_cast <;> linarith
      | true =>
          obtain ⟨hlow, hhigh⟩ : (m : ℚ) + 1 / 2 < x ∧ x < m + 1 := h
          show RoundsTo x (m + 1)
          refine ⟨?_, ?_, ?_⟩
          · push_cast
            linarith
          · push_cast
            linarith
          · push_cast
            rintro (heq | heq) <;> linarith

/-- One digit more is shifted out. -/
theorem shiftRightOne (h : Locates em x) : Locates em.shiftRightOne (x / 2) := by
  obtain ⟨m, roundBit, stickyBit⟩ := em
  have hhalf : (m : ℚ) = 2 * (m / 2 : Nat) + (m % 2 : Nat) := by
    exact_mod_cast (Nat.div_add_mod m 2).symm
  have hbit : m % 2 = 0 ∨ m % 2 = 1 := by omega
  -- the last digit is the new round bit, and the old one joins what was gone before
  unfold Locates ExtendedMantissa.shiftRightOne at *
  rcases hbit with hbit | hbit <;> rw [hbit] at hhalf <;>
    cases roundBit <;> cases stickyBit <;> simp [hbit] at * <;> grind

theorem shiftRight (h : Locates em x) (n : Nat) : Locates (em >>> n) (x / 2 ^ n) := by
  induction n with
  | zero => rwa [pow_zero, div_one]
  | succ n ih =>
      rw [pow_succ, ← div_div]
      exact ih.shiftRightOne

end Locates

/-! ## The exponent that is aimed at -/

theorem targetExponent_eq (m : Nat) (e : Int) :
    binary64.targetExponent (totalExponent m e) = max ((m.log2 : Int) + e - 52) (-1074) := by
  show max ((m.log2 : Int) + 1 + e - (53 : Nat)) (3 - 2 ^ 10 - (53 : Nat)) = _
  omega

/-- The exponent that is aimed at is that of the last place. -/
theorem lastPlace_targetExponent {m : Nat} (hm : 0 < m) (e : Int) :
    LastPlace (m * 2 ^ e) (binary64.targetExponent (totalExponent m e)) := by
  rw [targetExponent_eq]
  generalize ht : max ((m.log2 : Int) + e - 52) (-1074) = t
  have hcases : -1074 ≤ t ∧ (m.log2 : Int) + e - 52 ≤ t ∧
      (t = -1074 ∨ t = (m.log2 : Int) + e - 52) := by omega
  refine ⟨hcases.1, ?_, hcases.2.2.imp id fun htop => ?_⟩
  · rw [div_lt_iff₀ (by positivity), cast_hiddenBit]
    calc (m : ℚ) * 2 ^ e < 2 ^ ((m.log2 : Int) + 1) * 2 ^ e := by
          have := lt_zpow_log2 m
          gcongr
      _ = 2 ^ ((m.log2 : Int) + 1 + e) := (zpow_add₀ (by norm_num) _ _).symm
      _ ≤ 2 ^ (1 + 52 + t) := zpow_le_zpow_right₀ (by norm_num) (by omega)
      _ = 2 * 2 ^ (52 : Int) * 2 ^ t := by
          rw [zpow_add₀ (by norm_num), zpow_add₀ (by norm_num), zpow_one]
  · rw [le_div_iff₀ (by positivity), cast_hiddenBit]
    calc (2 : ℚ) ^ (52 : Int) * 2 ^ t = 2 ^ (m.log2 : Int) * 2 ^ e := by
          rw [← zpow_add₀ (by norm_num), ← zpow_add₀ (by norm_num), htop]
          congr 1
          omega
      _ ≤ m * 2 ^ e := by
          have := zpow_log2_le hm
          gcongr

/-- Digits are shifted out up to an exponent, and rounding then rounds in units of it. -/
theorem roundsTo_shiftToExponent (m : Nat) {e t : Int} (h : e ≤ t) :
    (shiftToExponent m e .exact t).2 = t ∧
      RoundsTo (m * 2 ^ e / 2 ^ t) (shiftToExponent m e .exact t).1.roundedMantissa := by
  obtain ⟨n, rfl⟩ : ∃ n : Nat, t = e + n := ⟨(t - e).toNat, by omega⟩
  have hamount : (e + n - e).toNat = n := by omega
  have hvalue : (m : ℚ) * 2 ^ e / 2 ^ (e + (n : Int)) = m / 2 ^ n := by
    rw [zpow_add₀ (by norm_num), zpow_natCast]
    field_simp
  unfold shiftToExponent
  simp only [hamount, hvalue, true_and]
  exact ((locates_exact m).shiftRight n).roundsTo

/-! ## What is packed -/

theorem toNat_packedInfinity (sign : Sign) :
    (packedInfinity binary64 sign).toNat = sign.toBitVec.toNat * signBit + infinityBits := by
  cases sign <;> decide

theorem toNat_packedZero (sign : Sign) :
    (packedZero binary64 sign).toNat = sign.toBitVec.toNat * signBit := by
  cases sign <;> decide

/-- A significand of the format packs into its bits; too large an exponent packs into infinity. -/
theorem toNat_pack_finite (sign : Sign) {m : Nat} {e : Int} (hpos : 0 < m) (hbelow : m < 2 * hiddenBit)
    (hlowest : -1074 ≤ e) (hfull : e = -1074 ∨ hiddenBit ≤ m) :
    (UnpackedFloat.pack binary64 (.finite sign m e hpos)).toNat =
      sign.toBitVec.toNat * signBit + min infinityBits ((e + 1074).toNat * hiddenBit + m) := by
  obtain ⟨n, rfl⟩ : ∃ n : Nat, e = n - 1074 := ⟨(e + 1074).toNat, by omega⟩
  have hbiased : ((n : Int) - 1074 + (exponentBias binary64 : Nat) + (52 : Nat)).toNat = n + 1 := by
    show ((n : Int) - 1074 + 1023 + 52).toNat = n + 1
    omega
  have hplace : ((n : Int) - 1074 + 1074).toNat = n := by omega
  unfold UnpackedFloat.pack
  simp only [hbiased, hplace]
  split
  next hlarge =>
    -- an exponent past the largest one
    have hlarge : 2048 ≤ n + 1 + 1 := hlarge
    have hinfinite : infinityBits ≤ n * hiddenBit + m := by
      unfold infinityBits hiddenBit at *
      omega
    rw [toNat_packedInfinity, Nat.min_eq_left hinfinite]
  next hlarge =>
    have hlarge : ¬2048 ≤ n + 1 + 1 := hlarge
    have hfinite : n * hiddenBit + m < infinityBits := by
      unfold infinityBits hiddenBit at *
      omega
    rw [Nat.min_eq_right hfinite.le]
    split
    next hlog =>
      have hlog : m.log2 + 1 = 53 := hlog
      have hlow : hiddenBit ≤ m := by
        have hle := Nat.log2_self_le hpos.ne'
        rwa [show m.log2 = 52 by omega] at hle
      rw [toNat_packComponents, BitVec.toNat_ofNat, BitVec.toNat_ofNat]
      show _ + (n + 1) % 2048 * hiddenBit + m % hiddenBit = _
      unfold hiddenBit at *
      omega
    next hlog =>
      have hlog : m.log2 + 1 ≠ 53 := hlog
      -- without the hidden bit the exponent is the lowest one
      have hhigh : m < hiddenBit := by
        have hlt : m.log2 < 53 := (Nat.log2_lt hpos.ne').mpr hbelow
        exact (Nat.log2_lt hpos.ne').mp (show m.log2 < 52 by omega)
      have hzero : n = 0 := by omega
      rw [toNat_packComponents, BitVec.toNat_ofNat, hzero]
      show _ + 0 * hiddenBit + m % hiddenBit = _
      rw [Nat.mod_eq_of_lt hhigh]
      omega

/-! ## The carry -/

/-- The number of a significand that was shifted to its exponent. -/
def ofShifted (sign : Sign) (shifted : ExtendedMantissa × Int) : UnpackedFloat :=
  if h : shifted.1.mantissa = 0 then .zero sign
  else .finite sign shifted.1.mantissa shifted.2 (Nat.pos_of_ne_zero h)

/-- What is left of a rounded significand: a carry into a further digit is shifted out again. -/
def settled (sign : Sign) (q : Nat) (t : Int) : UnpackedFloat :=
  ofShifted sign (shiftToTargetExponent binary64 q t .exact)

theorem roundWithAccuracy_eq (sign : Sign) (m : Nat) (e : Int) (accuracy : Accuracy) :
    roundWithAccuracy binary64 sign m e accuracy =
      settled sign (shiftToTargetExponent binary64 m e accuracy).1.roundedMantissa
        (shiftToTargetExponent binary64 m e accuracy).2 :=
  rfl

/-- What fits is not shifted. -/
theorem shiftToTargetExponent_of_lt {q : Nat} {t : Int} (hq : q < 2 * hiddenBit) (ht : -1074 ≤ t) :
    shiftToTargetExponent binary64 q t .exact = (⟨q, false, false⟩, t) := by
  have hlog : q.log2 ≤ 52 := by
    rcases Nat.eq_zero_or_pos q with rfl | hpos
    · decide
    · have hlt : q.log2 < 53 := (Nat.log2_lt hpos.ne').mpr hq
      omega
  have hnone : (max ((q.log2 : Int) + t - 52) (-1074) - t).toNat = 0 := by omega
  unfold shiftToTargetExponent shiftToExponent
  simp only [targetExponent_eq, hnone]
  exact Prod.ext rfl (Int.add_zero t)

/-- A carry is one digit too many. -/
theorem shiftToTargetExponent_carry {t : Int} (ht : -1074 ≤ t) :
    shiftToTargetExponent binary64 (2 * hiddenBit) t .exact = (⟨hiddenBit, false, false⟩, t + 1) := by
  have hlog : (2 * hiddenBit).log2 = 53 := by decide
  have hone : (max ((53 : Nat) + t - 52) (-1074) - t).toNat = 1 := by omega
  unfold shiftToTargetExponent shiftToExponent
  simp only [targetExponent_eq, hlog, hone]
  rfl

theorem toNat_pack_ofShifted (sign : Sign) {q : Nat} {t : Int} (hbelow : q < 2 * hiddenBit) (ht : -1074 ≤ t)
    (hfull : t = -1074 ∨ hiddenBit ≤ q) (roundBit stickyBit : Bool) :
    (UnpackedFloat.pack binary64 (ofShifted sign (⟨q, roundBit, stickyBit⟩, t))).toNat =
      sign.toBitVec.toNat * signBit + min infinityBits ((t + 1074).toNat * hiddenBit + q) := by
  unfold ofShifted
  by_cases hzero : q = 0
  · have hlowest : t = -1074 := hfull.resolve_right (by rw [hzero]; decide)
    have hbits : (UnpackedFloat.pack binary64 (.zero sign)).toNat = _ := toNat_packedZero sign
    rw [dif_pos hzero, hbits, hzero, hlowest]
    simp
  · rw [dif_neg hzero]
    exact toNat_pack_finite sign _ hbelow ht hfull

/-- The bits of a rounded significand; the carry lands in the exponent. -/
theorem toNat_pack_settled (sign : Sign) {q : Nat} {t : Int} (hq : q ≤ 2 * hiddenBit) (ht : -1074 ≤ t)
    (hfull : t = -1074 ∨ hiddenBit ≤ q) :
    (UnpackedFloat.pack binary64 (settled sign q t)).toNat =
      sign.toBitVec.toNat * signBit + min infinityBits ((t + 1074).toNat * hiddenBit + q) := by
  unfold settled
  rcases Nat.lt_or_eq_of_le hq with hlt | rfl
  · rw [shiftToTargetExponent_of_lt hlt ht]
    exact toNat_pack_ofShifted sign hlt ht hfull false false
  · rw [shiftToTargetExponent_carry ht,
      toNat_pack_ofShifted sign (by decide) (by omega) (.inr (Nat.le_refl _)) false false]
    have hnext : (t + 1 + 1074).toNat = (t + 1074).toNat + 1 := by omega
    rw [hnext, Nat.add_mul, Nat.one_mul, Nat.two_mul, Nat.add_assoc]

/-- What is rounded and packed has the bits of the nearest number. -/
theorem exists_nearest_round (sign : Sign) {m : Nat} {e : Int} (hm : 0 < m)
    (h : e ≤ binary64.targetExponent (totalExponent m e)) :
    ∃ bits, Nearest (m * 2 ^ e) bits ∧
      (UnpackedFloat.pack binary64 (roundWithAccuracy binary64 sign m e .exact)).toNat =
        sign.toBitVec.toNat * signBit + min infinityBits bits := by
  have hplace := lastPlace_targetExponent hm e
  rw [roundWithAccuracy_eq]
  unfold shiftToTargetExponent
  simp only
  generalize binary64.targetExponent (totalExponent m e) = t at *
  obtain ⟨hexponent, hrounds⟩ := roundsTo_shiftToExponent m h
  rw [hexponent]
  generalize (shiftToExponent m e .exact t).1.roundedMantissa = q at *
  exact ⟨_, ⟨t, q, hplace, hrounds, rfl⟩, toNat_pack_settled sign (hplace.significand_le hrounds)
    hplace.lowest (hplace.le_significand hrounds)⟩

/-! ## Multiplying -/

/-- The sign of a number that is negative or not. -/
def signOf (negative : Bool) : Sign :=
  if negative then .negative else .positive

theorem toNat_signOf (negative : Bool) :
    (signOf negative).toBitVec.toNat * signBit = if negative then signBit else 0 := by
  cases negative <;> decide

theorem signOf_mul (a b : Bool) : signOf a * signOf b = signOf (a != b) := by
  cases a <;> cases b <;> rfl

variable {x y : Float} {negative : Bool} {m n : Nat} {d e : Int}

/-- The fields of a number are its sign and the two parts of its magnitude. -/
theorem exists_fields (x : Float) :
    ∃ (exponent : BitVec 11) (fraction : BitVec 52),
      x.toBits.toBitVec = packComponents binary64 (signOf (isNegative x)) exponent fraction ∧
        magnitudeBits x = exponent.toNat * hiddenBit + fraction.toNat := by
  obtain ⟨sign, exponent, fraction, hw⟩ := exists_components x.toBits.toBitVec
  have hnat : x.toBits.toNat =
      sign.toBitVec.toNat * signBit + exponent.toNat * hiddenBit + fraction.toNat := by
    rw [← toNat_packComponents, ← hw]
    rfl
  have hexponent : exponent.toNat < 2048 := exponent.isLt
  have hfraction : fraction.toNat < hiddenBit := fraction.isLt
  have hsign : sign = signOf (isNegative x) := by
    unfold isNegative
    rw [hnat]
    cases sign with
    | negative =>
        rw [decide_eq_true]
        · rfl
        · show signBit ≤ 1 * signBit + _ + _
          omega
    | positive =>
        rw [decide_eq_false]
        · rfl
        · show ¬signBit ≤ 0 * signBit + _ + _
          unfold signBit hiddenBit at *
          omega
  refine ⟨exponent, fraction, hsign ▸ hw, ?_⟩
  rw [magnitudeBits, hnat, Nat.add_assoc, Nat.mul_add_mod_self_right, Nat.mod_eq_of_lt]
  unfold signBit hiddenBit at *
  omega

/-- A finite number other than zero unpacks into its parts. -/
theorem unpack_of_shape (h : shape x = .finite negative m e) (hpos : 0 < m) :
    x.toModel.unpack = .finite (signOf negative) m e hpos := by
  obtain ⟨exponent, fraction, hw, hmagnitude⟩ := exists_fields x
  have hfraction : fraction.toNat < hiddenBit := fraction.isLt
  have hdiv : magnitudeBits x / hiddenBit = exponent.toNat := by
    rw [hmagnitude, Nat.mul_comm, Nat.mul_add_div (by decide), Nat.div_eq_of_lt hfraction, Nat.add_zero]
  have hmod : magnitudeBits x % hiddenBit = fraction.toNat := by
    rw [hmagnitude, Nat.mul_comm, Nat.mul_add_mod, Nat.mod_eq_of_lt hfraction]
  show UnpackedFloat.unpack binary64 x.toBits.toBitVec = _
  rw [hw]
  unfold shape at h
  simp only [hdiv, hmod] at h
  split at h
  next => split at h <;> cases h
  next htop =>
    have htop : exponent ≠ -1#11 := by
      rintro rfl
      exact htop rfl
    split at h
    next hlow =>
      obtain ⟨rfl, rfl, rfl⟩ := Shape.finite.inj h
      have hlow : exponent = 0#11 := BitVec.eq_of_toNat_eq hlow
      rw [hlow]
      exact unpack_low hpos
    next hlow =>
      obtain ⟨rfl, rfl, rfl⟩ := Shape.finite.inj h
      have hlow : exponent ≠ 0#11 := by
        rintro rfl
        exact hlow rfl
      rw [unpack_normal htop hlow (Nat.add_comm fraction.toNat _ ▸ hpos)]
      exact finite_eq (Nat.add_comm _ _) rfl

theorem field_lt (x : Float) : magnitudeBits x / hiddenBit < 2048 := by
  rw [Nat.div_lt_iff_lt_mul (by decide)]
  exact Nat.mod_lt _ (by decide)

/-- The parts of a finite number other than zero are those of the format, and make up its bits. -/
theorem parts_of_shape (h : shape x = .finite negative m e) (hpos : 0 < m) :
    Parts m e ∧ (e + 1074).toNat * hiddenBit + m = magnitudeBits x ∧ isNegative x = negative := by
  have hsplit := Nat.div_add_mod (magnitudeBits x) hiddenBit
  have hfraction : magnitudeBits x % hiddenBit < hiddenBit := Nat.mod_lt _ (by decide)
  have hfield := field_lt x
  unfold shape at h
  simp only at h
  generalize magnitudeBits x / hiddenBit = field at *
  generalize magnitudeBits x % hiddenBit = fraction at *
  rw [← hsplit]
  split at h
  next => split at h <;> cases h
  next htop =>
    split at h
    next hlow =>
      obtain ⟨rfl, rfl, rfl⟩ := Shape.finite.inj h
      refine ⟨⟨hpos, by omega, by omega, by omega, .inl rfl⟩, ?_, rfl⟩
      rw [hlow]
      show 0 * hiddenBit + fraction = _
      omega
    next hlow =>
      obtain ⟨rfl, rfl, rfl⟩ := Shape.finite.inj h
      refine ⟨⟨hpos, by omega, by omega, by omega, .inr (by omega)⟩, ?_, rfl⟩
      obtain ⟨n, rfl⟩ : ∃ n, field = n + 1 := ⟨field - 1, by omega⟩
      have hplace : (((n + 1 : Nat) : Int) - 1075 + 1074).toNat = n := by omega
      rw [hplace, Nat.mul_succ, Nat.mul_comm]
      omega

/-- A product has at least as many digits as are kept, unless both factors are below the normal numbers. -/
theorem le_targetExponent_mul (hx : Parts m d) (hy : Parts n e) :
    d + e ≤ binary64.targetExponent (totalExponent (m * n) (d + e)) := by
  have hne : m * n ≠ 0 := (Nat.mul_pos hx.pos hy.pos).ne'
  have hlog : 2 ^ 52 ≤ m * n → 52 ≤ (m * n).log2 := (Nat.le_log2 hne).mpr
  rw [targetExponent_eq]
  rcases hx.full with hd | hm
  · rcases hy.full with he | hn
    · omega
    · have := hlog (hn.trans (Nat.le_mul_of_pos_left n hx.pos))
      omega
  · have := hlog (hm.trans (Nat.le_mul_of_pos_right m hy.pos))
    omega

/-- **Products are nearest numbers.** The product of two finite numbers other than zero is the number nearest
to their exact product, negative if one of the two is; past the largest number it is infinite. -/
theorem mul_of_shape {a b : Bool} (hx : shape x = .finite a m d) (hm : 0 < m)
    (hy : shape y = .finite b n e) (hn : 0 < n) :
    ∃ bits, Nearest (m * 2 ^ d * (n * 2 ^ e)) bits ∧ x * y = ofMagnitude (a != b) (min infinityBits bits) := by
  have hexponent := le_targetExponent_mul (parts_of_shape hx hm).1 (parts_of_shape hy hn).1
  obtain ⟨bits, hnearest, hpack⟩ :=
    exists_nearest_round (signOf (a != b)) (Nat.mul_pos hm hn) hexponent
  have hvalue : ((m * n : Nat) : ℚ) * 2 ^ (d + e) = m * 2 ^ d * (n * 2 ^ e) := by
    rw [zpow_add₀ (by norm_num)]
    push_cast
    ring
  refine ⟨bits, hvalue ▸ hnearest, ?_⟩
  have hbits : (x * y).toBits.toNat =
      (UnpackedFloat.pack binary64 (mul binary64 x.toModel.unpack y.toModel.unpack)).toNat := rfl
  apply toBits_injective
  apply UInt64.toNat_inj.mp
  rw [hbits, unpack_of_shape hx hm, unpack_of_shape hy hn, toBits_ofMagnitude (Nat.min_le_left _ _),
    ← toNat_signOf, ← hpack, ← signOf_mul]
  rfl

end RecordQuery.Binary64
