import RecordQuery.Proofs.Binary64.Products
import RecordQuery.Proofs.Literal.Binary
/-!
# How near the nearest number is

A number of 53 binary digits is off by half of its last place at most, which is one part in `2 ^ 53` of the
exact value unless that is below the normal numbers (`Nearest.exists_value`). So an integer in the format and a
product of two numbers are both within one part in `2 ^ 53` of what they stand for
(`exists_toRat?_ofInt`, `exists_toRat?_mul`).
-/

namespace RecordQuery.Binary64

/-- A magnitude with a sign. -/
def signed (negative : Bool) (r : ℚ) : ℚ :=
  if negative then -r else r

/-- The value of a finite number. -/
def toRat? (x : Float) : Option ℚ :=
  match shape x with
  | .finite negative m e => some (signed negative (m * 2 ^ e))
  | _ => none

variable {x y : Float} {a b r s : ℚ} {bits : Nat}

/-! ## Signs -/

@[simp]
theorem abs_signed (negative : Bool) (r : ℚ) : |signed negative r| = |r| := by
  cases negative with
  | false => rfl
  | true => exact abs_neg r

theorem signed_sub (negative : Bool) (r s : ℚ) :
    signed negative r - signed negative s = signed negative (r - s) := by
  cases negative with
  | false => rfl
  | true =>
      show -r - -s = -(r - s)
      ring

theorem signed_mul (a b : Bool) (r s : ℚ) : signed a r * signed b s = signed (a != b) (r * s) := by
  cases a <;> cases b <;> simp [signed]

theorem signed_natAbs (n : Int) : signed (n < 0) n.natAbs = n := by
  unfold signed
  rw [Nat.cast_natAbs]
  simp only [decide_eq_true_eq]
  split
  next hneg =>
    rw [abs_of_neg hneg]
    push_cast
    ring
  next hnonneg => rw [abs_of_nonneg (by omega)]

/-! ## Values -/

theorem exists_shape_of_toRat? (h : toRat? x = some r) :
    ∃ negative m e, shape x = .finite negative m e ∧ r = signed negative (m * 2 ^ e) := by
  unfold toRat? at h
  split at h
  next negative m e hshape => exact ⟨negative, m, e, hshape, (Option.some.inj h).symm⟩
  next => cases h

/-- A number that has a value is finite. -/
theorem isFinite_of_toRat? (h : toRat? x = some r) : isFinite x = true := by
  obtain ⟨negative, m, e, hshape, -⟩ := exists_shape_of_toRat? h
  have hfield := field_lt x
  unfold shape at hshape
  simp only at hshape
  split at hshape
  next => split at hshape <;> cases hshape
  next htop =>
    apply decide_eq_true
    rw [infinityBits, ← Nat.div_lt_iff_lt_mul (by decide)]
    omega

/-- A number is the nearest one to its own value. -/
theorem nearest_of_toRat? (h : toRat? x = some r) (hr : r ≠ 0) : Nearest |r| (magnitudeBits x) := by
  obtain ⟨negative, m, e, hshape, rfl⟩ := exists_shape_of_toRat? h
  have hpos : 0 < m := by
    rcases Nat.eq_zero_or_pos m with rfl | hpos
    · cases negative <;> simp [signed] at hr
    · exact hpos
  obtain ⟨hparts, hbits, -⟩ := parts_of_shape hshape hpos
  have hvalue : |signed negative (m * 2 ^ e)| / 2 ^ e = m := by
    rw [abs_signed, abs_of_nonneg (by positivity), mul_div_cancel_right₀ _ (by positivity)]
  refine ⟨e, m, ⟨hparts.lowest, ?_, hparts.full.imp id ?_⟩, ?_, hbits.symm⟩
  · rw [hvalue]
    exact_mod_cast hparts.below
  · rw [hvalue]
    exact_mod_cast id
  · rw [hvalue]
    exact RoundsTo.of_nat m

/-! ## Rounding errors -/

/-- The magnitudes that have all the digits of the format when they are rounded, and are not rounded to
infinity. -/
structure NormalRange (r : ℚ) : Prop where
  low : 2 ^ (-1022 : Int) ≤ r
  high : r ≤ 2 ^ (1023 : Int)

theorem NormalRange.pos (h : NormalRange r) : 0 < r :=
  lt_of_lt_of_le (zpow_pos (by norm_num) _) h.low

theorem NormalRange.of_le {n : Nat} (hlow : 1 / 2 ≤ r) (hhigh : r ≤ 2 ^ n) (hn : n ≤ 1023) :
    NormalRange r := by
  have hhalf : (2 : ℚ) ^ (-1022 : Int) ≤ 2 ^ (-1 : Int) := zpow_le_zpow_right₀ (by norm_num) (by decide)
  refine ⟨hhalf.trans (le_trans (by norm_num) hlow), hhigh.trans ?_⟩
  rw [← zpow_natCast]
  exact zpow_le_zpow_right₀ (by norm_num) (by omega)

/-- The bits of the nearest number are below those of infinity. -/
theorem Nearest.lt_infinityBits (h : Nearest r bits) (hr : NormalRange r) : bits < infinityBits := by
  have hbound : Nearest ((2 : ℚ) ^ (1023 : Int)) (2046 * hiddenBit) := nearest_zpow (e := 971) (by decide)
  exact Nat.lt_of_le_of_lt (h.le hbound hr.pos.le hr.high) (by decide)

/-- In units of its last place a magnitude has all digits. -/
theorem LastPlace.hiddenBit_le {e : Int} (h : LastPlace r e) (hr : NormalRange r) :
    hiddenBit * 2 ^ e ≤ r := by
  rcases h.full with rfl | hfull
  · refine le_trans (le_of_eq ?_) hr.low
    rw [cast_hiddenBit, ← zpow_add₀ (by norm_num)]
    norm_num
  · rwa [le_div_iff₀ (by positivity)] at hfull

/-- Rounding to an integer of `53` digits is off by one part in `2 ^ 53` at most. -/
theorem RoundsTo.abs_sub_le {e : Int} {q : Nat} (h : RoundsTo (r / 2 ^ e) q) (hfull : hiddenBit * 2 ^ e ≤ r) :
    |q * 2 ^ e - r| ≤ r / 2 ^ 53 := by
  have hpow : (0 : ℚ) < 2 ^ e := by positivity
  have herror : |(q : ℚ) - r / 2 ^ e| ≤ 1 / 2 := by
    rw [abs_le]
    constructor <;> linarith [h.lower, h.upper]
  have hscaled : (q : ℚ) * 2 ^ e - r = (q - r / 2 ^ e) * 2 ^ e := by
    rw [sub_mul, div_mul_cancel₀ _ hpow.ne']
  have hhidden : (2 : ℚ) ^ 53 = 2 * hiddenBit := by norm_num [hiddenBit]
  -- half a unit of the last place against a value of at least `2 ^ 52` units
  calc |(q : ℚ) * 2 ^ e - r| = |(q : ℚ) - r / 2 ^ e| * 2 ^ e := by
        rw [hscaled, abs_mul, abs_of_pos hpow]
    _ ≤ 1 / 2 * 2 ^ e := by gcongr
    _ ≤ r / 2 ^ 53 := by
        rw [hhidden, le_div_iff₀ (by norm_num [hiddenBit])]
        linarith

/-- The number nearest to a magnitude is off by one part in `2 ^ 53` at most. -/
theorem Nearest.exists_value (h : Nearest r bits) (hr : NormalRange r) (negative : Bool) :
    ∃ s, toRat? (ofMagnitude negative (min infinityBits bits)) = some (signed negative s) ∧
      |s - r| ≤ r / 2 ^ 53 := by
  have hbits := h.lt_infinityBits hr
  rw [Nat.min_eq_right hbits.le]
  obtain ⟨e, q, hplace, hrounds, rfl⟩ := h
  have hfull := hplace.hiddenBit_le hr
  have hq : hiddenBit ≤ q :=
    (RoundsTo.of_nat _).le hrounds ((le_div_iff₀ (by positivity)).mpr hfull)
  have hq' := hplace.significand_le hrounds
  have hpos : 0 < (e + 1074).toNat * hiddenBit + q := by
    unfold hiddenBit at *
    omega
  obtain ⟨m, k, hshape, hparts, hsum⟩ := shape_ofMagnitude hpos hbits negative
  have hvalue : (m : ℚ) * 2 ^ k = q * 2 ^ e := by
    rcases hparts.eq_or_carried hplace.lowest hq hq' hsum with ⟨rfl, rfl⟩ | ⟨rfl, rfl⟩
    · rfl
    · rw [zpow_add_one₀ (by norm_num)]
      push_cast
      ring
  refine ⟨q * 2 ^ e, ?_, hrounds.abs_sub_le hfull⟩
  rw [toRat?, hshape, ← hvalue]

/-- An integer in the format is within one part in `2 ^ 53` of itself. -/
theorem exists_toRat?_ofInt {n : Int} (hn : NormalRange |(n : ℚ)|) :
    ∃ a, toRat? (ofInt n) = some a ∧ |a - n| ≤ |(n : ℚ)| / 2 ^ 53 := by
  have hsigned := signed_natAbs n
  have habs : |(n : ℚ)| = n.natAbs := by rw [← hsigned, abs_signed, Nat.abs_cast]
  rw [habs] at hn ⊢
  have hpos : 0 < n.natAbs := by exact_mod_cast hn.pos
  obtain ⟨bits, hnearest, -⟩ := exists_nearest hpos Nat.one_pos
  have hratio : ofRatio (n < 0) n.natAbs 1 = _ := ofRatio_of_nearest hpos Nat.one_pos hnearest
  rw [Nat.cast_one, div_one] at hnearest
  obtain ⟨s, hs, herror⟩ := hnearest.exists_value hn (n < 0)
  refine ⟨signed (n < 0) s, ?_, ?_⟩
  · rw [ofInt, hratio, hs]
  · rwa [← hsigned, signed_sub, abs_signed]

/-- A product of two numbers is within one part in `2 ^ 53` of the exact one. -/
theorem exists_toRat?_mul (hx : toRat? x = some a) (hy : toRat? y = some b) (hab : NormalRange |a * b|) :
    ∃ p, toRat? (x * y) = some p ∧ |p - a * b| ≤ |a * b| / 2 ^ 53 := by
  obtain ⟨i, m, d, hxshape, rfl⟩ := exists_shape_of_toRat? hx
  obtain ⟨j, n, e, hyshape, rfl⟩ := exists_shape_of_toRat? hy
  have hnonneg : (0 : ℚ) ≤ m * 2 ^ d * (n * 2 ^ e) := by positivity
  rw [signed_mul, abs_signed, abs_of_nonneg hnonneg] at *
  have hproduct := hab.pos
  have hm : 0 < m := by
    apply Nat.pos_of_ne_zero
    rintro rfl
    simp at hproduct
  have hn : 0 < n := by
    apply Nat.pos_of_ne_zero
    rintro rfl
    simp at hproduct
  obtain ⟨bits, hnearest, hmul⟩ := mul_of_shape hxshape hm hyshape hn
  obtain ⟨s, hs, herror⟩ := hnearest.exists_value hab (i != j)
  refine ⟨signed (i != j) s, ?_, ?_⟩
  · rw [hmul, hs]
  · rwa [signed_sub, abs_signed]

/-! ## Products of integers -/

/-- What is off by a part of a value is larger by that part at most. -/
theorem abs_le_of_abs_sub_le {δ : ℚ} (h : |a - r| ≤ |r| * δ) : |a| ≤ |r| * (1 + δ) := by
  have htriangle := abs_sub_abs_le_abs_sub a r
  linarith

theorem le_abs_of_abs_sub_le {δ : ℚ} (h : |a - r| ≤ |r| * δ) : |r| * (1 - δ) ≤ |a| := by
  have htriangle := abs_sub_abs_le_abs_sub r a
  rw [abs_sub_comm] at htriangle
  linarith

/-- The errors of two factors add up, but for the product of the two. -/
theorem abs_mul_sub_mul_le {δ : ℚ} (hδ : 0 ≤ δ) (ha : |a - r| ≤ |r| * δ) (hb : |b - s| ≤ |s| * δ) :
    |a * b - r * s| ≤ |r * s| * (2 * δ + δ ^ 2) := by
  have hsplit : a * b - r * s = (a - r) * b + r * (b - s) := by ring
  calc |a * b - r * s| ≤ |(a - r) * b| + |r * (b - s)| := hsplit ▸ abs_add_le _ _
    _ = |a - r| * |b| + |r| * |b - s| := by rw [abs_mul, abs_mul]
    _ ≤ |r| * δ * (|s| * (1 + δ)) + |r| * (|s| * δ) := by
        have := abs_le_of_abs_sub_le hb
        gcongr
    _ = |r * s| * (2 * δ + δ ^ 2) := by
        rw [abs_mul]
        ring

/-- A product of two integers of 64 bits in the format is within one part in `2 ^ 51` of the exact one: each of
the two factors is rounded, and their product once more. -/
theorem exists_toRat?_mul_ofInt {m n : Int} (hm : 1 ≤ |(m : ℚ)|) (hm' : |(m : ℚ)| ≤ 2 ^ 63)
    (hn : 1 ≤ |(n : ℚ)|) (hn' : |(n : ℚ)| ≤ 2 ^ 63) :
    ∃ p, toRat? (ofInt m * ofInt n) = some p ∧ |p - m * n| ≤ |(m * n : ℚ)| / 2 ^ 51 := by
  obtain ⟨a, ha, haerror⟩ := exists_toRat?_ofInt (NormalRange.of_le (by linarith) hm' (by decide))
  obtain ⟨b, hb, hberror⟩ := exists_toRat?_ofInt (NormalRange.of_le (by linarith) hn' (by decide))
  rw [div_eq_mul_inv] at haerror hberror
  have hfactors : |a * b - m * n| ≤ |(m * n : ℚ)| * (5 / 2 ^ 54) := by
    refine (abs_mul_sub_mul_le (by positivity) haerror hberror).trans ?_
    gcongr
    norm_num
  have hlow : 1 ≤ |(m * n : ℚ)| := by
    rw [abs_mul]
    exact one_le_mul_of_one_le_of_one_le hm hn
  have hhigh : |(m * n : ℚ)| ≤ 2 ^ 126 := by
    rw [abs_mul, show 126 = 63 + 63 from rfl, pow_add]
    exact mul_le_mul hm' hn' (abs_nonneg _) (by positivity)
  have hnormal : NormalRange |a * b| := by
    have habove := abs_le_of_abs_sub_le hfactors
    have hbelow := le_abs_of_abs_sub_le hfactors
    refine NormalRange.of_le (n := 127) ?_ ?_ (by decide) <;> linarith
  obtain ⟨p, hp, hperror⟩ := exists_toRat?_mul ha hb hnormal
  refine ⟨p, hp, ?_⟩
  have htriangle := abs_sub_le p (a * b) (m * n)
  have habove := abs_le_of_abs_sub_le hfactors
  linarith

end RecordQuery.Binary64
