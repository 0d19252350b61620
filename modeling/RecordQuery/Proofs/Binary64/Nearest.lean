import RecordQuery.Binary64.Basic
import RecordQuery.Proofs.Number.Digits
import Mathlib.Algebra.Order.Field.Power
import Mathlib.Data.Rat.Cast.Order
import Mathlib.Tactic.Linarith
import Mathlib.Tactic.Positivity
import Mathlib.Tactic.FieldSimp
import Mathlib.Tactic.Ring
import Mathlib.Tactic.NormNum

/-!
# The nearest number

`nearestMagnitude` computes a last binary place, scales the ratio by it and rounds the quotient. What it
has to compute is said here over the rational numbers: `LastPlace r e` for the place, `RoundsTo x m` for the
rounding and `Nearest r bits` for both. Each of them keeps the order of values, so each has one answer at
most, and the answer of the algorithm is that one. Reading a decimal comes down to it on both sides of
the bounds outside of which no power is computed.
-/

namespace RecordQuery.Binary64

/-- `RoundsTo x m` holds when `m` is the integer nearest to `x`, and the even one if two are. -/
structure RoundsTo (x : ℚ) (m : Nat) : Prop where
  lower : (m : ℚ) - 1 / 2 ≤ x
  upper : x ≤ m + 1 / 2
  /-- half-way between two integers the even one is taken -/
  tie : x = m - 1 / 2 ∨ x = m + 1 / 2 → m % 2 = 0

/-- Rounding a quotient rounds its value. -/
theorem roundsTo_roundQuotient (num : Nat) {den : Nat} (hden : 0 < den) :
    RoundsTo ((num : ℚ) / den) (roundQuotient .even num den) := by
  have hpos : (0 : ℚ) < den := by exact_mod_cast hden
  have hnum : (num : ℚ) = den * (num / den : Nat) + (num % den : Nat) := by
    exact_mod_cast (Nat.div_add_mod num den).symm
  have hvalue : (num : ℚ) / den = (num / den : Nat) + (num % den : Nat) / den := by
    field_simp
    exact hnum
  rw [hvalue]
  unfold roundQuotient
  simp only
  -- twice the remainder against the denominator is the fraction against one half
  rcases Nat.lt_trichotomy (2 * (num % den)) den with hlt | heq | hgt
  · have hfraction : ((num % den : Nat) : ℚ) / den < 1 / 2 := by
      rw [div_lt_iff₀ hpos]
      have : (2 : ℚ) * (num % den : Nat) < den := by exact_mod_cast hlt
      linarith
    have hnonneg : 0 ≤ ((num % den : Nat) : ℚ) / den := by positivity
    rw [if_pos hlt]
    refine ⟨by linarith, by linarith, ?_⟩
    rintro (h | h) <;> linarith
  · have hfraction : ((num % den : Nat) : ℚ) / den = 1 / 2 := by
      rw [div_eq_iff hpos.ne']
      have : (2 : ℚ) * (num % den : Nat) = den := by exact_mod_cast heq
      linarith
    rw [if_neg (by omega), if_neg (by omega), hfraction]
    split
    next heven => exact ⟨by linarith, by linarith, fun _ => heven⟩
    next hodd => exact ⟨by push_cast; linarith, by push_cast; linarith, fun _ => by omega⟩
  · have hfraction : 1 / 2 < ((num % den : Nat) : ℚ) / den := by
      rw [lt_div_iff₀ hpos]
      have : (den : ℚ) < 2 * (num % den : Nat) := by exact_mod_cast hgt
      linarith
    have hlt : ((num % den : Nat) : ℚ) / den < 1 := by
      rw [div_lt_one hpos]
      exact_mod_cast Nat.mod_lt num hden
    rw [if_neg (by omega), if_pos hgt]
    refine ⟨by push_cast; linarith, by push_cast; linarith, ?_⟩
    push_cast
    rintro (h | h) <;> linarith

/-- Rounding keeps the order. -/
theorem RoundsTo.le {x y : ℚ} {m k : Nat} (hx : RoundsTo x m) (hy : RoundsTo y k) (h : x ≤ y) :
    m ≤ k := by
  by_contra hlt
  -- both values would be half-way between `k` and `k + 1`, and only one of these is even
  have hle : (k : ℚ) + 1 ≤ m := by exact_mod_cast Nat.lt_of_not_le hlt
  have hm := hx.tie (.inl (by linarith [hx.lower, hy.upper]))
  have hk := hy.tie (.inr (by linarith [hx.lower, hy.upper]))
  have hmk : (m : ℚ) = (k + 1 : Nat) := by
    push_cast
    linarith [hx.lower, hy.upper]
  have hmk : m = k + 1 := by exact_mod_cast hmk
  omega

/-! ## The last binary place -/

/-- `LastPlace r e` holds when the numbers next to `r` are multiples of `2 ^ e`. -/
structure LastPlace (r : ℚ) (e : Int) : Prop where
  lowest : -1074 ≤ e
  below : r / 2 ^ e < 2 * hiddenBit
  /-- a smaller exponent would do, if there was one -/
  full : e = -1074 ∨ (hiddenBit : ℚ) ≤ r / 2 ^ e

/-- In units of a lower place a value is at least twice as large. -/
theorem div_zpow_le_div_zpow {r s : ℚ} (hr : 0 ≤ r) (h : r ≤ s) {d e : Int} (hde : d < e) :
    2 * (r / 2 ^ e) ≤ s / 2 ^ d := by
  have hpow : (2 : ℚ) ^ (d + 1) ≤ 2 ^ e := zpow_le_zpow_right₀ (by norm_num) (by omega)
  have hd : (0 : ℚ) < 2 ^ d := by positivity
  rw [zpow_add_one₀ (by norm_num)] at hpow
  rw [mul_div_assoc', div_le_div_iff₀ (by positivity) hd]
  nlinarith

/-- A larger value does not have a smaller last place. -/
theorem LastPlace.le {r s : ℚ} {d e : Int} (hd : LastPlace r d) (he : LastPlace s e) (hr : 0 ≤ r)
    (h : r ≤ s) : d ≤ e := by
  by_contra hlt
  have hlt : e < d := by omega
  have hscale := div_zpow_le_div_zpow hr h hlt
  have hfull := hd.full.resolve_left (by have := he.lowest; omega)
  linarith [he.below]

theorem twoPow_eq (n : Nat) : twoPow n = 2 ^ n :=
  rfl

theorem cast_hiddenBit : (hiddenBit : ℚ) = 2 ^ (52 : Int) := by
  norm_num [hiddenBit]

theorem unscale_pos (num : Nat) {den : Nat} (hden : 0 < den) (e : Int) : 0 < (unscale num den e).2 := by
  unfold unscale
  split
  · exact Nat.mul_pos hden (twoPow_pos _)
  · exact hden

/-- Unscaling divides by the power. -/
theorem unscale_eq (num den : Nat) (e : Int) :
    ((unscale num den e).1 : ℚ) / (unscale num den e).2 = (num : ℚ) / den / 2 ^ e := by
  unfold unscale
  split
  next h =>
    obtain ⟨n, rfl⟩ := Int.eq_ofNat_of_zero_le h
    simp only [Int.toNat_natCast, twoPow_eq]
    push_cast
    rw [div_div, zpow_natCast]
  next h =>
    obtain ⟨n, hn⟩ := Int.eq_ofNat_of_zero_le (show 0 ≤ -e by omega)
    have he : e = -(n : Int) := by omega
    subst he
    simp only [neg_neg, Int.toNat_natCast, twoPow_eq]
    push_cast
    rw [zpow_neg, zpow_natCast, div_inv_eq_mul]
    ring

theorem zpow_log2_le {n : Nat} (h : 0 < n) : (2 : ℚ) ^ (n.log2 : Int) ≤ n := by
  rw [zpow_natCast]
  exact_mod_cast Nat.log2_self_le h.ne'

theorem lt_zpow_log2 (n : Nat) : (n : ℚ) < 2 ^ ((n.log2 : Int) + 1) := by
  have hlt : n < 2 ^ (n.log2 + 1) := Nat.lt_log2_self
  exact_mod_cast hlt

/-- The binary logarithms bound a ratio. -/
theorem ratio_lt_zpow (num : Nat) {den : Nat} (hden : 0 < den) :
    (num : ℚ) / den < 2 ^ ((num.log2 : Int) - den.log2 + 1) := by
  have hpos : (0 : ℚ) < den := by exact_mod_cast hden
  rw [div_lt_iff₀ hpos]
  calc (num : ℚ) < 2 ^ ((num.log2 : Int) + 1) := lt_zpow_log2 num
    _ = 2 ^ ((num.log2 : Int) - den.log2 + 1) * 2 ^ (den.log2 : Int) := by
      rw [← zpow_add₀ (by norm_num)]
      congr 1
      omega
    _ ≤ 2 ^ ((num.log2 : Int) - den.log2 + 1) * den := by
      have := zpow_log2_le hden
      gcongr

theorem zpow_lt_ratio {num den : Nat} (hnum : 0 < num) (hden : 0 < den) :
    2 ^ ((num.log2 : Int) - den.log2 - 1) < (num : ℚ) / den := by
  have hpos : (0 : ℚ) < den := by exact_mod_cast hden
  rw [lt_div_iff₀ hpos]
  calc (2 : ℚ) ^ ((num.log2 : Int) - den.log2 - 1) * den
      < 2 ^ ((num.log2 : Int) - den.log2 - 1) * 2 ^ ((den.log2 : Int) + 1) := by
        have := lt_zpow_log2 den
        gcongr
    _ = 2 ^ (num.log2 : Int) := by
      rw [← zpow_add₀ (by norm_num)]
      congr 1
      omega
    _ ≤ num := zpow_log2_le hnum

/-- The logarithms leave two exponents, and one comparison decides between them. -/
theorem lastPlace_unitExponent {num den : Nat} (hnum : 0 < num) (hden : 0 < den) :
    LastPlace ((num : ℚ) / den) (unitExponent num den) := by
  unfold unitExponent
  simp only
  generalize hlow : max (-1074) ((num.log2 : Int) - den.log2 - 53) = low
  have hd : (0 : ℚ) < (unscale num den low).2 := by exact_mod_cast unscale_pos num hden low
  have hvalue := unscale_eq num den low
  have hmax : -1074 ≤ low ∧ (num.log2 : Int) - den.log2 - 53 ≤ low ∧
      (low = -1074 ∨ low = (num.log2 : Int) - den.log2 - 53) := by omega
  -- `low` is the exponent or one less: in its units the ratio has 53 binary digits or 54
  split
  next hlt =>
    refine ⟨hmax.1, ?_, ?_⟩
    · rw [← hvalue, div_lt_iff₀ hd]
      exact_mod_cast hlt
    · rcases hmax.2.2 with h | h
      · exact .inl h
      · right
        have hratio := zpow_lt_ratio hnum hden
        rw [le_div_iff₀ (by positivity), cast_hiddenBit, ← zpow_add₀ (by norm_num)]
        refine le_trans (zpow_le_zpow_right₀ (by norm_num) ?_) hratio.le
        omega
  next hle =>
    have hle : (2 * hiddenBit : ℚ) ≤ (num : ℚ) / den / 2 ^ low := by
      rw [← hvalue, le_div_iff₀ hd]
      exact_mod_cast Nat.le_of_not_lt hle
    refine ⟨by omega, ?_, .inr ?_⟩
    · have hratio := ratio_lt_zpow num hden
      rw [div_lt_iff₀ (by positivity), cast_hiddenBit]
      calc (num : ℚ) / den < 2 ^ ((num.log2 : Int) - den.log2 + 1) := hratio
        _ ≤ 2 ^ (1 + 52 + (low + 1)) := zpow_le_zpow_right₀ (by norm_num) (by omega)
        _ = 2 * 2 ^ (52 : Int) * 2 ^ (low + 1) := by
          rw [zpow_add₀ (by norm_num), zpow_add₀ (by norm_num), zpow_one]
    · rw [zpow_add_one₀ (by norm_num), ← div_div]
      linarith

/-! ## The nearest number -/

/-- `Nearest r bits` holds when the nearest number to `r`, of any size, has these bits. -/
def Nearest (r : ℚ) (bits : Nat) : Prop :=
  ∃ (e : Int) (m : Nat), LastPlace r e ∧ RoundsTo (r / 2 ^ e) m ∧
    bits = (e + 1074).toNat * hiddenBit + m

theorem RoundsTo.of_nat (n : Nat) : RoundsTo n n :=
  ⟨by linarith, by linarith, by rintro (h | h) <;> linarith⟩

/-- Rounding in units of the last place gives one digit too many at most, by a carry. -/
theorem LastPlace.significand_le {r : ℚ} {e : Int} {m : Nat} (h : LastPlace r e)
    (hm : RoundsTo (r / 2 ^ e) m) : m ≤ 2 * hiddenBit := by
  refine hm.le (RoundsTo.of_nat _) ?_
  push_cast
  exact h.below.le

theorem LastPlace.le_significand {r : ℚ} {e : Int} {m : Nat} (h : LastPlace r e)
    (hm : RoundsTo (r / 2 ^ e) m) : e = -1074 ∨ hiddenBit ≤ m :=
  h.full.imp id fun hfull => (RoundsTo.of_nat _).le hm hfull

/-- A larger value does not have a smaller number next to it. -/
theorem Nearest.le {r s : ℚ} {a b : Nat} (ha : Nearest r a) (hb : Nearest s b) (hr : 0 ≤ r)
    (h : r ≤ s) : a ≤ b := by
  obtain ⟨d, m, hd, hm, rfl⟩ := ha
  obtain ⟨e, k, he, hk, rfl⟩ := hb
  rcases lt_or_eq_of_le (hd.le he hr h) with hlt | rfl
  · -- with the smaller last place the bits end where those with the next place begin
    have hmle := hd.significand_le hm
    have hkle := (he.le_significand hk).resolve_left (by have := hd.lowest; omega)
    obtain ⟨i, rfl⟩ : ∃ i : Nat, e = d + 1 + i := ⟨(e - d - 1).toNat, by omega⟩
    have hlowest := hd.lowest
    have hnat : (d + 1 + (i : Int) + 1074).toNat = (d + 1074).toNat + 1 + i := by omega
    rw [hnat, Nat.add_mul, Nat.add_mul]
    omega
  · have hmk := hm.le hk (by gcongr)
    omega

theorem nearest_unique {r : ℚ} {a b : Nat} (ha : Nearest r a) (hb : Nearest r b) (hr : 0 ≤ r) :
    a = b :=
  Nat.le_antisymm (ha.le hb hr le_rfl) (hb.le ha hr le_rfl)

/-- Every positive ratio has a nearest number, which is the one that is computed. -/
theorem exists_nearest {num den : Nat} (hnum : 0 < num) (hden : 0 < den) :
    ∃ bits, Nearest ((num : ℚ) / den) bits ∧ nearestMagnitude num den = min infinityBits bits := by
  refine ⟨_, ⟨unitExponent num den, _, lastPlace_unitExponent hnum hden, ?_, rfl⟩, rfl⟩
  rw [← unscale_eq]
  exact roundsTo_roundQuotient _ (unscale_pos num hden _)

theorem Nearest.nearestMagnitude {num den bits : Nat} (h : Nearest ((num : ℚ) / den) bits)
    (hnum : 0 < num) (hden : 0 < den) : nearestMagnitude num den = min infinityBits bits := by
  obtain ⟨bits', h', hmin⟩ := exists_nearest hnum hden
  rw [hmin, nearest_unique h h' (by positivity)]

/-- Rounding to the nearest number keeps the order. -/
theorem nearestMagnitude_le {num den num' den' : Nat} (hnum : 0 < num) (hden : 0 < den)
    (hden' : 0 < den') (h : num * den' ≤ num' * den) :
    nearestMagnitude num den ≤ nearestMagnitude num' den' := by
  have hnum' : 0 < num' := Nat.pos_of_mul_pos_right (lt_of_lt_of_le (Nat.mul_pos hnum hden') h)
  obtain ⟨a, ha, hmin⟩ := exists_nearest hnum hden
  obtain ⟨b, hb, hmin'⟩ := exists_nearest hnum' hden'
  have hle : (num : ℚ) / den ≤ num' / den' := by
    rw [div_le_div_iff₀ (by exact_mod_cast hden) (by exact_mod_cast hden')]
    exact_mod_cast h
  have hab := ha.le hb (by positivity) hle
  rw [hmin, hmin']
  omega

/-! ## Reading a decimal -/

/-- The number of digits bounds a decimal from above. -/
theorem value_lt (digits : Nat) (e : Int) :
    (digits : ℚ) * 10 ^ e < 10 ^ ((Digits.count digits : Int) + e) := by
  have hdigits : (digits : ℚ) < 10 ^ (Digits.count digits : Int) := by
    have hlt := Digits.lt_tenPow_count digits
    rw [Digits.tenPow_eq] at hlt
    exact_mod_cast hlt
  rw [zpow_add₀ (by norm_num)]
  gcongr

/-- The number of digits bounds a decimal from below. -/
theorem le_value {digits : Nat} (h : digits ≠ 0) (e : Int) :
    (10 : ℚ) ^ ((Digits.count digits : Int) + e - 1) ≤ digits * 10 ^ e := by
  have hdigits : (10 : ℚ) ^ ((Digits.count digits : Int) - 1) ≤ digits := by
    have hle := Digits.tenPow_count_pred_le h
    have hpos := Digits.count_pos digits
    rw [Digits.tenPow_eq] at hle
    rw [show (Digits.count digits : Int) - 1 = ((Digits.count digits - 1 : Nat) : Int) by omega,
      zpow_natCast]
    exact_mod_cast hle
  rw [show (Digits.count digits : Int) + e - 1 = Digits.count digits - 1 + e by omega,
    zpow_add₀ (by norm_num)]
  gcongr

/-- A power of two that is no smaller than the normal numbers is a number of the format. -/
theorem nearest_zpow {e : Int} (he : -1074 ≤ e) :
    Nearest ((2 : ℚ) ^ (52 + e)) ((e + 1074).toNat * hiddenBit + hiddenBit) := by
  have hquotient : (2 : ℚ) ^ (52 + e) / 2 ^ e = hiddenBit := by
    rw [zpow_add₀ (by norm_num), mul_div_cancel_right₀ _ (by positivity), cast_hiddenBit]
  refine ⟨e, hiddenBit, ⟨he, ?_, .inr hquotient.ge⟩, ?_, rfl⟩
  · rw [hquotient]
    norm_num [hiddenBit]
  · rw [hquotient]
    exact RoundsTo.of_nat _

/-- The first power of two that is too large has the bits of infinity. -/
theorem nearest_infinity : Nearest ((2 : ℚ) ^ (1024 : Int)) infinityBits :=
  nearest_zpow (e := 972) (by decide)

/-- What is less than half of the smallest number has the bits of zero. -/
theorem nearest_zero : Nearest ((2 : ℚ) ^ (-1076 : Int)) 0 := by
  have hquotient : (2 : ℚ) ^ (-1076 : Int) / 2 ^ (-1074 : Int) = 1 / 4 := by
    rw [← zpow_sub₀ (by norm_num)]
    norm_num
  refine ⟨-1074, 0, ⟨by decide, ?_, .inl rfl⟩, ?_, by decide⟩
  · rw [hquotient]
    norm_num [hiddenBit]
  · rw [hquotient]
    exact ⟨by norm_num, by norm_num, fun _ => rfl⟩

/-- What has more than 309 digits before the point is too large. -/
theorem largest_le : (2 : ℚ) ^ (1024 : Int) ≤ 10 ^ (309 : Int) := by
  have h : 2 ^ 1024 ≤ 10 ^ 309 := by decide +kernel
  exact_mod_cast h

/-- What has only zeros in 324 places behind the point is too small. -/
theorem le_smallest : (10 : ℚ) ^ (-324 : Int) ≤ 2 ^ (-1076 : Int) := by
  have h : 2 ^ 1076 ≤ 10 ^ 324 := by decide +kernel
  rw [zpow_neg, zpow_neg]
  apply inv_anti₀ (by positivity)
  exact_mod_cast h

theorem ofRatio_of_nearest {negative : Bool} {num den bits : Nat} (hnum : 0 < num) (hden : 0 < den)
    (h : Nearest ((num : ℚ) / den) bits) :
    ofRatio negative num den = ofMagnitude negative (min infinityBits bits) := by
  unfold ofRatio
  rw [if_neg hnum.ne', h.nearestMagnitude hnum hden]

/-- A decimal is read as the number nearest to it, however long its digits and exponent are. -/
theorem ofDecimal_of_nearest {negative : Bool} {digits bits : Nat} {e : Int} (hdigits : digits ≠ 0)
    (h : Nearest ((digits : ℚ) * 10 ^ e) bits) :
    ofDecimal negative digits e = ofMagnitude negative (min infinityBits bits) := by
  have hpos : 0 < digits := Nat.pos_of_ne_zero hdigits
  unfold ofDecimal
  simp only
  rw [if_neg hdigits]
  -- outside of the bounds the order of values decides, inside them the algorithm does
  split
  next hlarge =>
    have hle : infinityBits ≤ bits := by
      refine nearest_infinity.le h (by positivity) ?_
      calc (2 : ℚ) ^ (1024 : Int) ≤ 10 ^ (309 : Int) := largest_le
        _ ≤ 10 ^ ((Digits.count digits : Int) + e - 1) :=
          zpow_le_zpow_right₀ (by norm_num) (by omega)
        _ ≤ digits * 10 ^ e := le_value hdigits e
    rw [Nat.min_eq_left hle]
    rfl
  next =>
    split
    next hsmall =>
      have hle : bits ≤ 0 := by
        refine h.le nearest_zero (by positivity) ?_
        calc (digits : ℚ) * 10 ^ e ≤ 10 ^ ((Digits.count digits : Int) + e) := (value_lt digits e).le
          _ ≤ 10 ^ (-324 : Int) := zpow_le_zpow_right₀ (by norm_num) (by omega)
          _ ≤ 2 ^ (-1076 : Int) := le_smallest
      rw [Nat.le_zero.mp hle]
      rfl
    next =>
      split
      next hnonneg =>
        obtain ⟨n, rfl⟩ := Int.eq_ofNat_of_zero_le hnonneg
        rw [Int.toNat_natCast, Digits.tenPow_eq]
        apply ofRatio_of_nearest (by positivity) Nat.one_pos
        push_cast
        rwa [div_one, ← zpow_natCast]
      next hneg =>
        obtain ⟨n, hn⟩ := Int.eq_ofNat_of_zero_le (show 0 ≤ -e by omega)
        rw [hn, Int.toNat_natCast, Digits.tenPow_eq]
        apply ofRatio_of_nearest hpos (by positivity)
        rw [show e = -(n : Int) by omega, zpow_neg, zpow_natCast] at h
        push_cast
        rwa [div_eq_mul_inv]

end RecordQuery.Binary64
