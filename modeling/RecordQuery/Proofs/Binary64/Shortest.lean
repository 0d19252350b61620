import RecordQuery.Binary64.Shortest
import RecordQuery.Proofs.Binary64.Nearest

/-!
# The shortest digits read back

The interval of a number is a part of what rounds to that number, the search ends with a decimal in the
interval after seventeen digits at the latest, and moving zeros into the exponent keeps the value.
-/

namespace RecordQuery.Binary64

/-- The value of a decimal. -/
def Decimals.value (d : Decimals) : ℚ :=
  d.digits * 10 ^ d.exponent

/-- Moving zeros into the exponent keeps the value. -/
theorem strip_value (d : Decimals) (steps : Nat) : (d.strip steps).value = d.value := by
  induction steps generalizing d with
  | zero => rfl
  | succ steps ih =>
      unfold Decimals.strip
      split
      next h =>
        rw [ih]
        unfold Decimals.value
        simp only
        obtain ⟨n, hn⟩ := Nat.dvd_of_mod_eq_zero h.2
        rw [hn, Nat.mul_div_cancel_left n (by decide), zpow_add_one₀ (by norm_num)]
        push_cast
        ring
      next => rfl

/-! ## The interval of a number -/

/-- `i.Contains x` holds when `x` is in the interval. -/
def Interval.Contains (i : Interval) (x : ℚ) : Prop :=
  if i.closed then (i.low : ℚ) ≤ x * i.denominator ∧ x * i.denominator ≤ i.high
  else (i.low : ℚ) < x * i.denominator ∧ x * i.denominator < i.high

theorem holds_iff (i : Interval) (n : Nat) : i.holds n = true ↔ i.Contains n := by
  unfold Interval.holds Interval.Contains
  simp only
  split
  · simp only [Bool.and_eq_true, decide_eq_true_eq]
    exact_mod_cast Iff.rfl
  · simp only [Bool.and_eq_true, decide_eq_true_eq]
    exact_mod_cast Iff.rfl

/-- A value is in the rescaled interval when it is in the interval at its own scale. -/
theorem contains_rescale (i : Interval) (e : Int) (x : ℚ) :
    (i.rescale e).Contains x ↔ i.Contains (x * 10 ^ e) := by
  unfold Interval.rescale Interval.Contains
  split
  next h =>
    obtain ⟨n, rfl⟩ := Int.eq_ofNat_of_zero_le h
    simp only [Int.toNat_natCast, Digits.tenPow_eq, zpow_natCast]
    push_cast
    rw [show x * ((i.denominator : ℚ) * 10 ^ n) = x * 10 ^ n * i.denominator by ring]
  next h =>
    obtain ⟨n, hn⟩ := Int.eq_ofNat_of_zero_le (show 0 ≤ -e by omega)
    have he : e = -(n : Int) := by omega
    subst he
    have hpow : (0 : ℚ) < 10 ^ n := by positivity
    have hx : x * (10 : ℚ) ^ (-(n : Int)) * i.denominator = x * i.denominator / 10 ^ n := by
      rw [zpow_neg, zpow_natCast]
      ring
    simp only [neg_neg, Int.toNat_natCast, Digits.tenPow_eq, hx]
    push_cast
    rw [le_div_iff₀ hpow, div_le_iff₀ hpow, lt_div_iff₀ hpow, div_lt_iff₀ hpow]

theorem holds_of_nearestInteger? {i : Interval} {n : Nat} (h : i.nearestInteger? = some n) :
    i.holds n = true := by
  unfold Interval.nearestInteger? at h
  simp only at h
  split at h <;> grind

/-- An interval wider than one holds an integer next to its center. -/
theorem nearestInteger?_ne_none {i : Interval} (hpos : 0 < i.denominator)
    (hlow : i.low < i.center) (hhigh : i.center < i.high)
    (hwidth : i.low + i.denominator < i.high) : i.nearestInteger? ≠ none := by
  intro hnone
  have hbelow := Nat.div_mul_le_self i.center i.denominator
  have habove := Nat.lt_div_mul_add hpos (a := i.center)
  have houts : i.holds (i.center / i.denominator) = false ∧
      i.holds (i.center / i.denominator + 1) = false := by
    unfold Interval.nearestInteger? at hnone
    simp only at hnone
    split at hnone <;> grind
  obtain ⟨hout, hout'⟩ := houts
  unfold Interval.holds at hout hout'
  simp only [Nat.add_mul, Nat.one_mul] at hout hout'
  generalize i.center / i.denominator * i.denominator = a at *
  -- the center lies between the two integers, so the interval would fit between them as well
  split at hout <;> split at hout' <;>
    simp only [Bool.and_eq_false_iff, decide_eq_false_iff_not] at hout hout' <;> omega

/-! ## The parts of a finite number -/

/-- `Parts m e` holds when `m * 2 ^ e` is a finite number of the format other than zero. -/
structure Parts (m : Nat) (e : Int) : Prop where
  pos : 0 < m
  below : m < 2 * hiddenBit
  lowest : -1074 ≤ e
  highest : e ≤ 971
  full : e = -1074 ∨ hiddenBit ≤ m

/-- The bits of a rounded significand are those of the parts, unless a carry went into the next exponent. -/
theorem Parts.eq_or_carried {m q : Nat} {k e : Int} (h : Parts m k) (he : -1074 ≤ e) (hq : hiddenBit ≤ q)
    (hq' : q ≤ 2 * hiddenBit)
    (hbits : (k + 1074).toNat * hiddenBit + m = (e + 1074).toNat * hiddenBit + q) :
    (k = e ∧ m = q) ∨ (k = e + 1 ∧ 2 * m = q) := by
  have hlowest := h.lowest
  have hbelow := h.below
  have hfull := h.full
  unfold hiddenBit at *
  omega

/-- How far the interval reaches below a number, in quarters of its last place. -/
def quartersBelow (m : Nat) (e : Int) : Nat :=
  if m = hiddenBit ∧ -1074 < e then 1 else 2

theorem interval_denominator_pos (m : Nat) (e : Int) : 0 < (interval m e).denominator := by
  unfold interval
  simp only
  split
  · exact Nat.one_pos
  · exact twoPow_pos _

/-- The interval in units of the last place of the number. -/
theorem interval_unit (m : Nat) (e : Int) :
    ∃ factor : Nat, 0 < factor ∧ (interval m e).low = (4 * m - quartersBelow m e) * factor ∧
      (interval m e).center = 4 * m * factor ∧ (interval m e).high = (4 * m + 2) * factor ∧
      (factor : ℚ) / (interval m e).denominator = 2 ^ e / 4 := by
  refine ⟨_, ?_, rfl, rfl, rfl, ?_⟩
  · split
    · exact twoPow_pos _
    · exact Nat.one_pos
  · have hpow : (2 : ℚ) ^ e / 4 = 2 ^ (e - 2) := by
      rw [zpow_sub₀ (by norm_num)]
      norm_num
    rw [hpow]
    show ((if 0 ≤ e - 2 then twoPow (e - 2).toNat else 1 : Nat) : ℚ) /
      (if 0 ≤ e - 2 then 1 else twoPow (-(e - 2)).toNat : Nat) = _
    split
    next h =>
      obtain ⟨n, hn⟩ := Int.eq_ofNat_of_zero_le h
      rw [hn, Int.toNat_natCast, twoPow_eq, zpow_natCast]
      simp
    next h =>
      obtain ⟨n, hn⟩ := Int.eq_ofNat_of_zero_le (show 0 ≤ -(e - 2) by omega)
      have he : e - 2 = -(n : Int) := by omega
      rw [he, neg_neg, Int.toNat_natCast, twoPow_eq, zpow_neg, zpow_natCast]
      simp

theorem quartersBelow_le (m : Nat) (e : Int) : quartersBelow m e ≤ 2 := by
  unfold quartersBelow
  split <;> omega

/-- The decimals in the interval of a number lie within half a unit of its last place. -/
theorem interval_contains {m : Nat} {e : Int} (hm : 0 < m) {x : ℚ} (h : (interval m e).Contains x) :
    (m : ℚ) - quartersBelow m e / 4 ≤ x / 2 ^ e ∧ x / 2 ^ e ≤ m + 1 / 2 ∧
      (m % 2 ≠ 0 → (m : ℚ) - quartersBelow m e / 4 < x / 2 ^ e ∧ x / 2 ^ e < m + 1 / 2) := by
  obtain ⟨factor, hfactor, hlow, -, hhigh, hunit⟩ := interval_unit m e
  have hden : (0 : ℚ) < (interval m e).denominator := by exact_mod_cast interval_denominator_pos m e
  have hfactor : (0 : ℚ) < factor := by exact_mod_cast hfactor
  have hpow : (0 : ℚ) < 2 ^ e := by positivity
  have hx : x * (interval m e).denominator = 4 * (x / 2 ^ e) * factor := by
    rw [div_eq_div_iff hden.ne' (by norm_num)] at hunit
    rw [mul_assoc, div_mul_eq_mul_div, ← mul_div_assoc, eq_div_iff hpow.ne']
    calc x * (interval m e).denominator * 2 ^ e = x * (2 ^ e * (interval m e).denominator) := by ring
      _ = x * (factor * 4) := by rw [hunit]
      _ = 4 * (x * factor) := by ring
  have hcast : ((4 * m - quartersBelow m e : Nat) : ℚ) = 4 * m - quartersBelow m e := by
    have := quartersBelow_le m e
    rw [Nat.cast_sub (by omega)]
    push_cast
    rfl
  unfold Interval.Contains at h
  rw [hlow, hhigh, hx] at h
  push_cast [hcast] at h
  split at h
  next heven =>
    have hlower := le_of_mul_le_mul_right h.1 hfactor
    have hupper := le_of_mul_le_mul_right h.2 hfactor
    refine ⟨by linarith, by linarith, fun hodd => absurd ?_ hodd⟩
    simpa [interval] using heven
  next hodd =>
    have hlower := lt_of_mul_lt_mul_right h.1 hfactor.le
    have hupper := lt_of_mul_lt_mul_right h.2 hfactor.le
    exact ⟨by linarith, by linarith, fun _ => ⟨by linarith, by linarith⟩⟩

/-- What is in the interval of a number rounds to that number. -/
theorem nearest_of_contains {m : Nat} {e : Int} (h : Parts m e) {x : ℚ}
    (hx : (interval m e).Contains x) : Nearest x ((e + 1074).toNat * hiddenBit + m) := by
  obtain ⟨hlower, hupper, hodd⟩ := interval_contains h.pos hx
  have hbelow : (m : ℚ) + 1 ≤ 2 * hiddenBit := by exact_mod_cast h.below
  have hquarters : (quartersBelow m e : ℚ) ≤ 2 := by exact_mod_cast quartersBelow_le m e
  have hrounds : RoundsTo (x / 2 ^ e) m := by
    refine ⟨by linarith, hupper, fun htie => ?_⟩
    by_contra hne
    obtain ⟨hlt, hgt⟩ := hodd hne
    rcases htie with htie | htie <;> linarith
  by_cases hfull : e = -1074 ∨ (hiddenBit : ℚ) ≤ x / 2 ^ e
  · exact ⟨e, m, ⟨h.lowest, by linarith, hfull⟩, hrounds, rfl⟩
  · -- Just below a power of two the last place is half as large, and the carry makes up for it.
    obtain ⟨hne, hlt⟩ := not_or.mp hfull
    have hm : m = hiddenBit := by
      have hle := h.full.resolve_left hne
      by_contra hm
      have hsucc : (hiddenBit : ℚ) + 1 ≤ m := by exact_mod_cast Nat.lt_of_le_of_ne hle (Ne.symm hm)
      linarith
    have hone : quartersBelow m e = 1 := if_pos ⟨hm, by have := h.lowest; omega⟩
    have hdouble : x / 2 ^ (e - 1) = 2 * (x / 2 ^ e) := by
      rw [zpow_sub_one₀ (by norm_num)]
      field_simp
    rw [hone, hm] at hlower
    push_cast at hlower
    refine ⟨e - 1, 2 * hiddenBit, ⟨by have := h.lowest; omega, by linarith, .inr ?_⟩, ?_, ?_⟩
    · rw [hdouble]
      have : (1 : ℚ) ≤ hiddenBit := by norm_num [hiddenBit]
      linarith
    · rw [hdouble]
      refine ⟨by push_cast; linarith, by push_cast; linarith, fun _ => by omega⟩
    · have hlowest := h.lowest
      obtain ⟨n, hn⟩ := Int.eq_ofNat_of_zero_le (show 0 ≤ e - 1 + 1074 by omega)
      rw [show (e + 1074).toNat = n + 1 by omega, show (e - 1 + 1074).toNat = n by omega, hm,
        Nat.add_mul]
      omega

/-! ## The exponent of the leading digit -/

/-- The test by which an exponent is raised. -/
theorem zpow_le_of_reached {num den : Nat} (hden : 0 < den) {e : Int}
    (h : if 0 ≤ e then den * tenPow e.toNat ≤ num else den ≤ num * tenPow (-e).toNat) :
    (10 : ℚ) ^ e ≤ (num : ℚ) / den := by
  have hpos : (0 : ℚ) < den := by exact_mod_cast hden
  rw [le_div_iff₀ hpos]
  split at h
  next hnonneg =>
    obtain ⟨n, rfl⟩ := Int.eq_ofNat_of_zero_le hnonneg
    rw [Int.toNat_natCast, Digits.tenPow_eq] at h
    rw [zpow_natCast, mul_comm]
    exact_mod_cast h
  next hneg =>
    obtain ⟨n, hn⟩ := Int.eq_ofNat_of_zero_le (show 0 ≤ -e by omega)
    rw [hn, Int.toNat_natCast, Digits.tenPow_eq] at h
    rw [show e = -(n : Int) by omega, zpow_neg, zpow_natCast, inv_mul_le_iff₀ (by positivity),
      mul_comm]
    exact_mod_cast h

/-- The power of ten never exceeds the ratio. -/
theorem raiseExponent_le {num den : Nat} (hden : 0 < den) (steps : Nat) {e : Int}
    (h : (10 : ℚ) ^ e ≤ (num : ℚ) / den) :
    (10 : ℚ) ^ raiseExponent num den steps e ≤ (num : ℚ) / den := by
  induction steps generalizing e with
  | zero => exact h
  | succ steps ih =>
      unfold raiseExponent
      simp only
      by_cases hreached : if 0 ≤ e + 1 then den * tenPow (e + 1).toNat ≤ num
          else den ≤ num * tenPow (-(e + 1)).toNat
      · rw [if_pos hreached]
        exact ih (zpow_le_of_reached hden hreached)
      · rw [if_neg hreached]
        exact h

/-- The first guess at the leading exponent does not exceed the power of two it is made from. -/
theorem guess_le {k : Int} (hlow : -1080 ≤ k) (hhigh : k ≤ 1030) :
    (10 : ℚ) ^ (k * 30103 / 100000 - 1) ≤ 2 ^ k := by
  -- both sides are computed for every exponent that a number of the format can have
  have hpositive : ∀ n < 1031, 10 ^ (n * 30103 / 100000 - 1) ≤ 2 ^ n := by decide +kernel
  have hnegative : ∀ n < 1081, 2 ^ n ≤ 10 ^ ((n * 30103 + 99999) / 100000 + 1) := by decide +kernel
  rcases Int.le_total 0 k with h | h
  · obtain ⟨n, rfl⟩ := Int.eq_ofNat_of_zero_le h
    have hn := hpositive n (by omega)
    calc (10 : ℚ) ^ ((n : Int) * 30103 / 100000 - 1)
        ≤ 10 ^ ((n * 30103 / 100000 - 1 : Nat) : Int) :=
          zpow_le_zpow_right₀ (by norm_num) (by omega)
      _ ≤ 2 ^ (n : Int) := by
          rw [zpow_natCast, zpow_natCast]
          exact_mod_cast hn
  · obtain ⟨n, hn⟩ := Int.eq_ofNat_of_zero_le (show 0 ≤ -k by omega)
    have hpow := hnegative n (by omega)
    rw [show k = -(n : Int) by omega,
      show -(n : Int) * 30103 / 100000 - 1 = -(((n * 30103 + 99999) / 100000 + 1 : Nat) : Int) by omega,
      zpow_neg, zpow_neg, zpow_natCast, zpow_natCast]
    apply inv_anti₀ (by positivity)
    exact_mod_cast hpow

/-- For the numbers of the format the leading exponent is not too large. -/
theorem leadingExponent_le {num den : Nat} (hnum : 0 < num) (hden : 0 < den)
    (hlow : (2 : ℚ) ^ (-1074 : Int) ≤ num / den) (hhigh : (num : ℚ) / den < 2 ^ (1024 : Int)) :
    (10 : ℚ) ^ leadingExponent num den ≤ (num : ℚ) / den := by
  have hlower := zpow_lt_ratio hnum hden
  have hupper := ratio_lt_zpow num hden
  have hmax := (zpow_lt_zpow_iff_right₀ (show (1 : ℚ) < 2 by norm_num)).mp (hlower.trans hhigh)
  have hmin := (zpow_lt_zpow_iff_right₀ (show (1 : ℚ) < 2 by norm_num)).mp (hlow.trans_lt hupper)
  exact raiseExponent_le hden 4 ((guess_le (by omega) (by omega)).trans hlower.le)

/-! ## The search -/

/-- If seventeen digits are enough, then what is found is in the interval. -/
theorem contains_searchDigits {i : Interval} {leading : Int}
    (hlast : (i.rescale (leading - 16)).nearestInteger? ≠ none) {tries count : Nat} (h : 0 < tries)
    (hcount : tries + count = 18) : i.Contains (searchDigits i leading tries count).value := by
  induction tries generalizing count with
  | zero => omega
  | succ tries ih =>
      unfold searchDigits
      simp only
      split
      next digits hdigits =>
        exact (contains_rescale _ _ _).mp ((holds_iff _ _).mp (holds_of_nearestInteger? hdigits))
      next hnone =>
        -- the last try is the one with seventeen digits
        cases tries with
        | zero =>
            have hcount : count = 17 := by omega
            subst hcount
            rw [show leading - ((17 : Nat) : Int) + 1 = leading - 16 by omega] at hnone
            exact absurd hnone hlast
        | succ tries => exact ih (by omega) (by omega)

theorem rescale_denominator_pos {i : Interval} (h : 0 < i.denominator) (e : Int) :
    0 < (i.rescale e).denominator := by
  unfold Interval.rescale
  split
  · exact Nat.mul_pos h (tenPow_pos _)
  · exact h

/-- Rescaling divides all values by the power. -/
theorem rescale_unit (i : Interval) (e : Int) :
    ∃ factor : Nat, 0 < factor ∧ (i.rescale e).low = i.low * factor ∧
      (i.rescale e).center = i.center * factor ∧ (i.rescale e).high = i.high * factor ∧
      ((i.rescale e).denominator : ℚ) = i.denominator * factor * 10 ^ e := by
  unfold Interval.rescale
  split
  next h =>
    obtain ⟨n, rfl⟩ := Int.eq_ofNat_of_zero_le h
    refine ⟨1, Nat.one_pos, by simp, by simp, by simp, ?_⟩
    simp [Digits.tenPow_eq]
  next h =>
    obtain ⟨n, hn⟩ := Int.eq_ofNat_of_zero_le (show 0 ≤ -e by omega)
    refine ⟨tenPow n, tenPow_pos _, by rw [hn]; rfl, by rw [hn]; rfl, by rw [hn]; rfl, ?_⟩
    show (i.denominator : ℚ) = _
    rw [show e = -(n : Int) by omega, Digits.tenPow_eq, zpow_neg, zpow_natCast]
    push_cast
    field_simp

/-- The numbers of the format other than zero and infinity. -/
theorem value_bounds {m : Nat} {e : Int} (h : Parts m e) :
    (2 : ℚ) ^ (-1074 : Int) ≤ m * 2 ^ e ∧ (m : ℚ) * 2 ^ e < 2 ^ (1024 : Int) := by
  constructor
  · calc (2 : ℚ) ^ (-1074 : Int) ≤ 2 ^ e := zpow_le_zpow_right₀ (by norm_num) h.lowest
      _ ≤ m * 2 ^ e := le_mul_of_one_le_left (by positivity) (by exact_mod_cast h.pos)
  · have hm : (m : ℚ) < 2 ^ (53 : Int) := by
      have hbelow : (m : ℚ) < (2 * hiddenBit : Nat) := by exact_mod_cast h.below
      refine hbelow.trans_eq ?_
      norm_num [hiddenBit]
    calc (m : ℚ) * 2 ^ e < 2 ^ (53 : Int) * 2 ^ e := by gcongr
      _ = 2 ^ (53 + e) := (zpow_add₀ (by norm_num) _ _).symm
      _ ≤ 2 ^ (1024 : Int) := zpow_le_zpow_right₀ (by norm_num) (by have := h.highest; omega)

theorem interval_center (m : Nat) (e : Int) :
    ((interval m e).center : ℚ) / (interval m e).denominator = m * 2 ^ e := by
  obtain ⟨factor, -, -, hcenter, -, hunit⟩ := interval_unit m e
  rw [hcenter]
  push_cast
  rw [mul_div_assoc, hunit]
  ring

/-- The seventeenth digit counts for less than the width of the interval. -/
theorem seventeenth_lt {m : Nat} {e leading : Int} (h : Parts m e)
    (hleading : (10 : ℚ) ^ leading ≤ m * 2 ^ e) :
    (10 : ℚ) ^ (leading - 16) < (quartersBelow m e + 2) * (2 ^ e / 4) := by
  have hdigits : 4 * m < (quartersBelow m e + 2) * 10 ^ 16 := by
    have hbelow := h.below
    unfold quartersBelow
    unfold hiddenBit at *
    split <;> omega
  have hdigits : (4 : ℚ) * m < (quartersBelow m e + 2) * 10 ^ 16 := by exact_mod_cast hdigits
  rw [zpow_sub₀ (by norm_num), div_lt_iff₀ (by positivity)]
  calc (10 : ℚ) ^ leading ≤ m * 2 ^ e := hleading
    _ = 4 * m * (2 ^ e / 4) := by ring
    _ < (quartersBelow m e + 2) * 10 ^ 16 * (2 ^ e / 4) := by gcongr
    _ = (quartersBelow m e + 2) * (2 ^ e / 4) * 10 ^ (16 : Int) := by
      rw [show (10 : ℚ) ^ (16 : Int) = 10 ^ 16 from zpow_natCast 10 16]
      ring

/-- Seventeen digits are enough for every number. -/
theorem contains_shortest {m : Nat} {e : Int} (h : Parts m e) :
    (interval m e).Contains (shortest m e).value := by
  have hden := interval_denominator_pos m e
  have hdenq : (0 : ℚ) < (interval m e).denominator := by exact_mod_cast hden
  obtain ⟨factor, hfactor, hlow, hcenter, hhigh, hunit⟩ := interval_unit m e
  have hvalue := interval_center m e
  have hleading : (10 : ℚ) ^ leadingExponent (interval m e).center (interval m e).denominator ≤
      m * 2 ^ e := by
    obtain ⟨hmin, hmax⟩ := value_bounds h
    rw [← hvalue] at hmin hmax ⊢
    have hcenterpos : 0 < (interval m e).center := by
      rw [hcenter]
      have := h.pos
      positivity
    exact leadingExponent_le hcenterpos hden hmin hmax
  unfold shortest
  simp only
  rw [strip_value]
  refine contains_searchDigits ?_ (by decide) rfl
  generalize leadingExponent (interval m e).center (interval m e).denominator = leading at hleading
  obtain ⟨scale, hscale, hlow', hcenter', hhigh', hden'⟩ := rescale_unit (interval m e) (leading - 16)
  have hquarters : 1 ≤ quartersBelow m e ∧ quartersBelow m e ≤ 2 := by
    unfold quartersBelow
    split <;> omega
  have hm := h.pos
  apply nearestInteger?_ne_none (rescale_denominator_pos hden _)
  · rw [hlow', hcenter', hlow, hcenter]
    gcongr
    omega
  · rw [hcenter', hhigh', hcenter, hhigh]
    gcongr
    omega
  · have hlt := seventeenth_lt h hleading
    rw [← hunit, mul_div_assoc', lt_div_iff₀ hdenq] at hlt
    have hcast : ((4 * m - quartersBelow m e : Nat) : ℚ) = 4 * m - quartersBelow m e := by
      rw [Nat.cast_sub (by omega)]
      push_cast
      rfl
    have hwidth : (((interval m e).rescale (leading - 16)).low : ℚ) +
        ((interval m e).rescale (leading - 16)).denominator <
          ((interval m e).rescale (leading - 16)).high := by
      rw [hlow', hhigh', hden', hlow, hhigh]
      push_cast [hcast]
      have hscale : (0 : ℚ) < scale := by exact_mod_cast hscale
      nlinarith
    exact_mod_cast hwidth

/-! ## Reading back -/

/-- The shortest decimal of a finite number is read as that number. -/
theorem ofDecimal_shortest {m : Nat} {e : Int} (h : Parts m e) (negative : Bool) :
    (shortest m e).digits ≠ 0 ∧
      ofDecimal negative (shortest m e).digits (shortest m e).exponent =
        ofMagnitude negative (min infinityBits ((e + 1074).toNat * hiddenBit + m)) := by
  have hcontains := contains_shortest h
  have hnearest := nearest_of_contains h hcontains
  have hne : (shortest m e).digits ≠ 0 := by
    intro hzero
    obtain ⟨hlower, -, -⟩ := interval_contains h.pos hcontains
    have hquarters : (quartersBelow m e : ℚ) ≤ 2 := by exact_mod_cast quartersBelow_le m e
    have hm : (1 : ℚ) ≤ m := by exact_mod_cast h.pos
    unfold Decimals.value at hlower
    rw [hzero] at hlower
    norm_num at hlower
    linarith
  exact ⟨hne, ofDecimal_of_nearest hne hnearest⟩

end RecordQuery.Binary64
