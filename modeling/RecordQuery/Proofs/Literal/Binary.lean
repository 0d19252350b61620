import RecordQuery.Proofs.Binary64.Bits
import RecordQuery.Proofs.Binary64.Shortest
import RecordQuery.Proofs.Literal.Readable
/-!
# Binary numbers as literals

A decimal with decimal places stays in the decimal range, because rounding to the nearest number keeps
the order of values. A number outside the range is printed as a numeral with an exponent, which is read
as the same number: the shortest digits of a finite number lie in its interval, and an infinity is
printed as a number that is too large.
-/

namespace RecordQuery

namespace Binary64

/-- A finite number other than zero has the parts that its bits are made of. -/
theorem shape_ofMagnitude {bits : Nat} (hpos : 0 < bits) (hlt : bits < infinityBits)
    (negative : Bool) :
    ∃ m e, shape (ofMagnitude negative bits) = .finite negative m e ∧ Parts m e ∧
      (e + 1074).toNat * hiddenBit + m = bits := by
  have hfield : bits / hiddenBit < 2047 := by
    rw [Nat.div_lt_iff_lt_mul (by decide)]
    exact hlt
  have hfraction : bits % hiddenBit < hiddenBit := Nat.mod_lt _ (by decide)
  have hsplit := Nat.div_add_mod bits hiddenBit
  unfold shape
  rw [magnitudeBits_ofMagnitude hlt.le, isNegative_ofMagnitude hlt.le]
  simp only
  rw [if_neg hfield.ne]
  generalize bits / hiddenBit = field at *
  generalize bits % hiddenBit = fraction at *
  cases field with
  | zero =>
      refine ⟨_, _, if_pos rfl, ⟨by omega, by omega, by omega, by omega, .inl rfl⟩, ?_⟩
      show 0 * hiddenBit + fraction = bits
      omega
  | succ field =>
      refine ⟨_, _, if_neg (Nat.succ_ne_zero _),
        ⟨by omega, by omega, by omega, by omega, .inr (by omega)⟩, ?_⟩
      have hnat : (((field + 1 : Nat) : Int) - 1075 + 1074).toNat = field := by omega
      rw [Nat.mul_succ] at hsplit
      rw [hnat, Nat.mul_comm]
      omega

/-- The digits of a decimal as a numeral with one digit in front of the point. -/
def Decimals.numeral (d : Decimals) (negative : Bool) : Numeral where
  negative := negative
  whole := (Digits.render d.digits).take 1
  fraction := (Digits.render d.digits).drop 1
  exponent := some (d.exponent + (Digits.render d.digits).length - 1)
  whole_ne_nil := by
    have := Digits.render_ne_nil d.digits
    simp [this]
  isDigit_whole := fun c hc => Digits.isDigit_of_mem_render (List.mem_of_mem_take hc)
  isDigit_fraction := fun c hc => Digits.isDigit_of_mem_render (List.mem_of_mem_drop hc)
  length_whole := by
    have := Digits.count_pos d.digits
    right
    rw [List.length_take]
    unfold Digits.count at this
    omega

theorem text_numeral (d : Decimals) (negative : Bool) :
    (d.numeral negative).text = (signText negative ++ exponential 'E' d).toList := by
  have hmagnitude : (d.numeral negative).magnitude = (exponential 'E' d).toList := by
    unfold Numeral.magnitude Numeral.fractionText Numeral.exponentText Decimals.numeral exponential
    obtain ⟨c, cs, hdigits⟩ := List.exists_cons_of_ne_nil (Digits.render_ne_nil d.digits)
    simp only [hdigits]
    cases cs <;> simp [pointed]
  rw [String.toList_append, ← hmagnitude]
  unfold Numeral.text
  cases negative <;> rfl

theorem digits_numeral (d : Decimals) (negative : Bool) : (d.numeral negative).digits = d.digits := by
  show Digits.value (_ ++ _) = _
  rw [← Digits.value_render d.digits]
  congr 1
  exact List.take_append_drop 1 _

theorem lastExponent_numeral (d : Decimals) (negative : Bool) :
    (d.numeral negative).lastExponent = d.exponent := by
  have hcount := Digits.count_pos d.digits
  unfold Digits.count at hcount
  show d.exponent + (Digits.render d.digits).length - 1 - ((Digits.render d.digits).drop 1).length = _
  rw [List.length_drop]
  omega

theorem form_of_exponent {n : Numeral} {e : Int} (h : n.exponent = some e) :
    n.form = .fractional := by
  unfold Numeral.form
  rw [if_neg]
  rintro ⟨-, hnone⟩
  rw [h] at hnone
  cases hnone

/-- The text of a finite number other than zero is a numeral that is read as that number. -/
theorem exists_numeral_of_finite {bits : Nat} (hpos : 0 < bits) (hlt : bits < infinityBits)
    (negative : Bool) :
    ∃ n : Numeral, (scientific (ofMagnitude negative bits)).toList = n.text ∧
      n.form = .fractional ∧
        ofDecimal n.negative n.digits n.lastExponent = ofMagnitude negative bits := by
  obtain ⟨m, e, hshape, hparts, hbits⟩ := shape_ofMagnitude hpos hlt negative
  obtain ⟨-, hread⟩ := ofDecimal_shortest hparts negative
  refine ⟨(shortest m e).numeral negative, ?_, form_of_exponent rfl, ?_⟩
  · rw [text_numeral]
    unfold scientific exponentText
    rw [hshape]
    simp only
    rw [if_neg hparts.pos.ne']
  · rw [digits_numeral, lastExponent_numeral]
    show ofDecimal negative _ _ = _
    rw [hread, hbits, Nat.min_eq_right hlt.le]

/-- A numeral that is too large for the format. -/
def infiniteNumeral (negative : Bool) : Numeral where
  negative := negative
  whole := ['1']
  fraction := []
  exponent := some 999
  whole_ne_nil := List.cons_ne_nil _ _
  isDigit_whole := fun c hc => by rw [List.mem_singleton.mp hc]; rfl
  isDigit_fraction := Numeral.isDigit_of_mem_nil
  length_whole := .inr rfl

theorem ofDecimal_infiniteNumeral (negative : Bool) :
    ofDecimal negative (infiniteNumeral negative).digits (infiniteNumeral negative).lastExponent =
      infinity negative := by
  show ofDecimal negative 1 999 = _
  unfold ofDecimal
  simp only
  rw [if_neg Nat.one_ne_zero, if_pos (by decide)]

/-- Zero as a numeral with an exponent. -/
def zeroNumeral (negative : Bool) : Numeral where
  negative := negative
  whole := ['0']
  fraction := []
  exponent := some 0
  whole_ne_nil := List.cons_ne_nil _ _
  isDigit_whole := Numeral.isDigit_of_mem_zero
  isDigit_fraction := Numeral.isDigit_of_mem_nil
  length_whole := .inr rfl

theorem text_zeroNumeral (negative : Bool) :
    (scientific (zero negative)).toList = (zeroNumeral negative).text := by
  have hshape : shape (zero negative) = .finite negative 0 (-1074) := by
    cases negative <;> decide
  unfold scientific exponentText
  rw [hshape]
  cases negative <;> rfl

end Binary64

namespace Literal

/-- A number is printed as a numeral that is read as that number. -/
theorem exists_numeral {x : Float} (hx : Binary64.IsNumber x) :
    ∃ n : Numeral, (floatText x).toList = n.text ∧ n.form = .fractional ∧
      Binary64.ofDecimal n.negative n.digits n.lastExponent = x := by
  obtain ⟨negative, bits, hle, rfl⟩ := hx
  have hmagnitude : Binary64.magnitudeBits (Binary64.ofMagnitude negative bits) = bits :=
    Binary64.magnitudeBits_ofMagnitude hle
  unfold floatText Binary64.isInfinite
  rw [hmagnitude, Binary64.isNegative_ofMagnitude hle]
  rcases Nat.lt_or_eq_of_le hle with hlt | rfl
  · rw [if_neg (by simpa using hlt.ne)]
    rcases Nat.eq_zero_or_pos bits with rfl | hpos
    · exact ⟨Binary64.zeroNumeral negative, Binary64.text_zeroNumeral negative,
        Binary64.form_of_exponent rfl, rfl⟩
    · exact Binary64.exists_numeral_of_finite hpos hlt negative
  · rw [if_pos (by simp)]
    refine ⟨Binary64.infiniteNumeral negative, ?_, Binary64.form_of_exponent rfl,
      Binary64.ofDecimal_infiniteNumeral negative⟩
    cases negative <;> rfl

/-- A ratio from `10 ^ -28` on is in the decimal range when it is rounded below the ceiling. -/
theorem exceedsDecimal_ofRatio {negative : Bool} {num den : Nat} (hnum : 0 < num) (hden : 0 < den)
    (hlow : den ≤ num * tenPow 28) : exceedsDecimal (Binary64.ofRatio negative num den) =
      decide (Binary64.magnitudeBits decimalCeiling ≤ Binary64.nearestMagnitude num den) := by
  have hfloor : Binary64.magnitudeBits decimalFloor ≤ Binary64.nearestMagnitude num den := by
    have hbits : Binary64.magnitudeBits decimalFloor =
        Binary64.nearestMagnitude 1 (tenPow 28) := by decide
    rw [hbits]
    exact Binary64.nearestMagnitude_le Nat.one_pos (tenPow_pos 28) hden (by omega)
  have hle : Binary64.nearestMagnitude num den ≤ Binary64.infinityBits := Nat.min_le_left _ _
  have hnot : ¬ Binary64.nearestMagnitude num den < Binary64.magnitudeBits decimalFloor := by omega
  unfold exceedsDecimal Binary64.ofRatio
  rw [if_neg hnum.ne', Binary64.magnitudeBits_ofMagnitude hle]
  simp only [decide_eq_false hnot, Bool.and_false, Bool.or_false]

/-- A ratio from `10 ^ -28` up to `10 ^ 28` is in the decimal range. -/
theorem not_exceedsDecimal_ofRatio {negative : Bool} {num den : Nat} (hnum : 0 < num)
    (hden : 0 < den) (hlow : den ≤ num * tenPow 28) (hhigh : num ≤ tenPow 28 * den) :
    exceedsDecimal (Binary64.ofRatio negative num den) = false := by
  have hceiling : Binary64.nearestMagnitude num den < Binary64.magnitudeBits decimalCeiling := by
    have hbits : Binary64.nearestMagnitude (tenPow 28) 1 < Binary64.magnitudeBits decimalCeiling := by
      decide
    exact Nat.lt_of_le_of_lt
      (Binary64.nearestMagnitude_le hnum hden (by decide) (by rwa [Nat.mul_one])) hbits
  rw [exceedsDecimal_ofRatio hnum hden hlow]
  exact decide_eq_false (Nat.not_le_of_lt hceiling)

/-- A number up to `10 ^ 28` with 28 decimal places at most is in the decimal range. -/
theorem not_exceedsDecimal_ofDecimal (negative : Bool) {digits places : Nat} (hplaces : places ≤ 28)
    (hhigh : digits ≤ tenPow 28 * tenPow places) :
    exceedsDecimal (Binary64.ofDecimal negative digits (-(places : Int))) = false := by
  have hcount := Digits.count_pos digits
  -- so few digits are inside the bounds that are looked at first
  have hfew : Digits.count digits ≤ 57 := by
    rw [Digits.count_le_iff (by decide)]
    have hpow : tenPow places ≤ tenPow 28 := Nat.pow_le_pow_right (by decide) hplaces
    calc digits ≤ tenPow 28 * tenPow places := hhigh
      _ ≤ tenPow 28 * tenPow 28 := Nat.mul_le_mul_left _ hpow
      _ < tenPow 57 := by decide
  unfold Binary64.ofDecimal
  simp only
  by_cases hzero : digits = 0
  · rw [if_pos hzero]
    cases negative <;> decide
  · have hpos : 0 < digits := Nat.pos_of_ne_zero hzero
    have hlow : tenPow places ≤ digits * tenPow 28 :=
      calc tenPow places ≤ tenPow 28 := Nat.pow_le_pow_right (by decide) hplaces
        _ ≤ digits * tenPow 28 := Nat.le_mul_of_pos_left _ hpos
    have hratio : exceedsDecimal (Binary64.ofRatio negative digits (tenPow places)) = false :=
      not_exceedsDecimal_ofRatio hpos (tenPow_pos places) hlow hhigh
    rw [if_neg hzero, if_neg (by omega), if_neg (by omega)]
    split
    next hnonneg =>
      have hnone : places = 0 := by omega
      subst hnone
      rw [tenPow_zero] at hratio
      simpa using hratio
    next => rwa [neg_neg, Int.toNat_natCast]

/-- A decimal with decimal places is in the decimal range. -/
theorem not_exceedsDecimal {d : Decimal} (h : d.scale ≠ 0) :
    exceedsDecimal (Binary64.ofDecimal d.negative d.coefficient (-(d.scale : Int))) = false := by
  refine not_exceedsDecimal_ofDecimal d.negative d.scale_le ?_
  have hpow : tenPow 1 ≤ tenPow d.scale := Nat.pow_le_pow_right (by decide) (Nat.pos_of_ne_zero h)
  calc d.coefficient ≤ Decimal.coefficientBound := d.coefficient_lt.le
    _ ≤ tenPow 28 * tenPow 1 := by decide
    _ ≤ tenPow 28 * tenPow d.scale := Nat.mul_le_mul_left _ hpow

end Literal

end RecordQuery
