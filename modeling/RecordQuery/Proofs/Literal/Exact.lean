import RecordQuery.Proofs.Literal.Written
import RecordQuery.Proofs.Number.Width
import RecordQuery.Proofs.Value.Keys
import Mathlib.Data.List.TakeWhile
/-!
# Numbers that are exactly what is written

A text is typed as a number exactly when it is a numeral, whatever white space is around it
(`Literal.isNumber_iff`): the forms that are tried first, and those that are tried last, give no numbers.

A numeral of up to 28 digits without an exponent stands for a number that a decimal holds, with as many
decimal places as are written: its digits are below `10 ^ 28` and so below the bound on coefficients, and
its number is in the decimal range. So nothing is rounded, and no binary number comes in
(`WrittenNumeral.exactly_typed`).
-/

namespace RecordQuery

namespace Literal

/-! ## What has the form of a numeral -/

theorem exists_writtenExponent {text : List Char} (h : isExponent text = true) :
    ∃ e : WrittenExponent, e.text = text := by
  -- the three cases differ in the sign only
  have hwritten : ∀ {mark : Char} {digits : List Char} (sign : Option Bool),
      (Decimal.isExponentMark mark && (Digits.natural? digits).isSome) = true →
        ∃ e : WrittenExponent, e.sign = sign ∧ e.text = mark :: (e.signText ++ digits) := by
    intro mark digits sign hform
    rw [Bool.and_eq_true, Decimal.isExponentMark, Bool.or_eq_true, beq_iff_eq, beq_iff_eq] at hform
    obtain ⟨n, hn⟩ := Option.isSome_iff_exists.mp hform.2
    obtain ⟨hne, hdigits, -⟩ := Digits.natural?_eq_some_iff.mp hn
    refine ⟨⟨mark == 'E', sign, digits, hne, hdigits⟩, rfl, ?_⟩
    rcases hform.1 with rfl | rfl <;> rfl
  unfold isExponent at h
  split at h
  next =>
    obtain ⟨e, hsign, htext⟩ := hwritten (some false) h
    exact ⟨e, by rw [htext, WrittenExponent.signText, hsign]; rfl⟩
  next =>
    obtain ⟨e, hsign, htext⟩ := hwritten (some true) h
    exact ⟨e, by rw [htext, WrittenExponent.signText, hsign]; rfl⟩
  next =>
    obtain ⟨e, hsign, htext⟩ := hwritten none h
    exact ⟨e, by rw [htext, WrittenExponent.signText, hsign]; rfl⟩
  next => cases h

/-- Behind the digits stands an exponent or nothing. -/
theorem exists_exponentText {rest : List Char} (h : rest = [] ∨ isExponent rest = true) :
    ∃ exponent : Option WrittenExponent, ∀ w : WrittenNumeral, w.exponent = exponent →
      w.exponentText = rest := by
  rcases h with rfl | h
  · refine ⟨none, fun w hw => ?_⟩
    rw [WrittenNumeral.exponentText, hw]
  · obtain ⟨e, he⟩ := exists_writtenExponent h
    refine ⟨some e, fun w hw => ?_⟩
    rw [WrittenNumeral.exponentText, hw]
    exact he

theorem isDigit_of_mem_split (text : List Char) : ∀ c ∈ (Digits.split text).1, c.isDigit = true :=
  fun _ hc => List.mem_takeWhile_imp hc

/-- A text of unsigned form is the magnitude of a numeral of either sign. -/
theorem exists_writtenMagnitude {text : List Char} {f : NumeralForm} (negative : Bool)
    (h : unsignedForm? text = some f) :
    ∃ w : WrittenNumeral, w.negative = negative ∧ w.magnitude = text := by
  have hsplit := Digits.split_append text
  have hwhole := isDigit_of_mem_split text
  unfold unsignedForm? at h
  generalize Digits.split text = parts at h hsplit hwhole
  obtain ⟨whole, rest⟩ := parts
  simp only at h hsplit hwhole
  split at h
  next => cases h
  next hne =>
  rw [List.isEmpty_iff] at hne
  split at h
  next =>
    refine ⟨⟨negative, whole, [], none, hne, hwhole, Numeral.isDigit_of_mem_nil⟩, rfl, ?_⟩
    rw [← hsplit]
    rfl
  next behind =>
    have hsplit' := Digits.split_append behind
    have hfraction := isDigit_of_mem_split behind
    generalize Digits.split behind = parts at h hsplit' hfraction
    obtain ⟨fraction, rest⟩ := parts
    simp only at h hsplit' hfraction
    split at h
    next hform =>
      rw [Bool.and_eq_true, Bool.or_eq_true, Bool.not_eq_true', List.isEmpty_eq_false_iff,
        List.isEmpty_iff] at hform
      obtain ⟨exponent, hexponent⟩ := exists_exponentText hform.2
      refine ⟨⟨negative, whole, fraction, exponent, hne, hwhole, hfraction⟩, rfl, ?_⟩
      rw [WrittenNumeral.magnitude, WrittenNumeral.fractionText, if_neg hform.1, hexponent _ rfl,
        List.cons_append, hsplit', hsplit]
    next => cases h
  next =>
    split at h
    next hform =>
      obtain ⟨exponent, hexponent⟩ := exists_exponentText (.inr hform)
      refine ⟨⟨negative, whole, [], exponent, hne, hwhole, Numeral.isDigit_of_mem_nil⟩, rfl, ?_⟩
      rw [WrittenNumeral.magnitude, WrittenNumeral.fractionText, if_pos rfl, hexponent _ rfl,
        List.nil_append, hsplit]
    next => cases h

/-- A text of the form of a numeral is one. -/
theorem exists_characters {text : List Char} {f : NumeralForm} (h : numeralForm? text = some f) :
    ∃ w : WrittenNumeral, text = w.characters := by
  unfold numeralForm? at h
  split at h
  next =>
    obtain ⟨w, hnegative, rfl⟩ := exists_writtenMagnitude true h
    exact ⟨w, by rw [WrittenNumeral.characters, if_pos hnegative]⟩
  next =>
    obtain ⟨w, hnegative, rfl⟩ := exists_writtenMagnitude false h
    exact ⟨w, by rw [WrittenNumeral.characters, if_neg (by rw [hnegative]; exact Bool.false_ne_true)]⟩

/-! ## What is typed as a number -/

theorem not_isNumber_ofQuoted (text : String) : ¬(ofQuoted text).IsNumber := by
  unfold ofQuoted
  split
  · exact id
  · split <;> exact id

theorem exists_form_of_isNumber {text : List Char} (h : (ofBare text).IsNumber) :
    ∃ f, numeralForm? text = some f := by
  unfold ofBare at h
  split at h
  · exact h.elim
  · split at h
    · split at h <;> exact h.elim
    · split at h
      next hform => exact ⟨.whole, hform⟩
      next hform => exact ⟨.fractional, hform⟩
      next => exact (not_isNumber_ofQuoted _ h).elim

/-- White space around a text does not count. -/
theorem ofText_of_trim {a b : String} (h : Unicode.trim a.toList = Unicode.trim b.toList) :
    ofText a = ofText b := by
  unfold ofText
  simp only [h]

theorem ofText_of_characters {raw : String} {w : WrittenNumeral}
    (h : Unicode.trim raw.toList = w.characters) : ofText raw = ofForm w.form w.characters := by
  have htrim : Unicode.trim w.characters = w.characters :=
    Unicode.trim_eq_self (fun _ hc => w.not_isBlank (List.mem_of_mem_head? hc))
      fun _ hc => w.not_isBlank (List.mem_of_getLast? hc)
  rw [← w.ofText_text]
  refine ofText_of_trim ?_
  rw [h, WrittenNumeral.text, String.toList_ofList, htrim]

/-- A text is typed as a number exactly when it is a numeral. -/
theorem isNumber_iff (raw : String) :
    (ofText raw).IsNumber ↔ ∃ w : WrittenNumeral, Unicode.trim raw.toList = w.characters := by
  refine ⟨fun h => ?_, fun ⟨w, hw⟩ => ?_⟩
  · unfold ofText at h
    simp only at h
    split at h
    next => exact (not_isNumber_ofQuoted _ h).elim
    next =>
      obtain ⟨f, hform⟩ := exists_form_of_isNumber h
      exact exists_characters hform
  · rw [ofText_of_characters hw]
    exact isNumber_ofForm w.numeralForm?_characters

end Literal

/-! ## The number of a numeral -/

/-- The number that an exponent is. -/
def WrittenExponent.value (e : WrittenExponent) : Int :=
  if e.sign = some true then -(Digits.value e.digits : Int) else Digits.value e.digits

namespace WrittenNumeral

/-- The digits of a numeral in front of its exponent, with its sign. -/
def signed (w : WrittenNumeral) : Int :=
  if w.negative then -(Digits.value (w.whole ++ w.fraction) : Int)
  else Digits.value (w.whole ++ w.fraction)

/-- The number that a numeral stands for. -/
def toRat (w : WrittenNumeral) : ℚ :=
  w.signed / tenPow w.fraction.length * 10 ^ (w.exponent.elim 0 WrittenExponent.value)

variable {w : WrittenNumeral}

theorem toRat_of_positional (h : w.exponent = none) : w.toRat = w.signed / tenPow w.fraction.length := by
  rw [toRat, h]
  show _ * (10 : ℚ) ^ (0 : Int) = _
  rw [zpow_zero, mul_one]

theorem toRat_of_whole (h : w.exponent = none) (hwhole : w.fraction = []) : w.toRat = w.signed := by
  rw [toRat_of_positional h, hwhole]
  show (w.signed : ℚ) / (tenPow 0 : Nat) = _
  rw [tenPow_zero, Nat.cast_one, div_one]

/-- The integer that is read is the one that is written. -/
theorem wholeValue_characters (h : w.exponent = none) (hwhole : w.fraction = []) :
    Literal.wholeValue w.characters = w.signed := by
  have hmagnitude : w.magnitude = w.whole := by
    rw [magnitude, fractionText, exponentText, h, if_pos hwhole, List.append_nil, List.append_nil]
  unfold characters signed
  rw [hmagnitude, hwhole, List.append_nil]
  split
  · rfl
  · obtain ⟨c, cs, hcs⟩ := List.exists_cons_of_ne_nil w.whole_ne_nil
    have hc := w.isDigit_whole c (by rw [hcs]; simp)
    rw [hcs]
    unfold Literal.wholeValue
    split
    next heq =>
      cases heq
      exact absurd hc (by decide)
    next => rfl

/-! ## Up to 28 digits -/

theorem digits_lt (hlength : w.whole.length + w.fraction.length ≤ 28) :
    w.positional.digits < tenPow 28 := by
  have hlt : w.positional.digits < tenPow (w.whole ++ w.fraction).length := by
    refine Digits.value_lt fun c hc => ?_
    rcases List.mem_append.mp hc with hc | hc
    · exact w.isDigit_whole c hc
    · exact w.isDigit_fraction c hc
  rw [List.length_append] at hlt
  exact Nat.lt_of_lt_of_le hlt (Nat.pow_le_pow_right (by decide) hlength)

/-- A numeral of up to 28 digits is read as the decimal that it stands for. -/
theorem ofNumeral_characters (h : w.exponent = none)
    (hlength : w.whole.length + w.fraction.length ≤ 28) :
    ∃ d, Literal.ofNumeral w.characters = .decimal d ∧ d.toRat = w.toRat ∧
      d.scale = w.fraction.length := by
  have hdigits := digits_lt hlength
  have hplaces : w.fraction.length ≤ 28 := Nat.le_trans (Nat.le_add_left _ _) hlength
  have hbound : w.positional.digits < Decimal.coefficientBound := Nat.lt_trans hdigits (by decide)
  obtain ⟨d, hd⟩ : ∃ d, Decimal.ofParts? (w.negative && w.positional.digits != 0)
      w.positional.digits w.fraction.length = some d := by
    rw [Decimal.ofParts?, dif_pos ⟨hbound, hplaces⟩]
    exact ⟨_, rfl⟩
  have hread : Decimal.read? w.positional.text = some d := by
    rw [Decimal.read?_of_positional rfl, Decimal.readFrom?_magnitude rfl hbound hplaces]
    exact hd
  have hrange : Literal.exceedsDecimal
      (Binary64.ofDecimal w.negative w.positional.digits (-(w.fraction.length : Int))) = false :=
    Literal.not_exceedsDecimal_ofDecimal w.negative hplaces
      (Nat.le_trans hdigits.le (Nat.le_mul_of_pos_right _ (tenPow_pos _)))
  have hlast : w.positional.lastExponent = -(w.fraction.length : Int) :=
    Numeral.lastExponent_of_positional rfl
  obtain ⟨hnegative, hcoefficient, hscale⟩ := Decimal.ofParts?_eq_some.mp hd
  refine ⟨d, ?_, ?_, hscale⟩
  · rw [characters_of_positional h]
    unfold Literal.ofNumeral
    simp only [Numeral.read?_text, hlast, hread]
    show (if Literal.exceedsDecimal (Binary64.ofDecimal w.negative _ _) = true then _ else _) = _
    rw [hrange]
    rfl
  · -- a zero has lost its sign, which does not change what it stands for
    have hsigned : d.signed = w.signed := by
      unfold Decimal.signed signed
      rw [hnegative, hcoefficient]
      show (if (w.negative && Digits.value (w.whole ++ w.fraction) != 0) = true then _ else _) = _
      cases w.negative with
      | false => rfl
      | true =>
          by_cases hzero : Digits.value (w.whole ++ w.fraction) = 0
          · simp [Numeral.digits, positional, hzero]
          · simp [Numeral.digits, positional, hzero]
    rw [toRat_of_positional h, Decimal.toRat, hsigned, hscale]

/-- A whole numeral is an integer if 64 bits hold its number. -/
theorem ofText_of_integer {raw : String} (hraw : Unicode.trim raw.toList = w.characters)
    (h : w.exponent = none) (hwhole : w.fraction = []) {n : Int64} (hn : (n.toInt : ℚ) = w.toRat) :
    Literal.ofText raw = .integer n := by
  rw [toRat_of_whole h hwhole, Int.cast_inj] at hn
  have hform : w.form = .whole := if_pos ⟨hwhole, h⟩
  rw [Literal.ofText_of_characters hraw, hform]
  show Literal.ofWhole w.characters = _
  rw [Literal.ofWhole, wholeValue_characters h hwhole, ← hn, integer64?_toInt]

/-- Any other numeral of up to 28 digits is the decimal that it stands for. -/
theorem ofText_of_decimal {raw : String} (hraw : Unicode.trim raw.toList = w.characters)
    (h : w.exponent = none) (hlength : w.whole.length + w.fraction.length ≤ 28)
    (hnone : w.fraction = [] → ∀ n : Int64, (n.toInt : ℚ) ≠ w.toRat) :
    ∃ d, Literal.ofText raw = .decimal d ∧ d.toRat = w.toRat ∧ d.scale = w.fraction.length := by
  obtain ⟨d, hd, hparts⟩ := ofNumeral_characters h hlength
  refine ⟨d, ?_, hparts⟩
  rw [Literal.ofText_of_characters hraw]
  by_cases hwhole : w.fraction = []
  · have hlarge : integer64? w.signed = none := by
      cases hn : integer64? w.signed with
      | none => rfl
      | some n =>
          refine absurd ?_ (hnone hwhole n)
          rw [toInt_of_integer64? hn, toRat_of_whole h hwhole]
    have hform : w.form = .whole := if_pos ⟨hwhole, h⟩
    rw [hform]
    show Literal.ofWhole w.characters = _
    rw [Literal.ofWhole, wholeValue_characters h hwhole, hlarge]
    exact hd
  · have hform : w.form = .fractional := if_neg fun hboth => hwhole hboth.1
    rw [hform]
    exact hd

/-- **Numerals are typed exactly.** A text is typed as an integer, a decimal or a binary number exactly when
it is a numeral in the ten digits, up to white space around it. If the numeral has no exponent and 28 digits
at most, then it is the integer that it stands for, if it has no fraction and 64 bits hold that integer; and
otherwise the decimal that it stands for, with as many decimal places as are written. -/
theorem exactly_typed (raw : String) :
    ((Literal.ofText raw).IsNumber ↔ ∃ w : WrittenNumeral, Unicode.trim raw.toList = w.characters) ∧
    ∀ w : WrittenNumeral, Unicode.trim raw.toList = w.characters → w.exponent = none →
      w.whole.length + w.fraction.length ≤ 28 →
        (∀ n : Int64, w.fraction = [] → (n.toInt : ℚ) = w.toRat → Literal.ofText raw = .integer n) ∧
        ((w.fraction = [] → ∀ n : Int64, (n.toInt : ℚ) ≠ w.toRat) →
          ∃ d, Literal.ofText raw = .decimal d ∧ d.toRat = w.toRat ∧ d.scale = w.fraction.length) := by
  refine ⟨Literal.isNumber_iff raw, fun w hraw hexponent hlength => ⟨fun n hwhole hn => ?_, ?_⟩⟩
  · exact ofText_of_integer hraw hexponent hwhole hn
  · exact ofText_of_decimal hraw hexponent hlength

/-- A half below zero, with one zero more than it needs on either side. -/
def half : WrittenNumeral where
  negative := true
  whole := "00".toList
  fraction := "50".toList
  exponent := none
  whole_ne_nil := by decide
  isDigit_whole := List.all_eq_true.mp rfl
  isDigit_fraction := List.all_eq_true.mp rfl

theorem toRat_half : half.toRat = -1 / 2 := by
  rw [toRat_of_positional rfl]
  show ((-50 : Int) : ℚ) / (100 : Nat) = _
  norm_num

theorem exactly_typed_of_half :
    Unicode.trim " -00.50\n".toList = half.characters ∧ half.exponent = none ∧
      half.whole.length + half.fraction.length ≤ 28 ∧ (Literal.ofText " -00.50\n").IsNumber ∧
      ∃ d, Literal.ofText " -00.50\n" = .decimal d ∧ d.toRat = -1 / 2 ∧ d.scale = 2 := by
  have htrim : Unicode.trim " -00.50\n".toList = half.characters := by decide
  have hlength : half.whole.length + half.fraction.length ≤ 28 := by decide
  obtain ⟨hnumber, htyped⟩ := exactly_typed " -00.50\n"
  obtain ⟨d, hd, hvalue, hscale⟩ := (htyped half htrim rfl hlength).2 fun h => absurd h (by decide)
  exact ⟨htrim, rfl, hlength, hnumber.mpr ⟨half, htrim⟩, d, hd, hvalue.trans toRat_half, hscale⟩

end WrittenNumeral

end RecordQuery
