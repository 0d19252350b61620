import RecordQuery.Proofs.Literal.Reread
/-!
# Numerals as they are written

A numeral in a query is an optional minus sign, digits, an optional fraction and an optional exponent with a
mark of either case and a sign (`WrittenNumeral`). It is typed as an integer, a decimal or a binary number,
and that literal is printed as a numeral of its own. Whether the literal comes back from there is decided by
the literal alone (`WrittenNumeral.comes_back_iff`).

A numeral without an exponent is a binary number only outside the decimal range: within it, reading digit by
digit ends with a decimal whatever the digits are (`Decimal.exists_readFrom?_places`). So what can go wrong
there is one thing, a fraction that rounds up to the ceiling of the range.
-/

namespace RecordQuery

/-- An exponent as it is written. -/
structure WrittenExponent where
  capital : Bool
  /-- the sign, if one is written, and whether it is a minus -/
  sign : Option Bool
  digits : List Char
  digits_ne_nil : digits ≠ []
  isDigit_digits : ∀ c ∈ digits, c.isDigit = true

/-- A numeral as it is written. -/
structure WrittenNumeral where
  negative : Bool
  whole : List Char
  /-- the digits behind the point, if there is one -/
  fraction : List Char
  exponent : Option WrittenExponent
  whole_ne_nil : whole ≠ []
  isDigit_whole : ∀ c ∈ whole, c.isDigit = true
  isDigit_fraction : ∀ c ∈ fraction, c.isDigit = true

/-- The sign of an exponent, if one is written. -/
def WrittenExponent.signText (e : WrittenExponent) : List Char :=
  match e.sign with
  | some true => ['-']
  | some false => ['+']
  | none => []

/-- The exponent with its mark. -/
def WrittenExponent.text (e : WrittenExponent) : List Char :=
  (if e.capital then 'E' else 'e') :: (e.signText ++ e.digits)

namespace WrittenNumeral

/-- The fraction with its point. -/
def fractionText (w : WrittenNumeral) : List Char :=
  if w.fraction = [] then [] else '.' :: w.fraction

/-- The exponent, if there is one. -/
def exponentText (w : WrittenNumeral) : List Char :=
  match w.exponent with
  | some e => e.text
  | none => []

/-- The numeral without its sign. -/
def magnitude (w : WrittenNumeral) : List Char :=
  w.whole ++ (w.fractionText ++ w.exponentText)

/-- The characters of a numeral. -/
def characters (w : WrittenNumeral) : List Char :=
  if w.negative then '-' :: w.magnitude else w.magnitude

/-- The text of a numeral. -/
def text (w : WrittenNumeral) : String :=
  String.ofList w.characters

/-- The form of a numeral. -/
def form (w : WrittenNumeral) : Literal.NumeralForm :=
  if w.fraction = [] ∧ w.exponent = none then .whole else .fractional

variable (w : WrittenNumeral)

/-! ## How a numeral is typed -/

theorem isExponent_text (e : WrittenExponent) : Literal.isExponent e.text = true := by
  have hdigits := Digits.natural?_of_digits e.digits_ne_nil e.isDigit_digits
  have hmark : Decimal.isExponentMark (if e.capital then 'E' else 'e') = true := by
    cases e.capital <;> rfl
  unfold WrittenExponent.text WrittenExponent.signText
  match hsign : e.sign with
  | some true => simp [Literal.isExponent, hmark, hdigits]
  | some false => simp [Literal.isExponent, hmark, hdigits]
  | none =>
      -- without a sign the exponent starts with a digit, which is none
      obtain ⟨d, ds, hds⟩ := List.exists_cons_of_ne_nil e.digits_ne_nil
      have hd := e.isDigit_digits d (by rw [hds]; simp)
      rw [hds] at hdigits ⊢
      rw [List.nil_append]
      unfold Literal.isExponent
      split
      next heq =>
        cases heq
        exact absurd hd (by decide)
      next heq =>
        cases heq
        exact absurd hd (by decide)
      next heq =>
        cases heq
        rw [hmark, hdigits]
        rfl
      next heq => cases heq

theorem exponentText_eq_nil_iff : w.exponentText = [] ↔ w.exponent = none := by
  unfold exponentText
  cases w.exponent with
  | none => simp
  | some e => simp [WrittenExponent.text]

theorem numeralForm?_characters : Literal.numeralForm? w.characters = some w.form := by
  have hmagnitude : Literal.unsignedForm? w.magnitude = some w.form := by
    have hexponent : w.exponentText = [] ∨ Literal.isExponent w.exponentText = true := by
      unfold exponentText
      cases w.exponent with
      | none => exact .inl rfl
      | some e => exact .inr (isExponent_text e)
    have hparts := Literal.unsignedForm?_of_parts w.whole_ne_nil w.isDigit_whole w.isDigit_fraction
      hexponent
    simp only [exponentText_eq_nil_iff] at hparts
    exact hparts
  obtain ⟨c, cs, hcs⟩ := List.exists_cons_of_ne_nil w.whole_ne_nil
  have hc := w.isDigit_whole c (by rw [hcs]; simp)
  unfold characters
  split
  · exact hmagnitude
  · rw [← hmagnitude]
    unfold Literal.numeralForm? magnitude
    rw [hcs, List.cons_append]
    split
    next heq =>
      cases heq
      exact absurd hc (by decide)
    next => rfl

/-- The characters of a numeral are digits, points, marks and signs. -/
theorem mem_characters {c : Char} (h : c ∈ w.characters) :
    c.isDigit = true ∨ c ∈ ['-', '.', 'e', 'E', '+'] := by
  have hexponent : ∀ {c}, c ∈ w.exponentText → c.isDigit = true ∨ c ∈ ['-', '.', 'e', 'E', '+'] := by
    intro c hc
    unfold exponentText at hc
    split at hc
    next e _ =>
      unfold WrittenExponent.text at hc
      rcases List.mem_cons.mp hc with rfl | hc
      · cases e.capital <;> simp
      · rcases List.mem_append.mp hc with hc | hc
        · unfold WrittenExponent.signText at hc
          split at hc
          · simp [List.mem_singleton.mp hc]
          · simp [List.mem_singleton.mp hc]
          · cases hc
        · exact .inl (e.isDigit_digits c hc)
    next => cases hc
  have hmagnitude : ∀ {c}, c ∈ w.magnitude → c.isDigit = true ∨ c ∈ ['-', '.', 'e', 'E', '+'] := by
    intro c hc
    unfold magnitude fractionText at hc
    rcases List.mem_append.mp hc with hc | hc
    · exact .inl (w.isDigit_whole c hc)
    · rcases List.mem_append.mp hc with hc | hc
      · split at hc
        · cases hc
        · rcases List.mem_cons.mp hc with rfl | hc
          · simp
          · exact .inl (w.isDigit_fraction c hc)
      · exact hexponent hc
  unfold characters at h
  split at h
  · rcases List.mem_cons.mp h with rfl | h
    · simp
    · exact hmagnitude h
  · exact hmagnitude h

theorem not_isBlank {c : Char} (h : c ∈ w.characters) : Unicode.isBlank c = false := by
  rcases w.mem_characters h with hdigit | hmem
  · exact Lexer.not_isBlank_of_isWordChar (Numeral.isWordChar_of_isDigit hdigit)
  · simp only [List.mem_cons, List.not_mem_nil, or_false] at hmem
    rcases hmem with rfl | rfl | rfl | rfl | rfl <;> decide

/-- There is a hyphen in front at most, and one behind the mark. -/
theorem count_hyphen_le : w.characters.count '-' ≤ 2 := by
  have hdigits : ∀ {cs : List Char}, (∀ c ∈ cs, c.isDigit = true) → cs.count '-' = 0 := by
    intro cs h
    exact List.count_eq_zero.mpr fun hmem => absurd (h _ hmem) (by decide)
  have hexponent : w.exponentText.count '-' ≤ 1 := by
    unfold exponentText
    split
    next e _ =>
      have hsign : e.signText.count '-' ≤ 1 := by
        unfold WrittenExponent.signText
        split <;> decide
      unfold WrittenExponent.text
      rw [List.count_cons_of_ne (by cases e.capital <;> decide), List.count_append,
        hdigits e.isDigit_digits]
      exact hsign
    next => exact Nat.zero_le _
  have hmagnitude : w.magnitude.count '-' = w.exponentText.count '-' := by
    have hfraction := hdigits w.isDigit_fraction
    unfold magnitude fractionText
    rw [List.count_append, List.count_append, hdigits w.isDigit_whole]
    split <;> simp [hfraction]
  unfold characters
  split
  · rw [List.count_cons_self]
    omega
  · omega

/-- An identifier of 128 bits has four hyphens. -/
theorem not_isGrouped : Uuid.isGrouped w.characters = false := by
  rw [← Bool.not_eq_true]
  intro h
  have hcount := w.count_hyphen_le
  have hlength := Uuid.length_of_isGrouped h
  unfold Uuid.isGrouped at h
  simp only [Bool.and_eq_true, beq_iff_eq] at h
  have hdigits : (w.characters.filter (· != '-')).length = 32 := h.1.1.2
  have hall := List.length_eq_countP_add_countP (· == '-') (l := w.characters)
  rw [← List.countP_eq_length_filter] at hdigits
  have hrest : w.characters.countP (fun c => decide ¬(c == '-') = true) = 32 := by
    rw [← hdigits]
    exact List.countP_congr fun c _ => by simp
  rw [hrest, hlength] at hall
  unfold List.count at hcount
  omega

/-- A numeral is typed by its form. -/
theorem ofText_text : Literal.ofText w.text = Literal.ofForm w.form w.characters :=
  Literal.ofText_of_form w.numeralForm?_characters (fun _ h => w.not_isBlank h) w.not_isGrouped

end WrittenNumeral

namespace Decimal

/-! ## Reading digit by digit -/

variable {p : Progress}

theorem exists_finish (negative : Bool) (hseen : p.digitSeen = true)
    (hcoefficient : p.coefficient < coefficientBound) (hplaces : p.places ≤ maxScale) :
    ∃ d, p.finish negative = some d := by
  rw [Progress.finish, if_pos hseen, ofParts?, dif_pos ⟨hcoefficient, hplaces⟩]
  exact ⟨_, rfl⟩

/-- A digit without room rounds, unless there is no decimal place to give up. -/
theorem exists_roundOff (negative : Bool) (digit : Nat) (hseen : p.digitSeen = true)
    (hcoefficient : p.coefficient < coefficientBound) (hplaces : p.places ≤ maxScale)
    (hroom : p.places = 0 → p.coefficient + 1 < coefficientBound) :
    ∃ d, p.roundOff negative digit = some d := by
  unfold Progress.roundOff
  split
  next => exact exists_finish negative hseen hcoefficient hplaces
  next =>
    split
    next hlt => exact exists_finish negative hseen hlt hplaces
    next hfull =>
      split
      next hzero => exact absurd (hroom hzero) hfull
      next =>
        refine exists_finish negative hseen ?_ ?_
        · show (p.coefficient + 5) / 10 < coefficientBound
          unfold coefficientBound at *
          omega
        · show p.places - 1 ≤ maxScale
          omega

/-- Digits without room end a numeral. -/
theorem exists_close (negative : Bool) {c : Char} {digits : List Char}
    (hdigits : ∀ d ∈ c :: digits, d.isDigit = true) (hseen : p.digitSeen = true)
    (hcoefficient : p.coefficient < coefficientBound) (hplaces : p.places ≤ maxScale)
    (hroom : p.places = 0 → p.coefficient + 1 < coefficientBound) :
    ∃ d, p.close negative (c :: digits) = some d := by
  have hall : (c :: digits).all isDigitOrGap = true := by
    rw [List.all_eq_true]
    intro d hd
    rw [isDigitOrGap, hdigits d hd, Bool.true_or]
  have hc : c.isDigit = true := hdigits c (by simp)
  have hgap : (c :: digits).dropWhile (· == '_') = c :: digits := by
    refine List.dropWhile_cons_of_neg ?_
    rw [beq_iff_eq]
    rintro rfl
    exact absurd hc (by decide)
  unfold Progress.close
  rw [if_pos hall, hgap, ite_self]
  show ∃ d, (if c.isDigit = true then _ else _) = some d
  rw [if_pos hc]
  exact exists_roundOff negative _ hseen hcoefficient hplaces hroom

/-- Behind the point, reading ends with a decimal whatever the digits are, if the whole part leaves room for
rounding up. -/
theorem exists_readFrom?_places (negative : Bool) {digits : List Char}
    (hdigits : ∀ c ∈ digits, c.isDigit = true) (coefficient places : Nat)
    (hcoefficient : coefficient < coefficientBound) (hplaces : places ≤ maxScale)
    (hroom : places = 0 → coefficient + 1 < coefficientBound) :
    ∃ d, readFrom? negative ⟨coefficient, places, true, true⟩ digits = some d := by
  induction digits generalizing coefficient places with
  | nil => exact exists_finish negative rfl hcoefficient hplaces
  | cons c digits ih =>
      have hclose : ∃ d, Progress.close ⟨coefficient, places, true, true⟩ negative (c :: digits) = some d :=
        exists_close negative hdigits rfl hcoefficient hplaces hroom
      rw [readFrom?_cons]
      split
      next => exact hclose
      next hmore =>
        have hmore : places ≠ maxScale := hmore
        rw [if_pos (hdigits c (by simp))]
        cases hpush : Progress.push? ⟨coefficient, places, true, true⟩ (Digits.digitValue c) with
        | none => exact hclose
        | some p =>
            -- one more place is taken, so from here on there is a place to give up
            unfold Progress.push? at hpush
            simp only at hpush
            split at hpush
            next hlt =>
              cases hpush
              refine ih (fun d hd => hdigits d (by simp [hd])) _ (places + 1) hlt ?_ fun h => ?_
              · omega
              · cases h
            next => cases hpush

end Decimal

namespace Literal

/-- From `leastExceeding` on, a numeral without an exponent is out of the decimal range. -/
theorem exceedsDecimal_of_le (negative : Bool) {digits places : Nat}
    (h : leastExceeding * tenPow places ≤ digits) :
    exceedsDecimal (Binary64.ofDecimal negative digits (-(places : Int))) = true := by
  have hpower := tenPow_pos places
  have hpos : 0 < digits := Nat.lt_of_lt_of_le (Nat.mul_pos (by decide) hpower) h
  have hhuge : exceedsDecimal (Binary64.infinity negative) = true := by
    cases negative <;> decide
  -- the number is not so small that its digits are not looked at
  have hcount : places < Digits.count digits := by
    by_contra hle
    have hlt := (Digits.count_le_iff (n := digits) (k := places + 1) (by omega)).mp (by omega)
    have hten : tenPow (places + 1) = tenPow places * 10 := tenPow_succ places
    have hmul : 10 * tenPow places ≤ leastExceeding * tenPow places := Nat.mul_le_mul_right _ (by decide)
    omega
  unfold Binary64.ofDecimal
  simp only
  rw [if_neg hpos.ne']
  split
  next => exact hhuge
  next =>
    rw [if_neg (by omega)]
    have hratio : exceedsDecimal (Binary64.ofRatio negative digits (tenPow places)) = true := by
      have hlow : tenPow places ≤ digits * tenPow 28 := by
        calc tenPow places ≤ leastExceeding * tenPow places := Nat.le_mul_of_pos_left _ (by decide)
          _ ≤ digits := h
          _ ≤ digits * tenPow 28 := Nat.le_mul_of_pos_right _ (tenPow_pos 28)
      rw [exceedsDecimal_ofRatio hpos hpower hlow, decide_eq_true_eq]
      have hat : Binary64.magnitudeBits decimalCeiling ≤
          Binary64.nearestMagnitude leastExceeding 1 := by decide
      exact hat.trans (Binary64.nearestMagnitude_le (by decide) (by decide) hpower (by omega))
    split
    next hnonneg =>
      have hzero : places = 0 := by omega
      subst hzero
      rw [tenPow_zero] at hratio
      simpa using hratio
    next =>
      rw [neg_neg, Int.toNat_natCast]
      exact hratio

end Literal

namespace Numeral

/-- A numeral without an exponent whose number is in the decimal range is read as a decimal. -/
theorem exists_decimal {n : Numeral} (h : n.exponent = none)
    (hrange : Literal.exceedsDecimal (Binary64.ofDecimal n.negative n.digits n.lastExponent) = false) :
    ∃ d, Decimal.read? n.text = some d := by
  have hdigits : n.digits = tenPow n.fraction.length * Digits.value n.whole + Digits.value n.fraction :=
    Digits.value_append _ _
  have hwhole : Digits.value n.whole < Literal.leastExceeding := by
    by_contra hle
    have hlarge : Literal.leastExceeding * tenPow n.fraction.length ≤ n.digits := by
      rw [hdigits, Nat.mul_comm]
      exact Nat.le_trans (Nat.mul_le_mul_left _ (Nat.le_of_not_lt hle)) (Nat.le_add_right _ _)
    rw [lastExponent_of_positional h, Literal.exceedsDecimal_of_le n.negative hlarge] at hrange
    cases hrange
  have hroom : Digits.value n.whole + 1 < Decimal.coefficientBound :=
    Nat.lt_trans (Nat.succ_lt_succ hwhole) (by decide)
  have hread := @Decimal.readFrom?_whole n.negative _ n.fractionText n.isDigit_whole 0
    false (by rw [Nat.mul_zero, Nat.zero_add]; omega)
  rw [Nat.mul_zero, Nat.zero_add, List.isEmpty_eq_false_iff.mpr n.whole_ne_nil, Bool.not_false,
    Bool.or_true] at hread
  rw [Decimal.read?_of_positional h, magnitude, exponentText, h, List.append_nil, hread]
  unfold fractionText
  split
  next => exact Decimal.exists_finish _ rfl (Nat.lt_of_succ_lt hroom) (Nat.zero_le _)
  next =>
    rw [Decimal.readFrom?_cons, if_neg (show ¬(0 : Nat) = Decimal.maxScale by decide),
      if_neg (by decide), if_pos ⟨rfl, rfl⟩]
    exact Decimal.exists_readFrom?_places _ n.isDigit_fraction _ 0 (Nat.lt_of_succ_lt hroom)
      (Nat.zero_le _) fun _ => hroom

end Numeral

namespace Literal

/-! ## Coming back -/

/-- `l.IsNumber` holds for the three types of literals that numerals are typed as. -/
def IsNumber : Literal → Prop
  | .integer _ | .decimal _ | .float _ => True
  | _ => False

theorem isNumber_ofNumeral {text : List Char} {f : NumeralForm} (h : numeralForm? text = some f) :
    (ofNumeral text).IsNumber := by
  obtain ⟨x, hx, -⟩ := exists_number h
  unfold ofNumeral
  simp only [hx]
  split
  · trivial
  · split <;> trivial

theorem isNumber_ofForm {text : List Char} {f : NumeralForm} (h : numeralForm? text = some f) :
    (ofForm f text).IsNumber := by
  cases f with
  | whole =>
      show (ofWhole text).IsNumber
      unfold ofWhole
      split
      · trivial
      · exact isNumber_ofNumeral h
  | fractional => exact isNumber_ofNumeral h

/-- The text of a number is a numeral by itself, without quotes. -/
theorem IsNumber.ofText_render {l : Literal} (h : l.IsNumber) : ofText l.render = l.reread := by
  cases l with
  | integer n => exact ofText_integer n
  | decimal d => rfl
  | float x => rfl
  | _ => cases h

end Literal

namespace WrittenNumeral

/-- A numeral without an exponent. -/
def positional (w : WrittenNumeral) : Numeral where
  negative := w.negative
  whole := w.whole
  fraction := w.fraction
  exponent := none
  whole_ne_nil := w.whole_ne_nil
  isDigit_whole := w.isDigit_whole
  isDigit_fraction := w.isDigit_fraction
  length_whole := .inl rfl

theorem characters_of_positional {w : WrittenNumeral} (h : w.exponent = none) :
    w.characters = w.positional.text := by
  have hmagnitude : w.magnitude = w.positional.magnitude := by
    unfold magnitude exponentText
    rw [h]
    rfl
  unfold characters
  rw [hmagnitude]
  rfl

/-- A numeral without an exponent is a binary number only outside the decimal range. -/
theorem exceedsDecimal_of_positional {w : WrittenNumeral} (h : w.exponent = none) {x : Float}
    (hx : Literal.ofText w.text = .float x) : Literal.exceedsDecimal x = true := by
  have hnumeral : ∀ y, Literal.ofNumeral w.positional.text = .float y →
      Literal.exceedsDecimal y = true := by
    intro y hy
    unfold Literal.ofNumeral at hy
    simp only [Numeral.read?_text] at hy
    split at hy
    next hexceeds =>
      cases hy
      exact hexceeds
    next hrange =>
      obtain ⟨d, hd⟩ := Numeral.exists_decimal (n := w.positional) rfl (Bool.not_eq_true _ ▸ hrange)
      rw [hd] at hy
      cases hy
  rw [ofText_text, characters_of_positional h] at hx
  cases hform : w.form with
  | whole =>
      rw [hform] at hx
      have hwhole : Literal.ofWhole w.positional.text = .float x := hx
      unfold Literal.ofWhole at hwhole
      split at hwhole
      · cases hwhole
      · exact hnumeral x hwhole
  | fractional =>
      rw [hform] at hx
      exact hnumeral x hx

/-- **Numerals and printing.** The literal that a numeral is typed as comes back from its text with its type
and its value exactly when it survives: a decimal, unless it is whole and as large as the ceiling of the
decimal range; a binary number, if it is outside the decimal range or its text is that of no decimal. Of
numerals without an exponent that leaves one exception, the whole decimals from the ceiling on. -/
theorem comes_back_iff (w : WrittenNumeral) :
    ((Literal.ofText (Literal.ofText w.text).render == Literal.ofText w.text) = true ↔
      (Literal.ofText w.text).Survives) ∧
    (w.exponent = none →
      ((Literal.ofText (Literal.ofText w.text).render == Literal.ofText w.text) = true ↔
        ∀ d, Literal.ofText w.text = .decimal d → d.scale = 0 → d.coefficient < Literal.leastExceeding)) := by
  have hnumber : (Literal.ofText w.text).IsNumber := by
    rw [w.ofText_text]
    exact Literal.isNumber_ofForm w.numeralForm?_characters
  have hiff := (Literal.readable_ofText w.text).reread_beq_iff
  rw [hnumber.ofText_render]
  refine ⟨hiff, fun hexponent => hiff.trans ⟨fun h d hd => ?_, fun h => ?_⟩⟩
  · rw [hd] at h
    exact h
  · cases hl : Literal.ofText w.text with
    | decimal d => exact h d hl
    | float x => exact .inl (exceedsDecimal_of_positional hexponent hl)
    | _ => trivial

/-- Padded on both sides, without an exponent. -/
def padded : WrittenNumeral where
  negative := true
  whole := "012".toList
  fraction := "300".toList
  exponent := none
  whole_ne_nil := by decide
  isDigit_whole := List.all_eq_true.mp rfl
  isDigit_fraction := List.all_eq_true.mp rfl

theorem comes_back_of_padded : padded.text = "-012.300" ∧
    (Literal.ofText (Literal.ofText padded.text).render == Literal.ofText padded.text) = true := by
  have hsurvives : (Literal.ofText padded.text).Survives := by decide +kernel
  refine ⟨by decide +kernel, (padded.comes_back_iff.2 rfl).mpr fun d hd => ?_⟩
  rw [hd] at hsurvives
  exact hsurvives

/-- The least decimal other than zero, with a zero more than it has room for. -/
def least : WrittenNumeral where
  negative := false
  whole := "1".toList
  fraction := "0".toList
  exponent := some ⟨true, some true, "28".toList, by decide, List.all_eq_true.mp rfl⟩
  whole_ne_nil := by decide
  isDigit_whole := List.all_eq_true.mp rfl
  isDigit_fraction := List.all_eq_true.mp rfl

/-- The least decimal comes back as a decimal where it was written as a binary number, and a numeral just
below the ceiling as a binary number where it was a decimal. -/
theorem not_comes_back : least.text = "1.0E-28" ∧
    (Literal.ofText (Literal.ofText least.text).render == Literal.ofText least.text) = false ∧
    (Literal.ofText (Literal.ofText "78999999999999992528501735423.5").render ==
      Literal.ofText "78999999999999992528501735423.5") = false := by
  decide +kernel

end WrittenNumeral

end RecordQuery
