import RecordQuery.Proofs.Literal.Numeral
/-!
# Typing a numeral

What a numeral is typed as: a numeral of digits only is an integer if it fits, and every other one is
the number that its digits and its exponent stand for.
-/

namespace RecordQuery.Literal

/-! ## Parts of a numeral -/

/-- An exponent starts with a mark. -/
theorem exists_mark {text : List Char} (h : isExponent text = true) :
    ∃ mark behind, text = mark :: behind ∧ (mark = 'e' ∨ mark = 'E') := by
  have hmark : ∀ {mark : Char} {b : Bool}, (Decimal.isExponentMark mark && b) = true →
      mark = 'e' ∨ mark = 'E' := by
    intro mark b hb
    rw [Bool.and_eq_true, Decimal.isExponentMark, Bool.or_eq_true, beq_iff_eq, beq_iff_eq] at hb
    exact hb.1
  unfold isExponent at h
  split at h
  next => exact ⟨_, _, rfl, hmark h⟩
  next => exact ⟨_, _, rfl, hmark h⟩
  next => exact ⟨_, _, rfl, hmark h⟩
  next => cases h

/-- Digits, then a fraction behind a point and an exponent, both of which may be missing. -/
theorem unsignedForm?_of_parts {whole fraction exponent : List Char} (hne : whole ≠ [])
    (hwhole : ∀ c ∈ whole, c.isDigit = true) (hfraction : ∀ c ∈ fraction, c.isDigit = true)
    (hexponent : exponent = [] ∨ isExponent exponent = true) :
    unsignedForm? (whole ++ ((if fraction = [] then [] else '.' :: fraction) ++ exponent)) =
      some (if fraction = [] ∧ exponent = [] then .whole else .fractional) := by
  have hstop : ∀ c ∈ exponent.head?, c.isDigit = false := by
    intro c hc
    rcases hexponent with rfl | h
    · cases hc
    · obtain ⟨mark, behind, rfl, rfl | rfl⟩ := exists_mark h <;> cases hc <;> rfl
  have hsplit : Digits.split (whole ++ ((if fraction = [] then [] else '.' :: fraction) ++ exponent)) =
      (whole, (if fraction = [] then [] else '.' :: fraction) ++ exponent) := by
    refine Digits.split_append_stop hwhole ?_
    split
    · exact hstop
    · rintro c ⟨⟩
      rfl
  unfold unsignedForm?
  simp only [hsplit]
  rw [if_neg (by rw [List.isEmpty_iff]; exact hne)]
  by_cases hnone : fraction = []
  · rw [if_pos hnone, List.nil_append]
    rcases hexponent with rfl | h
    · rw [if_pos ⟨hnone, rfl⟩]
    · obtain ⟨mark, behind, rfl, hmark⟩ := exists_mark h
      rw [if_neg (by simp)]
      rcases hmark with rfl | rfl <;> exact if_pos h
  · rw [if_neg hnone, if_neg fun h => hnone h.1, List.cons_append]
    simp only [Digits.split_append_stop hfraction hstop]
    rw [if_pos]
    rw [Bool.and_eq_true, Bool.or_eq_true, Bool.not_eq_true', List.isEmpty_eq_false_iff, List.isEmpty_iff]
    exact ⟨hnone, hexponent⟩

theorem digit_of_unsignedForm? {text : List Char} {f : NumeralForm}
    (h : unsignedForm? text = some f) : ∃ c cs, text = c :: cs ∧ c.isDigit = true := by
  unfold unsignedForm? Digits.split at h
  cases text with
  | nil => cases h
  | cons c cs =>
      refine ⟨c, cs, rfl, ?_⟩
      rw [← Bool.not_eq_false]
      intro hc
      rw [List.takeWhile_cons_of_neg (by rw [hc]; exact Bool.false_ne_true)] at h
      cases h

/-- A numeral starts with a digit or a minus sign. -/
theorem first_of_numeralForm? {text : List Char} {f : NumeralForm} (h : numeralForm? text = some f) :
    ∃ c cs, text = c :: cs ∧ (c.isDigit = true ∨ c = '-') := by
  unfold numeralForm? at h
  split at h
  next text => exact ⟨'-', text, rfl, .inr rfl⟩
  next =>
    obtain ⟨c, cs, htext, hc⟩ := digit_of_unsignedForm? h
    exact ⟨c, cs, htext, .inl hc⟩

/-- The literal of a numeral of one of the two forms. -/
def ofForm : NumeralForm → List Char → Literal
  | .whole => ofWhole
  | .fractional => ofNumeral

/-- What has the form of a numeral is typed by its form, unless it is grouped as an identifier. -/
theorem ofText_of_form {text : List Char} {f : NumeralForm} (h : numeralForm? text = some f)
    (hblank : ∀ c ∈ text, Unicode.isBlank c = false) (hgrouped : Uuid.isGrouped text = false) :
    ofText (String.ofList text) = ofForm f text := by
  obtain ⟨c, cs, htext, hc⟩ := first_of_numeralForm? h
  have htrim : Unicode.trim text = text :=
    Unicode.trim_eq_self (fun _ h => hblank _ (List.mem_of_mem_head? h))
      fun _ h => hblank _ (List.mem_of_getLast? h)
  have hunquote : unquote? text = none := by
    rw [htext, unquote?, if_neg]
    rintro ⟨rfl | rfl, -⟩
    · rcases hc with hc | hc <;> exact absurd hc (by decide)
    · rcases hc with hc | hc <;> exact absurd hc (by decide)
  have hnull : text.map Char.toLower ≠ "null".toList := by
    rw [htext, List.map_cons]
    intro h
    have hn : c.toLower = 'n' := (List.cons.inj h).1
    rcases hc with hc | rfl
    · rw [← isDigit_toLower, hn] at hc
      exact absurd hc (by decide)
    · exact absurd hn (by decide)
  unfold ofText
  simp only [String.toList_ofList, htrim, hunquote]
  unfold ofBare
  rw [if_neg hnull, if_neg (by rw [hgrouped]; exact Bool.false_ne_true), h]
  cases f <;> rfl

end RecordQuery.Literal

namespace RecordQuery.Numeral

/-! ## The characters of a numeral -/

/-- A numeral without an exponent has no mark in it. -/
theorem mem_text_of_positional {n : Numeral} (hn : n.exponent = none) {c : Char} (h : c ∈ n.text) :
    c.isDigit = true ∨ c = '-' ∨ c = '.' := by
  have hmagnitude : n.magnitude = n.whole ++ n.fractionText := by
    rw [magnitude, exponentText, hn, List.append_nil]
  have hmem : c ∈ n.magnitude → c.isDigit = true ∨ c = '-' ∨ c = '.' := by
    intro h
    rw [hmagnitude] at h
    rcases List.mem_append.mp h with h | h
    · exact .inl (n.isDigit_whole c h)
    · unfold fractionText at h
      split at h
      · cases h
      · rcases List.mem_cons.mp h with rfl | h
        · exact .inr (.inr rfl)
        · exact .inl (n.isDigit_fraction c h)
  unfold text at h
  split at h
  · rcases List.mem_cons.mp h with rfl | h
    · exact .inr (.inl rfl)
    · exact hmem h
  · exact hmem h

theorem mem_exponentText {n : Numeral} {c : Char} (h : c ∈ n.exponentText) :
    c.isDigit = true ∨ c = '-' ∨ c = 'E' := by
  unfold exponentText at h
  split at h
  next e _ =>
    obtain ⟨sign, digits, htext, hsign, -, hdigits, -⟩ := exists_toString e
    rw [htext] at h
    rcases List.mem_cons.mp h with rfl | h
    · exact .inr (.inr rfl)
    · rcases List.mem_append.mp h with h | h
      · rcases hsign with rfl | rfl
        · cases h
        · exact .inr (.inl (List.mem_singleton.mp h))
      · exact .inl (hdigits c h)
  next => cases h

/-- The numeral without its exponent. -/
def positional (n : Numeral) : Numeral :=
  { n with exponent := none, length_whole := .inl rfl }

theorem text_eq_positional (n : Numeral) : n.text = n.positional.text ++ n.exponentText := by
  have hnone : n.positional.exponentText = [] := rfl
  have hmagnitude : n.magnitude = n.positional.magnitude ++ n.exponentText := by
    rw [magnitude, magnitude, hnone, List.append_nil, List.append_assoc]
    rfl
  unfold text
  rw [hmagnitude]
  show (if n.negative = true then _ else _) = (if n.negative = true then _ else _) ++ _
  split <;> rfl

theorem mem_text {n : Numeral} {c : Char} (h : c ∈ n.text) :
    c.isDigit = true ∨ c = '-' ∨ c = '.' ∨ c = 'E' := by
  rw [text_eq_positional] at h
  rcases List.mem_append.mp h with h | h
  · rcases mem_text_of_positional rfl h with h | h | h
    · exact .inl h
    · exact .inr (.inl h)
    · exact .inr (.inr (.inl h))
  · rcases mem_exponentText h with h | h | h
    · exact .inl h
    · exact .inr (.inl h)
    · exact .inr (.inr (.inr h))

theorem not_isBlank {n : Numeral} {c : Char} (h : c ∈ n.text) : Unicode.isBlank c = false := by
  rcases mem_text h with h | rfl | rfl | rfl
  · exact Lexer.not_isBlank_of_isWordChar (isWordChar_of_isDigit h)
  · decide
  · decide
  · decide

/-- The first character is a digit or a minus sign. -/
theorem exists_first (n : Numeral) : ∃ c cs, n.text = c :: cs ∧ (c.isDigit = true ∨ c = '-') := by
  obtain ⟨c, cs, hcs, hc⟩ := n.exists_head
  unfold text
  split
  · exact ⟨'-', n.magnitude, rfl, .inr rfl⟩
  · exact ⟨c, cs, hcs, .inl hc⟩

end RecordQuery.Numeral

namespace RecordQuery.Uuid

theorem startsWithUuid_of_isGrouped {text : List Char} (h : isGrouped text = true) :
    Lexer.startsWithUuid text = true := by
  have hlength := length_of_isGrouped h
  unfold Lexer.startsWithUuid
  rw [← hlength, List.take_length, List.drop_length, h]
  rfl

end RecordQuery.Uuid

namespace RecordQuery.Numeral

theorem not_isGrouped_text (n : Numeral) : Uuid.isGrouped n.text = false := by
  rw [← Bool.not_eq_true]
  intro h
  have huuid := Uuid.startsWithUuid_of_isGrouped h
  have hnone : Lexer.startsWithUuid n.text = false := by
    unfold text
    split
    · -- a sign stands where the first group has its first digit
      refine Lexer.not_startsWithUuid (w := []) (fun c hc => by cases hc) ?_ fun h => by cases h
      rintro c ⟨⟩
      decide
    · have := n.not_startsWithUuid end_nil
      rwa [List.append_nil] at this
  rw [hnone] at huuid
  cases huuid

/-! ## The form of a numeral -/

/-- The form of a numeral. -/
def form (n : Numeral) : Literal.NumeralForm :=
  if n.fraction = [] ∧ n.exponent = none then .whole else .fractional

theorem isExponent_exponentText {n : Numeral} (h : n.exponent ≠ none) :
    Literal.isExponent n.exponentText = true := by
  obtain ⟨e, he⟩ := Option.ne_none_iff_exists'.mp h
  obtain ⟨sign, digits, htext, hsign, hne, hdigits, -⟩ := exists_toString e
  have hnatural := Digits.natural?_of_digits hne hdigits
  unfold exponentText
  rw [he]
  simp only [htext]
  rcases hsign with rfl | rfl
  · obtain ⟨d, ds, rfl⟩ := List.exists_cons_of_ne_nil hne
    have hd := hdigits d (by simp)
    rw [List.nil_append]
    unfold Literal.isExponent
    split
    · next heq =>
        cases heq
        exact absurd hd (by decide)
    · next heq =>
        cases heq
        exact absurd hd (by decide)
    · next heq =>
        cases heq
        rw [hnatural]
        rfl
    · next heq => cases heq
  · rw [List.cons_append, List.nil_append, Literal.isExponent, hnatural]
    rfl

theorem split_magnitude (n : Numeral) :
    Digits.split n.magnitude = (n.whole, n.fractionText ++ n.exponentText) := by
  refine Digits.split_append_stop n.isDigit_whole ?_
  have := n.not_isDigit_behind_whole end_nil.not_isDigit
  rwa [List.append_nil] at this

theorem split_fraction (n : Numeral) :
    Digits.split (n.fraction ++ n.exponentText) = (n.fraction, n.exponentText) := by
  refine Digits.split_append_stop n.isDigit_fraction ?_
  have := n.not_isDigit_behind end_nil.not_isDigit
  rwa [List.append_nil] at this

theorem unsignedForm?_magnitude (n : Numeral) :
    Literal.unsignedForm? n.magnitude = some n.form := by
  have hexponent : n.exponentText = [] ↔ n.exponent = none := by
    unfold exponentText
    cases n.exponent <;> simp
  have htext : n.exponentText = [] ∨ Literal.isExponent n.exponentText = true := by
    by_cases h : n.exponent = none
    · exact .inl (hexponent.mpr h)
    · exact .inr (isExponent_exponentText h)
  have hparts := Literal.unsignedForm?_of_parts n.whole_ne_nil n.isDigit_whole n.isDigit_fraction htext
  simp only [hexponent] at hparts
  exact hparts

theorem numeralForm?_text (n : Numeral) : Literal.numeralForm? n.text = some n.form := by
  obtain ⟨c, cs, hcs, hc⟩ := n.exists_head
  unfold text
  split
  · exact n.unsignedForm?_magnitude
  · rw [← n.unsignedForm?_magnitude, hcs]
    unfold Literal.numeralForm?
    split
    next heq =>
      cases heq
      exact absurd hc (by decide)
    next => rfl

/-- What a numeral is typed as. -/
theorem ofText_text (n : Numeral) :
    Literal.ofText (String.ofList n.text) = Literal.ofForm n.form n.text :=
  Literal.ofText_of_form n.numeralForm?_text (fun _ h => not_isBlank h) n.not_isGrouped_text

end RecordQuery.Numeral

namespace RecordQuery.Binary64

/-! ## The number of a numeral -/

/-- What starts with a digit is no name of a special value. -/
theorem readUnsigned?_of_digit (negative : Bool) {c : Char} (cs : List Char)
    (hc : c.isDigit = true) :
    readUnsigned? negative (c :: cs) = readMagnitude? negative (c :: cs) := by
  have hname : ∀ word : List Char, (∀ d ∈ word.head?, d.isDigit = false) →
      (c :: cs).map Char.toLower ≠ word := by
    intro word hword h
    have hlower := hword c.toLower (by rw [← h]; rfl)
    rw [isDigit_toLower, hc] at hlower
    cases hlower
  unfold readUnsigned?
  simp only
  rw [if_neg, if_neg]
  · exact hname _ (by rintro d ⟨⟩; rfl)
  · rintro (h | h)
    · exact hname _ (by rintro d ⟨⟩; rfl) h
    · exact hname _ (by rintro d ⟨⟩; rfl) h

theorem read?_of_digit {c : Char} (cs : List Char) (hc : c.isDigit = true) :
    read? (c :: cs) = readMagnitude? false (c :: cs) := by
  unfold read?
  split
  next heq =>
    cases heq
    exact absurd hc (by decide)
  next heq =>
    cases heq
    exact absurd hc (by decide)
  next => exact readUnsigned?_of_digit false cs hc

end RecordQuery.Binary64

namespace RecordQuery.Numeral

theorem readExponent?_toString (e : Int) :
    Binary64.readExponent? (toString e).toList = some e := by
  obtain ⟨sign, digits, htext, hsign, hne, hdigits, he⟩ := exists_toString e
  have hnatural := Digits.natural?_of_digits hne hdigits
  rw [htext]
  rcases hsign with rfl | rfl
  · obtain ⟨d, ds, rfl⟩ := List.exists_cons_of_ne_nil hne
    have hd := hdigits d (by simp)
    rw [List.nil_append]
    unfold Binary64.readExponent?
    split
    · next heq =>
        cases heq
        exact absurd hd (by decide)
    · next heq =>
        cases heq
        exact absurd hd (by decide)
    · rw [hnatural, he, if_pos rfl]
      rfl
  · rw [List.cons_append, List.nil_append, Binary64.readExponent?, hnatural, he,
      if_neg (List.cons_ne_nil _ _)]
    rfl

/-- The exponent of the last digit of a numeral. -/
def lastExponent (n : Numeral) : Int :=
  n.exponent.getD 0 - n.fraction.length

theorem lastExponent_of_positional {n : Numeral} (h : n.exponent = none) :
    n.lastExponent = -(n.fraction.length : Int) := by
  rw [lastExponent, h]
  show (0 : Int) - _ = _
  omega

/-- The digits of a numeral as one number. -/
def digits (n : Numeral) : Nat :=
  Digits.value (n.whole ++ n.fraction)

theorem readMagnitude?_magnitude (n : Numeral) (negative : Bool) :
    Binary64.readMagnitude? negative n.magnitude =
      some (Binary64.ofDecimal negative n.digits n.lastExponent) := by
  have hwhole : (n.whole.isEmpty && n.fraction.isEmpty) = false := by
    rw [List.isEmpty_eq_false_iff.mpr n.whole_ne_nil]
    rfl
  unfold Binary64.readMagnitude?
  simp only [n.split_magnitude]
  unfold fractionText exponentText lastExponent digits
  have hsplit := n.split_fraction
  unfold exponentText at hsplit
  by_cases hfraction : n.fraction = []
  · rw [if_pos hfraction, hfraction, List.nil_append]
    rw [hfraction] at hwhole
    cases hexponent : n.exponent with
    | none =>
        show (if n.whole.isEmpty && [].isEmpty then none else _) = _
        rw [hwhole, if_neg Bool.false_ne_true]
        rfl
    | some e =>
        show (if n.whole.isEmpty && [].isEmpty then none
          else (Binary64.readExponent? (toString e).toList).map _) = _
        rw [hwhole, if_neg Bool.false_ne_true, readExponent?_toString]
        rfl
  · rw [if_neg hfraction, List.cons_append]
    simp only [hsplit, hwhole]
    rw [if_neg Bool.false_ne_true]
    cases hexponent : n.exponent with
    | none => simp
    | some e =>
        show (Binary64.readExponent? (toString e).toList).map _ = _
        rw [readExponent?_toString]
        rfl

/-- A numeral is read as the number nearest to what its digits and its exponent stand for. -/
theorem read?_text (n : Numeral) : Binary64.read? n.text =
    some (Binary64.ofDecimal n.negative n.digits n.lastExponent) := by
  -- the first digit keeps the text from being the name of a special value
  obtain ⟨c, cs, hcs, hc⟩ := n.exists_head
  have hmagnitude := n.readMagnitude?_magnitude n.negative
  unfold text
  rw [hcs] at hmagnitude ⊢
  cases hneg : n.negative with
  | true =>
      rw [hneg] at hmagnitude
      rw [if_pos rfl, Binary64.read?, Binary64.readUnsigned?_of_digit true cs hc, hmagnitude]
  | false =>
      rw [hneg] at hmagnitude
      rw [if_neg Bool.false_ne_true, Binary64.read?_of_digit cs hc, hmagnitude]

/-! ## Integers -/

/-- An integer as a numeral. -/
def ofInt (i : Int) : Numeral where
  negative := i < 0
  whole := Digits.render i.natAbs
  fraction := []
  exponent := none
  whole_ne_nil := Digits.render_ne_nil _
  isDigit_whole := fun _ h => Digits.isDigit_of_mem_render h
  isDigit_fraction := isDigit_of_mem_nil
  length_whole := .inl rfl

theorem text_ofInt (i : Int) : (ofInt i).text = (toString i).toList := by
  rw [Int.toString_eq_repr, Int.repr_eq_if]
  unfold text magnitude fractionText exponentText ofInt
  simp only [decide_eq_true_eq, if_true, List.append_nil]
  by_cases h : i < 0
  · rw [if_pos h, if_neg (by omega), String.toList_append, Nat.toList_repr,
      show i.natAbs = (-i).toNat by omega]
    rfl
  · rw [if_neg h, if_pos (by omega), Nat.toList_repr, show i.natAbs = i.toNat by omega]
    rfl

theorem magnitude_ofInt (i : Int) : (ofInt i).magnitude = Digits.render i.natAbs := by
  simp [magnitude, fractionText, exponentText, ofInt]

theorem wholeValue_ofInt (i : Int) : Literal.wholeValue (ofInt i).text = i := by
  obtain ⟨c, cs, hcs, hc⟩ := (ofInt i).exists_head
  unfold text
  by_cases h : i < 0
  · rw [if_pos (by simp [ofInt, h]), Literal.wholeValue, magnitude_ofInt, Digits.value_render]
    omega
  · rw [if_neg (by simp [ofInt, h]), hcs]
    unfold Literal.wholeValue
    split
    · next heq =>
        cases heq
        exact absurd hc (by decide)
    · rw [← hcs, magnitude_ofInt, Digits.value_render]
      omega

end RecordQuery.Numeral

namespace RecordQuery.Literal

/-- An integer is read back as itself. -/
theorem ofText_integer (n : Int64) : ofText (toString n) = .integer n := by
  have htext : toString n = String.ofList (Numeral.ofInt n.toInt).text := by
    rw [Numeral.text_ofInt, String.ofList_toList]
    rfl
  rw [htext, Numeral.ofText_text]
  show ofWhole _ = _
  unfold ofWhole
  rw [Numeral.wholeValue_ofInt, integer64?_toInt]

end RecordQuery.Literal
