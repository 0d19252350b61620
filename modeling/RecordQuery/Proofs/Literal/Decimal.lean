import RecordQuery.Proofs.Literal.Typing
/-!
# Decimals read back

A decimal is written with all its decimal places, and a positional numeral is read with the decimal
places it is written with, so a decimal reads back as itself, sign and scale included
(`Decimal.readPlain?_render`). The one decimal that cannot is the negative zero, which no numeral is
read as.
-/

namespace RecordQuery

namespace Decimal

/-- A decimal that a numeral can be read as: zero has no sign. -/
def Signed (d : Decimal) : Prop :=
  d.negative = true → d.coefficient ≠ 0

/-! ## As a numeral -/

theorem length_places {d : Decimal} (h : d.scale ≠ 0) :
    (Digits.padded d.scale (d.coefficient % tenPow d.scale)).length = d.scale :=
  Digits.length_padded (Nat.pos_of_ne_zero h) (Nat.mod_lt _ (tenPow_pos _))

/-- A decimal as a numeral. -/
def numeral (d : Decimal) : Numeral where
  negative := d.negative
  whole := Digits.render (d.coefficient / tenPow d.scale)
  fraction := if d.scale = 0 then [] else Digits.padded d.scale (d.coefficient % tenPow d.scale)
  exponent := none
  whole_ne_nil := Digits.render_ne_nil _
  isDigit_whole := fun _ h => Digits.isDigit_of_mem_render h
  isDigit_fraction := by
    intro c hc
    split at hc
    · cases hc
    · exact Digits.isDigit_of_mem_padded hc
  length_whole := .inl rfl

theorem text_numeral (d : Decimal) : d.numeral.text = d.render.toList := by
  have hmagnitude : d.numeral.magnitude = d.magnitudeText := by
    unfold Numeral.magnitude Numeral.fractionText Numeral.exponentText numeral magnitudeText
    simp only
    by_cases h : d.scale = 0
    · simp [h]
    · rw [if_neg h, if_neg h, if_neg (Digits.padded_ne_nil _ _), List.append_nil]
  rw [render, String.toList_ofList, Numeral.text, hmagnitude]
  rfl

theorem length_fraction (d : Decimal) : d.numeral.fraction.length = d.scale := by
  show (if d.scale = 0 then [] else _).length = _
  by_cases h : d.scale = 0
  · rw [if_pos h, h]
    rfl
  · rw [if_neg h, length_places h]

theorem digits_numeral (d : Decimal) : d.numeral.digits = d.coefficient := by
  have hfraction : Digits.value d.numeral.fraction = d.coefficient % tenPow d.scale := by
    show Digits.value (if d.scale = 0 then [] else _) = _
    by_cases h : d.scale = 0
    · rw [if_pos h, h, tenPow_zero, Nat.mod_one]
      rfl
    · rw [if_neg h, Digits.value_padded]
  rw [Numeral.digits, Digits.value_append, hfraction, d.length_fraction]
  show tenPow d.scale * Digits.value (Digits.render _) + _ = _
  rw [Digits.value_render, Nat.div_add_mod]

theorem lastExponent_numeral (d : Decimal) : d.numeral.lastExponent = -(d.scale : Int) := by
  rw [Numeral.lastExponent_of_positional rfl, d.length_fraction]

/-! ## Digit by digit -/

theorem readFrom?_nil (negative : Bool) (p : Progress) : readFrom? negative p [] = p.finish negative :=
  rfl

/-- What one character does to a numeral in the course of being read. -/
theorem readFrom?_cons (negative : Bool) (p : Progress) (c : Char) (rest : List Char) :
    readFrom? negative p (c :: rest) =
      if p.places = maxScale then p.close negative (c :: rest)
      else if c.isDigit then
        match p.push? (Digits.digitValue c) with
        | some p => readFrom? negative p rest
        | none => if p.pointSeen then p.close negative (c :: rest) else none
      else if c = '.' ∧ p.pointSeen = false then readFrom? negative { p with pointSeen := true } rest
      else if c = '_' ∧ p.digitSeen = true then readFrom? negative p rest
      else none := by
  rfl

theorem push?_of_lt {p : Progress} {digit : Nat}
    (h : 10 * p.coefficient + digit < coefficientBound) :
    p.push? digit = some
      ⟨10 * p.coefficient + digit, if p.pointSeen then p.places + 1 else 0, p.pointSeen, true⟩ := by
  unfold Progress.push?
  simp only
  rw [if_pos h]

theorem coefficient_step (coefficient : Nat) (c : Char) (digits : List Char) :
    tenPow digits.length * (10 * coefficient + Digits.digitValue c) + Digits.value digits =
      tenPow (c :: digits).length * coefficient + Digits.value (c :: digits) := by
  rw [Digits.value_cons, List.length_cons, tenPow_succ, Nat.mul_add, ← Nat.mul_assoc,
    ← Nat.add_assoc]

theorem lt_bound_of_step {coefficient : Nat} {c : Char} {digits : List Char}
    (h : tenPow (c :: digits).length * coefficient + Digits.value (c :: digits) < coefficientBound) :
    10 * coefficient + Digits.digitValue c < coefficientBound := by
  rw [← coefficient_step] at h
  have hle := Nat.le_mul_of_pos_left (10 * coefficient + Digits.digitValue c)
    (tenPow_pos digits.length)
  omega

/-- Digits in front of the point are taken as long as the coefficient fits. -/
theorem readFrom?_whole {negative : Bool} {digits rest : List Char}
    (hdigits : ∀ c ∈ digits, c.isDigit = true) (coefficient : Nat) (seen : Bool)
    (hbound : tenPow digits.length * coefficient + Digits.value digits < coefficientBound) :
    readFrom? negative ⟨coefficient, 0, false, seen⟩ (digits ++ rest) =
      readFrom? negative ⟨tenPow digits.length * coefficient + Digits.value digits, 0, false,
        seen || !digits.isEmpty⟩ rest := by
  induction digits generalizing coefficient seen with
  | nil => simp [Digits.value]
  | cons c digits ih =>
      have hc := hdigits c (by simp)
      -- the coefficient fits after every digit, because it does after the last one
      have hlt : 10 * coefficient + Digits.digitValue c < coefficientBound :=
        lt_bound_of_step hbound
      have hpush := push?_of_lt (p := ⟨coefficient, 0, false, seen⟩) hlt
      rw [List.cons_append, readFrom?_cons, if_neg (show ¬(0 : Nat) = maxScale by decide), if_pos hc,
        hpush]
      simp only [Bool.false_eq_true, if_false]
      rw [ih (fun d hd => hdigits d (by simp [hd])) _ _ (by rw [coefficient_step]; exact hbound),
        coefficient_step]
      simp

/-- Digits behind the point are taken as long as the coefficient fits and there are decimal places
left. -/
theorem readFrom?_places {negative : Bool} {digits rest : List Char}
    (hdigits : ∀ c ∈ digits, c.isDigit = true) (coefficient places : Nat)
    (hbound : tenPow digits.length * coefficient + Digits.value digits < coefficientBound)
    (hplaces : places + digits.length ≤ maxScale) :
    readFrom? negative ⟨coefficient, places, true, true⟩ (digits ++ rest) =
      readFrom? negative ⟨tenPow digits.length * coefficient + Digits.value digits,
        places + digits.length, true, true⟩ rest := by
  induction digits generalizing coefficient places with
  | nil => simp [Digits.value]
  | cons c digits ih =>
      have hc := hdigits c (by simp)
      rw [List.length_cons] at hplaces
      have hlt : 10 * coefficient + Digits.digitValue c < coefficientBound :=
        lt_bound_of_step hbound
      have hpush := push?_of_lt (p := ⟨coefficient, places, true, true⟩) hlt
      rw [List.cons_append, readFrom?_cons, if_neg (show ¬places = maxScale by omega), if_pos hc, hpush]
      simp only [if_true]
      rw [ih (fun d hd => hdigits d (by simp [hd])) _ _ (by rw [coefficient_step]; exact hbound)
        (by omega), coefficient_step, List.length_cons]
      rw [show places + 1 + digits.length = places + (digits.length + 1) by omega]

/-- A numeral without an exponent is read as the decimal of its digits, if there is room for them. A zero
loses its sign. -/
theorem readFrom?_magnitude {n : Numeral} (h : n.exponent = none)
    (hdigits : n.digits < coefficientBound) (hplaces : n.fraction.length ≤ maxScale) :
    readFrom? n.negative ⟨0, 0, false, false⟩ n.magnitude =
      ofParts? (n.negative && n.digits != 0) n.digits n.fraction.length := by
  have hvalue : tenPow n.fraction.length * Digits.value n.whole + Digits.value n.fraction = n.digits :=
    (Digits.value_append _ _).symm
  have hwhole : Digits.value n.whole < coefficientBound := by
    have hle := Nat.le_mul_of_pos_left (Digits.value n.whole) (tenPow_pos n.fraction.length)
    omega
  rw [Numeral.magnitude, Numeral.exponentText, h, List.append_nil,
    readFrom?_whole n.isDigit_whole 0 false (by rw [Nat.mul_zero, Nat.zero_add]; exact hwhole),
    Nat.mul_zero, Nat.zero_add, List.isEmpty_eq_false_iff.mpr n.whole_ne_nil]
  show readFrom? n.negative ⟨_, 0, false, true⟩ n.fractionText = _
  unfold Numeral.fractionText
  by_cases hfraction : n.fraction = []
  · rw [hfraction] at hvalue
    have hsame : Digits.value n.whole = n.digits := by
      rw [← hvalue]
      exact (Nat.one_mul _).symm
    rw [if_pos hfraction, readFrom?_nil, Progress.finish, if_pos rfl, hsame, hfraction]
    rfl
  · rw [if_neg hfraction, readFrom?_cons, if_neg (show ¬(0 : Nat) = maxScale by decide),
      if_neg (by decide), if_pos ⟨rfl, rfl⟩]
    have hread := @readFrom?_places n.negative _ [] n.isDigit_fraction (Digits.value n.whole) 0
      (by rw [hvalue]; exact hdigits) (by rw [Nat.zero_add]; exact hplaces)
    rw [List.append_nil, hvalue, Nat.zero_add] at hread
    rw [hread, readFrom?_nil, Progress.finish, if_pos rfl]

theorem readFrom?_numeral {d : Decimal} (h : d.Signed) :
    readFrom? d.negative ⟨0, 0, false, false⟩ d.numeral.magnitude = some d := by
  have hread := readFrom?_magnitude (n := d.numeral) rfl
    (by rw [d.digits_numeral]; exact d.coefficient_lt) (by rw [d.length_fraction]; exact d.scale_le)
  rw [d.digits_numeral, d.length_fraction] at hread
  refine hread.trans (ofParts?_eq_some.mpr ⟨?_, rfl, rfl⟩)
  -- the sign is dropped from a zero, and this one has none
  show d.negative = (d.negative && d.coefficient != 0)
  cases hneg : d.negative with
  | false => rfl
  | true => simp [h hneg]

/-- The sign of a numeral is read in front of its digits. -/
theorem readPlain?_text (n : Numeral) :
    readPlain? n.text = readFrom? n.negative ⟨0, 0, false, false⟩ n.magnitude := by
  obtain ⟨c, cs, hcs, hc⟩ := n.exists_head
  unfold Numeral.text
  cases hneg : n.negative with
  | true =>
      rw [if_pos rfl]
      rfl
  | false =>
      rw [if_neg Bool.false_ne_true, hcs]
      unfold readPlain?
      split
      · next heq =>
          cases heq
          exact absurd hc (by decide)
      · next heq =>
          cases heq
          exact absurd hc (by decide)
      · rfl

/-- A numeral without an exponent is read by its positions. -/
theorem read?_of_positional {n : Numeral} (h : n.exponent = none) :
    read? n.text = readFrom? n.negative ⟨0, 0, false, false⟩ n.magnitude := by
  unfold read?
  rw [if_neg, readPlain?_text]
  rw [List.any_eq_true]
  rintro ⟨c, hc, hmark⟩
  rw [isExponentMark, Bool.or_eq_true, beq_iff_eq, beq_iff_eq] at hmark
  rcases Numeral.mem_text_of_positional h hc with hdigit | rfl | rfl
  · rcases hmark with rfl | rfl <;> exact absurd hdigit (by decide)
  · exact absurd hmark (by decide)
  · exact absurd hmark (by decide)

/-- A decimal reads back as itself. -/
theorem readPlain?_render {d : Decimal} (h : d.Signed) : readPlain? d.render.toList = some d := by
  rw [← d.text_numeral, readPlain?_text]
  exact readFrom?_numeral h

/-- A decimal has no exponent mark in it. -/
theorem read?_render {d : Decimal} (h : d.Signed) : read? d.render.toList = some d := by
  rw [← d.text_numeral, read?_of_positional (n := d.numeral) rfl]
  exact readFrom?_numeral h

end Decimal

end RecordQuery
