import RecordQuery.Proofs.Literal.Binary
/-!
# What a printed literal is read as

The text of a literal is read as the literal again, with two exceptions. A decimal without decimal places is
printed with one, which can be one digit too many for it to be kept, and which takes the largest decimals out
of the range in which a number is held as a decimal (`Literal.reread_whole`). A binary number in the decimal
range is printed with an exponent, and where that text is one of a decimal it comes back as a decimal
(`Literal.reread_float`).

`Literal.Survives` is what is left: a literal comes back with its type and its value exactly when it holds
(`Literal.Readable.reread_beq_iff`).
-/

namespace RecordQuery

namespace Decimal

/-! ## One more decimal place -/

/-- A whole decimal as the numeral that is printed for it. -/
def wholeNumeral (d : Decimal) : Numeral where
  negative := d.negative
  whole := Digits.render d.coefficient
  fraction := ['0']
  exponent := none
  whole_ne_nil := Digits.render_ne_nil _
  isDigit_whole := fun _ h => Digits.isDigit_of_mem_render h
  isDigit_fraction := Numeral.isDigit_of_mem_zero
  length_whole := .inl rfl

/-- A whole decimal with one decimal place, if its coefficient has room for one. -/
def withPlace (d : Decimal) : Decimal :=
  if h : 10 * d.coefficient < coefficientBound then ⟨d.negative, 10 * d.coefficient, 1, h, by decide⟩
  else d

variable {d : Decimal}

theorem text_wholeNumeral (h : d.scale = 0) :
    (Literal.decimalText d).toList = d.wholeNumeral.text := by
  unfold Literal.decimalText render magnitudeText
  rw [h, if_pos rfl, if_pos rfl, tenPow_zero, Nat.div_one, String.toList_append, String.toList_ofList]
  unfold Numeral.text Numeral.magnitude Numeral.fractionText Numeral.exponentText wholeNumeral
  cases d.negative <;> simp

theorem digits_wholeNumeral (d : Decimal) : d.wholeNumeral.digits = 10 * d.coefficient := by
  show Digits.value (Digits.render d.coefficient ++ ['0']) = _
  rw [Digits.value_append, Digits.value_render]
  rfl

theorem sameValue_withPlace (h : d.scale = 0) : d.withPlace.sameValue d = true := by
  unfold withPlace sameValue compare
  split
  next =>
    have hsigned : signed ⟨d.negative, 10 * d.coefficient, 1, ‹_›, by decide⟩ = d.signed * 10 := by
      unfold signed
      simp only
      split <;> push_cast <;> ring
    rw [hsigned, h]
    simp [tenPow]
  next => simp

/-- A numeral that ends at its last digit is the decimal of its parts. -/
theorem Signed.finish {p : Progress} {negative : Bool} (hd : d.Signed) (hseen : p.digitSeen = true)
    (hnegative : d.negative = negative) (hcoefficient : d.coefficient = p.coefficient)
    (hplaces : d.scale = p.places) : p.finish negative = some d := by
  rw [Progress.finish, if_pos hseen]
  refine ofParts?_eq_some.mpr ⟨?_, hcoefficient, hplaces⟩
  rw [← hnegative, ← hcoefficient]
  cases hneg : d.negative with
  | false => rfl
  | true => simp [hd hneg]

/-- The zero behind a whole decimal is taken where there is room, and else is dropped. -/
theorem read?_wholeNumeral (hd : d.Signed) (h : d.scale = 0) :
    read? d.wholeNumeral.text = some d.withPlace := by
  have hwhole := @readFrom?_whole d.negative _ ['.', '0']
    (fun _ hc => Digits.isDigit_of_mem_render hc) 0 false
    (by rw [Nat.mul_zero, Nat.zero_add, Digits.value_render]; exact d.coefficient_lt)
  rw [Nat.mul_zero, Nat.zero_add, Digits.value_render,
    List.isEmpty_eq_false_iff.mpr (Digits.render_ne_nil _)] at hwhole
  rw [read?_of_positional rfl]
  show readFrom? d.negative _ (Digits.render d.coefficient ++ ['.', '0']) = _
  rw [hwhole, readFrom?_cons, if_neg (show ¬(0 : Nat) = maxScale by decide), if_neg (by decide),
    if_pos ⟨rfl, rfl⟩, readFrom?_cons, if_neg (show ¬(0 : Nat) = maxScale by decide), if_pos (by decide)]
  have hzero : Digits.digitValue '0' = 0 := rfl
  by_cases hroom : 10 * d.coefficient < coefficientBound
  · rw [withPlace, dif_pos hroom, push?_of_lt (by rw [hzero]; exact hroom)]
    refine Signed.finish (fun hneg => ?_) rfl rfl rfl rfl
    have hne := hd hneg
    show 10 * d.coefficient ≠ 0
    omega
  · have hpush : Progress.push? ⟨d.coefficient, 0, true, true⟩ (Digits.digitValue '0') = none := by
      unfold Progress.push?
      rw [hzero]
      exact if_neg hroom
    have hclose : ∀ p : Progress, p.close d.negative ['0'] = p.roundOff d.negative 0 := by
      intro p
      unfold Progress.close
      cases p.isLong <;> rfl
    rw [withPlace, dif_neg hroom, Bool.not_false, Bool.or_true, hpush]
    show Progress.close ⟨d.coefficient, 0, true, true⟩ d.negative ['0'] = some d
    rw [hclose, Progress.roundOff, if_pos (by decide)]
    exact hd.finish rfl rfl rfl h

end Decimal

namespace Literal

/-- The least whole number that is rounded to a binary number out of the decimal range. -/
def leastExceeding : Nat :=
  78999999999999992528501735424

/-- The text of a whole decimal is out of the decimal range from `leastExceeding` on. -/
theorem exceedsDecimal_wholeNumeral (d : Decimal) :
    exceedsDecimal (Binary64.ofDecimal d.negative (10 * d.coefficient) (-1)) =
      decide (leastExceeding ≤ d.coefficient) := by
  unfold Binary64.ofDecimal
  simp only
  by_cases hzero : d.coefficient = 0
  · rw [hzero, if_pos rfl]
    cases d.negative <;> decide
  · have hcount : Digits.count (10 * d.coefficient) ≤ 30 := by
      rw [Digits.count_le_iff (by decide)]
      have hlt := d.coefficient_lt
      have hpower : tenPow 30 = 1000000000000000000000000000000 := rfl
      unfold Decimal.coefficientBound at hlt
      omega
    have hpos := Digits.count_pos (10 * d.coefficient)
    rw [if_neg (by omega), if_neg (by omega), if_neg (by omega), if_neg (by omega)]
    show exceedsDecimal (Binary64.ofRatio d.negative (10 * d.coefficient) 10) = _
    have hlow : 10 ≤ 10 * d.coefficient * tenPow 28 :=
      Nat.le_trans (by omega) (Nat.le_mul_of_pos_right (10 * d.coefficient) (tenPow_pos 28))
    rw [exceedsDecimal_ofRatio (by omega) (by decide) hlow]
    -- rounding keeps the order, so it is enough to look at the two numbers at the border
    have hat : Binary64.magnitudeBits decimalCeiling ≤
        Binary64.nearestMagnitude (10 * leastExceeding) 10 := by decide
    have hbelow : Binary64.nearestMagnitude (10 * (leastExceeding - 1)) 10 <
        Binary64.magnitudeBits decimalCeiling := by decide
    refine decide_eq_decide.mpr ⟨fun hle => ?_, fun hle => ?_⟩
    · by_contra hlt
      have hmono := @Binary64.nearestMagnitude_le (10 * d.coefficient) 10 (10 * (leastExceeding - 1)) 10
        (by omega) (by decide) (by decide) (by omega)
      omega
    · have hmono := @Binary64.nearestMagnitude_le (10 * leastExceeding) 10 (10 * d.coefficient) 10
        (by decide) (by decide) (by decide) (by omega)
      omega

/-! ## Read again -/

/-- The literal that the text of a literal is read as. -/
def reread : Literal → Literal
  | .decimal d => ofText (decimalText d)
  | .float x => ofText (floatText x)
  | l => l

theorem ofText_decimal {d : Decimal} (hd : d.Signed) (h : d.scale ≠ 0) :
    ofText (String.ofList d.numeral.text) = .decimal d := by
  have hform : d.numeral.form = .fractional := by
    unfold Numeral.form
    rw [if_neg]
    rintro ⟨hfraction, -⟩
    have hlength := d.length_fraction
    rw [hfraction] at hlength
    exact h hlength.symm
  have hread : Decimal.read? d.numeral.text = some d := by
    rw [d.text_numeral, Decimal.read?_render hd]
  rw [Numeral.ofText_text, hform]
  show ofNumeral _ = _
  unfold ofNumeral
  simp only [Numeral.read?_text, d.digits_numeral, d.lastExponent_numeral, hread]
  rw [show d.numeral.negative = d.negative from rfl, if_neg (by rw [not_exceedsDecimal h]; decide)]

theorem ofText_of_numeral {text : String} {n : Numeral} (h : text.toList = n.text)
    (hform : n.form = .fractional) : ofText text = ofNumeral n.text := by
  have hnumeral := n.ofText_text
  rw [hform, ← h, String.ofList_toList] at hnumeral
  rw [← h]
  exact hnumeral

/-- A decimal with decimal places is read again as it is. -/
theorem reread_decimal {d : Decimal} (hd : d.Signed) (h : d.scale ≠ 0) :
    (decimal d).reread = .decimal d := by
  show ofText (decimalText d) = _
  rw [← ofText_decimal hd h, d.text_numeral, String.ofList_toList, decimalText, if_neg h]

/-- A whole decimal gains a decimal place if there is room, and from `leastExceeding` on it is out of the
range of decimals. -/
theorem reread_whole {d : Decimal} (hd : d.Signed) (h : d.scale = 0) : (decimal d).reread =
    if leastExceeding ≤ d.coefficient then
      .float (Binary64.ofDecimal d.negative (10 * d.coefficient) (-1))
    else .decimal d.withPlace := by
  show ofText (decimalText d) = _
  rw [ofText_of_numeral (Decimal.text_wholeNumeral h) rfl]
  unfold ofNumeral
  simp only [Numeral.read?_text, d.digits_wholeNumeral, Decimal.read?_wholeNumeral hd h]
  show (if exceedsDecimal (Binary64.ofDecimal d.negative (10 * d.coefficient) (-1)) = true then _ else _) = _
  rw [exceedsDecimal_wholeNumeral]
  simp only [decide_eq_true_eq]
  rfl

/-- A binary number is read again as it is when it is outside the decimal range, or its text is that of no
decimal. -/
theorem reread_float {x : Float} (hx : Binary64.IsNumber x) : (float x).reread =
    if exceedsDecimal x then .float x
    else
      match Decimal.read? (floatText x).toList with
      | some d => .decimal d
      | none => .float x := by
  obtain ⟨n, htext, hform, hn⟩ := exists_numeral hx
  show ofText (floatText x) = _
  have hread := n.read?_text
  rw [hn] at hread
  rw [ofText_of_numeral htext hform, htext]
  unfold ofNumeral
  generalize Binary64.read? n.text = value at hread
  subst hread
  rfl

/-- `l.Survives` holds for the literals that come back with their type and their value: decimals but the
largest whole ones, and binary numbers that are outside the decimal range or whose text is that of no
decimal. -/
def Survives : Literal → Prop
  | .decimal d => d.scale = 0 → d.coefficient < leastExceeding
  | .float x => exceedsDecimal x = true ∨ Decimal.read? (floatText x).toList = none
  | _ => True

instance : DecidablePred Survives
  | .decimal d => inferInstanceAs (Decidable (d.scale = 0 → d.coefficient < leastExceeding))
  | .float x => inferInstanceAs (Decidable (exceedsDecimal x = true ∨ Decimal.read? (floatText x).toList = none))
  | .null | .integer _ | .uuid _ | .date _ | .point _ | .string _ => isTrue trivial

/-- A readable literal equals itself: none is what is not a number. -/
theorem Readable.beq_self {l : Literal} (h : l.Readable) : (l == l) = true := by
  have hdecimal : ∀ d : Decimal, d.sameValue d = true := by
    intro d
    simp [Decimal.sameValue, Decimal.compare]
  cases l with
  | null => rfl
  | integer n => exact beq_self_eq_true n
  | decimal d => exact hdecimal d
  | float x =>
      obtain ⟨negative, bits, hle, rfl⟩ := h
      have hkey : ∃ k, Binary64.orderKey (Binary64.ofMagnitude negative bits) = some k := by
        unfold Binary64.orderKey
        rw [Binary64.magnitudeBits_ofMagnitude hle, if_neg (Nat.not_lt_of_le hle)]
        split <;> exact ⟨_, rfl⟩
      obtain ⟨k, hk⟩ := hkey
      show Binary64.sameValue _ _ = true
      simp [Binary64.sameValue, Binary64.compare?, hk]
  | uuid u => exact beq_self_eq_true u
  | date t => exact beq_self_eq_true t
  | point p => exact Bool.and_eq_true_iff.mpr ⟨hdecimal p.x, hdecimal p.y⟩
  | string s => exact beq_self_eq_true s

/-- A literal comes back with its type and its value exactly when it survives. -/
theorem Readable.reread_beq_iff {l : Literal} (h : l.Readable) :
    (l.reread == l) = true ↔ l.Survives := by
  cases l with
  | decimal d =>
      by_cases hscale : d.scale = 0
      · rw [reread_whole h hscale]
        split
        next hle => exact iff_of_false Bool.false_ne_true fun hlt => by have := hlt hscale; omega
        next hlt => exact iff_of_true (Decimal.sameValue_withPlace hscale) fun _ => Nat.lt_of_not_le hlt
      · rw [reread_decimal h hscale]
        exact iff_of_true h.beq_self fun hzero => absurd hzero hscale
  | float x =>
      rw [reread_float h]
      show _ ↔ exceedsDecimal x = true ∨ _
      cases hexceeds : exceedsDecimal x with
      | true => exact iff_of_true h.beq_self (.inl rfl)
      | false =>
          cases hread : Decimal.read? (floatText x).toList with
          | none => exact iff_of_true h.beq_self (.inr rfl)
          | some d => exact iff_of_false Bool.false_ne_true (by simp)
  | _ => exact iff_of_true h.beq_self trivial

end Literal

end RecordQuery
