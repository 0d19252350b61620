import RecordQuery.Proofs.Literal.Quoted
/-!
# What literals are typed

The literals that texts are typed as, before anything is printed (`Literal.Readable`): a decimal zero
has no sign, a binary number is a number, a timestamp has no part that its text leaves out, and a string
in quotes is nothing else. Each of the readers below keeps this, so that it holds of every literal that a
query has (`Literal.readable_ofText`, `Literal.readable_ofQuoted`).
-/

namespace RecordQuery

namespace Decimal

/-! ## No negative zero -/

theorem signed_of_finish {p : Progress} {negative : Bool} {d : Decimal}
    (h : p.finish negative = some d) : d.Signed := by
  unfold Progress.finish at h
  split at h
  next =>
    obtain ⟨hneg, hcoefficient, -⟩ := ofParts?_eq_some.mp h
    intro hd
    rw [hneg, Bool.and_eq_true, bne_iff_ne] at hd
    rw [hcoefficient]
    exact hd.2
  next => cases h

theorem signed_of_roundOff {p : Progress} {negative : Bool} {digit : Nat} {d : Decimal}
    (h : p.roundOff negative digit = some d) : d.Signed := by
  unfold Progress.roundOff at h
  split at h
  · exact signed_of_finish h
  · split at h
    · exact signed_of_finish h
    · split at h
      · cases h
      · exact signed_of_finish h

theorem signed_of_close {p : Progress} {negative : Bool} {text : List Char} {d : Decimal}
    (h : p.close negative text = some d) : d.Signed := by
  unfold Progress.close at h
  split at h
  next =>
    split at h
    · exact signed_of_finish h
    · split at h
      · exact signed_of_roundOff h
      · exact signed_of_finish h
  next => cases h

theorem signed_of_readFrom? {negative : Bool} {text : List Char} {d : Decimal} (p : Progress)
    (h : readFrom? negative p text = some d) : d.Signed := by
  -- whatever the digits do to the coefficient, the sign is settled when the reading ends
  induction text generalizing p with
  | nil => exact signed_of_finish h
  | cons c text ih =>
      rw [readFrom?_cons] at h
      split at h
      · exact signed_of_close h
      · split at h
        · split at h
          · exact ih _ h
          · split at h
            · exact signed_of_close h
            · cases h
        · split at h
          · exact ih _ h
          · split at h
            · exact ih _ h
            · cases h

theorem signed_of_readPlain? {text : List Char} {d : Decimal} (h : readPlain? text = some d) :
    d.Signed := by
  unfold readPlain? at h
  split at h <;> exact signed_of_readFrom? _ h

theorem Signed.withScale? {d d' : Decimal} {scale : Nat} (hd : d.Signed)
    (h : d.withScale? scale = some d') : d'.Signed := by
  obtain ⟨hneg, hcoefficient, -⟩ := ofParts?_eq_some.mp h
  intro hd'
  rw [hcoefficient]
  exact hd (hneg ▸ hd')

theorem stripZeros_ne_zero {scale coefficient : Nat} (h : coefficient ≠ 0) :
    (stripZeros scale coefficient).1 ≠ 0 := by
  induction scale generalizing coefficient with
  | zero => exact h
  | succ scale ih =>
      rw [stripZeros]
      split
      · exact ih (by omega)
      · exact h

theorem signed_normalize (d : Decimal) : d.normalize.Signed := by
  intro h
  have hzero : d.coefficient ≠ 0 := by
    unfold normalize isZero at h
    simp only [Bool.and_eq_true, Bool.not_eq_true', beq_eq_false_iff_ne] at h
    exact h.2
  exact stripZeros_ne_zero hzero

theorem Signed.moveRight? {d d' : Decimal} {places : Nat} (hd : d.Signed)
    (h : d.moveRight? places = some d') : d'.Signed := by
  unfold Decimal.moveRight? at h
  split at h
  · exact hd.withScale? h
  · split at h
    · cases h
    · simp only [bind, Option.bind_eq_some_iff, pure, Option.some.injEq] at h
      -- a power that is too large is multiplied, and the product is without trailing zeros
      obtain ⟨power, -, product, -, rfl⟩ := h
      exact signed_normalize product

theorem Signed.moveLeft? {d d' : Decimal} {places : Nat} (hd : d.Signed)
    (h : d.moveLeft? places = some d') : d'.Signed := by
  unfold Decimal.moveLeft? at h
  split at h
  · cases h
  · exact hd.withScale? h

/-- No numeral is read as the negative zero. -/
theorem signed_of_read? {text : List Char} {d : Decimal} (h : read? text = some d) : d.Signed := by
  unfold read? at h
  split at h
  next =>
    unfold readScientific? at h
    simp only [bind, Option.bind_eq_some_iff] at h
    obtain ⟨base, hbase, h⟩ := h
    have hsigned := signed_of_readPlain? hbase
    split at h
    · obtain ⟨places, -, h⟩ := Option.bind_eq_some_iff.mp h
      exact hsigned.moveLeft? h
    · obtain ⟨places, -, h⟩ := Option.bind_eq_some_iff.mp h
      exact hsigned.moveRight? h
  next => exact signed_of_readPlain? h

end Decimal

namespace Binary64

/-! ## Numbers only -/

/-- `IsNumber x` holds for the finite numbers and the infinities. -/
def IsNumber (x : Float) : Prop :=
  ∃ negative bits, bits ≤ infinityBits ∧ x = ofMagnitude negative bits

theorem isNumber_zero (negative : Bool) : IsNumber (zero negative) :=
  ⟨negative, 0, Nat.zero_le _, rfl⟩

theorem isNumber_infinity (negative : Bool) : IsNumber (infinity negative) :=
  ⟨negative, infinityBits, Nat.le_refl _, rfl⟩

theorem isNumber_ofRatio (negative : Bool) (num den : Nat) : IsNumber (ofRatio negative num den) := by
  unfold ofRatio
  split
  · exact isNumber_zero negative
  · exact ⟨negative, _, Nat.min_le_left _ _, rfl⟩

theorem isNumber_ofDecimal (negative : Bool) (digits : Nat) (exponent : Int) :
    IsNumber (ofDecimal negative digits exponent) := by
  unfold ofDecimal
  simp only
  split
  · exact isNumber_zero negative
  · split
    · exact isNumber_infinity negative
    · split
      · exact isNumber_zero negative
      · split <;> exact isNumber_ofRatio negative _ _

end Binary64

namespace Literal

/-! ## Numerals as they are written -/

theorem exists_exponent {mark : Char} {text : List Char} (h : isExponent (mark :: text) = true) :
    (mark = 'e' ∨ mark = 'E') ∧ ∃ e, Binary64.readExponent? text = some e := by
  have hmark : ∀ {b : Bool}, (Decimal.isExponentMark mark && b) = true →
      (mark = 'e' ∨ mark = 'E') ∧ b = true := by
    intro b hb
    rw [Bool.and_eq_true, Decimal.isExponentMark, Bool.or_eq_true, beq_iff_eq, beq_iff_eq] at hb
    exact hb
  unfold isExponent at h
  split at h
  next heq =>
    cases heq
    obtain ⟨hm, hdigits⟩ := hmark h
    obtain ⟨n, hn⟩ := Option.isSome_iff_exists.mp hdigits
    exact ⟨hm, n, by rw [Binary64.readExponent?, hn]; rfl⟩
  next heq =>
    cases heq
    obtain ⟨hm, hdigits⟩ := hmark h
    obtain ⟨n, hn⟩ := Option.isSome_iff_exists.mp hdigits
    exact ⟨hm, -n, by rw [Binary64.readExponent?, hn]; rfl⟩
  next hplus hminus heq =>
    cases heq
    obtain ⟨hm, hdigits⟩ := hmark h
    obtain ⟨n, hn⟩ := Option.isSome_iff_exists.mp hdigits
    refine ⟨hm, n, ?_⟩
    unfold Binary64.readExponent?
    split
    · exact (hminus _ rfl).elim
    · exact (hplus _ rfl).elim
    · rw [hn]
      rfl
  next heq => cases heq

/-- What may stand behind the digits, an exponent or nothing, is read. -/
theorem exists_behind (negative : Bool) (digits places : Nat) {rest : List Char}
    (h : rest.isEmpty = true ∨ isExponent rest = true) :
    ∃ x, (match rest with
      | [] => some (Binary64.ofDecimal negative digits (-(places : Int)))
      | mark :: text =>
        if mark = 'e' ∨ mark = 'E' then
          (Binary64.readExponent? text).map fun e => Binary64.ofDecimal negative digits (e - places)
        else none) = some x ∧ Binary64.IsNumber x := by
  cases rest with
  | nil => exact ⟨_, rfl, Binary64.isNumber_ofDecimal _ _ _⟩
  | cons mark text =>
      obtain ⟨hmark, e, he⟩ := exists_exponent (h.resolve_left Bool.false_ne_true)
      refine ⟨Binary64.ofDecimal negative digits (e - places), ?_,
        Binary64.isNumber_ofDecimal _ _ _⟩
      show (if _ then _ else _) = _
      rw [if_pos hmark, he]
      rfl

/-- Whatever has the form of a numeral is read as a number. -/
theorem exists_magnitude {text : List Char} {f : NumeralForm} (negative : Bool)
    (h : unsignedForm? text = some f) :
    ∃ x, Binary64.readMagnitude? negative text = some x ∧ Binary64.IsNumber x := by
  unfold unsignedForm? at h
  unfold Binary64.readMagnitude?
  generalize Digits.split text = parts at h ⊢
  obtain ⟨whole, rest⟩ := parts
  simp only at h ⊢
  split at h
  · cases h
  next hwhole =>
  have hsome : ∀ fraction : List Char, (whole.isEmpty && fraction.isEmpty) = false := by
    intro fraction
    rw [Bool.not_eq_true] at hwhole
    rw [hwhole, Bool.false_and]
  simp only [hsome, Bool.false_eq_true, if_false]
  split at h
  next => exact ⟨_, rfl, Binary64.isNumber_ofDecimal _ _ _⟩
  next rest =>
    simp only at h ⊢
    generalize Digits.split rest = parts at h ⊢
    obtain ⟨fraction, behind⟩ := parts
    simp only at h ⊢
    split at h
    next hform =>
      rw [Bool.and_eq_true, Bool.or_eq_true] at hform
      exact exists_behind negative _ _ hform.2
    next => cases h
  next rest hnil hpoint =>
    split at h
    next hform =>
      refine exists_behind negative _ _ ?_
      split
      next behind => exact (hpoint behind rfl).elim
      next => exact .inr hform
    next => cases h

/-- So is a numeral with a sign. -/
theorem exists_number {text : List Char} {f : NumeralForm} (h : numeralForm? text = some f) :
    ∃ x, Binary64.read? text = some x ∧ Binary64.IsNumber x := by
  unfold numeralForm? at h
  split at h
  next text =>
    obtain ⟨c, cs, rfl, hc⟩ := digit_of_unsignedForm? h
    rw [Binary64.read?, Binary64.readUnsigned?_of_digit true cs hc]
    exact exists_magnitude true h
  next =>
    obtain ⟨c, cs, rfl, hc⟩ := digit_of_unsignedForm? h
    rw [Binary64.read?_of_digit cs hc]
    exact exists_magnitude false h

/-! ## Typed literals -/

/-- What a literal is like that a text is typed as. -/
def Readable : Literal → Prop
  | .decimal d => d.Signed
  | .float x => Binary64.IsNumber x
  | .date t => t.Readable
  | .point p => p.x.Signed ∧ p.y.Signed
  | .string s => ofQuoted s = .string s
  | _ => True

theorem readable_ofNumeral {text : List Char} {f : NumeralForm} (h : numeralForm? text = some f) :
    (ofNumeral text).Readable := by
  obtain ⟨x, hx, hnumber⟩ := exists_number h
  unfold ofNumeral
  simp only [hx]
  split
  · exact hnumber
  · split
    next d hd => exact Decimal.signed_of_read? hd
    next => exact hnumber

theorem signed_of_coordinate? {text behind : List Char} {d : Decimal}
    (h : Point.coordinate? text = some (d, behind)) : d.Signed := by
  unfold Point.coordinate? at h
  simp only at h
  split at h
  · cases h
  · obtain ⟨d', hread, heq⟩ := Option.map_eq_some_iff.mp h
    cases heq
    exact Decimal.signed_of_readPlain? hread

theorem signed_of_readExact? {text : List Char} {p : Point} (h : Point.readExact? text = some p) :
    p.x.Signed ∧ p.y.Signed := by
  unfold Point.readExact? at h
  obtain ⟨behind, -, h⟩ := Option.bind_eq_some_iff.mp h
  split at h
  next =>
    obtain ⟨⟨x, behind⟩, hx, h⟩ := Option.bind_eq_some_iff.mp h
    simp only at h
    split at h
    next =>
      obtain ⟨⟨y, behind⟩, hy, h⟩ := Option.bind_eq_some_iff.mp h
      simp only at h
      split at h
      next =>
        cases h
        exact ⟨signed_of_coordinate? hx, signed_of_coordinate? hy⟩
      next => cases h
    next => cases h
  next => cases h

theorem readable_ofQuoted (text : String) : (ofQuoted text).Readable := by
  unfold ofQuoted
  cases hp : Point.read? text with
  | some p => exact signed_of_readExact? hp
  | none =>
      simp only
      cases ht : Timestamp.read? text with
      | some t => exact Timestamp.readable_of_read? ht
      | none =>
          simp only
          show ofQuoted text = .string text
          rw [ofQuoted, hp, ht]

theorem exists_hexValues {digits : List Char} (h : ∀ c ∈ digits, Uuid.isHex c = true) :
    ∃ values, digits.mapM Uuid.hexValue? = some values := by
  induction digits with
  | nil => exact ⟨[], rfl⟩
  | cons c digits ih =>
      obtain ⟨v, hv⟩ := Option.isSome_iff_exists.mp (h c (by simp))
      obtain ⟨values, hvalues⟩ := ih fun d hd => h d (by simp [hd])
      exact ⟨v :: values, by rw [List.mapM_cons, hv, hvalues]; rfl⟩

/-- What has the form of an identifier of 128 bits is one. -/
theorem exists_grouped {text : List Char} (h : Uuid.isGrouped text = true) :
    ∃ u, Uuid.readGrouped? text = some u := by
  rw [Uuid.readGrouped?, if_pos h]
  unfold Uuid.isGrouped at h
  simp only [Bool.and_eq_true, beq_iff_eq, List.all_eq_true] at h
  obtain ⟨values, hread⟩ := exists_hexValues h.1.2
  rw [Uuid.readDigits?, if_pos h.1.1.2, hread]
  exact ⟨_, rfl⟩

theorem readable_ofBare (text : List Char) : (ofBare text).Readable := by
  unfold ofBare
  split
  · trivial
  · split
    next hgrouped =>
      obtain ⟨u, hu⟩ := exists_grouped hgrouped
      rw [hu]
      trivial
    next =>
      split
      next hform =>
        unfold ofWhole
        split
        · trivial
        · exact readable_ofNumeral hform
      next hform => exact readable_ofNumeral hform
      next => exact readable_ofQuoted _

/-- Every literal that a text is typed as is readable. -/
theorem readable_ofText (text : String) : (ofText text).Readable := by
  unfold ofText
  simp only
  split
  · exact readable_ofQuoted _
  · exact readable_ofBare _

end Literal

end RecordQuery
