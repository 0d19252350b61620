import RecordQuery.Proofs.Binary64.Bits
import RecordQuery.Proofs.Literal.Quoted
import RecordQuery.Proofs.Number.Width
import RecordQuery.Value.Text
/-!
# What literals show

Two literals of one value need not have one text: a decimal and the coordinates of a point show their
scale, and a binary zero its sign. Where the texts are the same too, the literals are the same
(`Literal.eq_of_shown`), for a decimal can be told by its text alone (`Decimal.render_injective`), a point
by those of its coordinates, and a binary number other than zero by its value. The text of a timestamp leaves
the nanoseconds out and tells the rest (`Timestamp.eq_of_render`).
-/

namespace RecordQuery

namespace Decimal

/-- A decimal without sign reads back from its digits. -/
theorem readPlain?_magnitude (d : Decimal) : readPlain? d.numeral.magnitude = some d.abs := by
  have hsigned : d.abs.Signed := fun h => by cases h
  have hread := readPlain?_render hsigned
  rw [← text_numeral] at hread
  exact hread

/-- The text of a decimal tells its sign, its coefficient and its scale. -/
theorem render_injective : Function.Injective render := by
  intro a b h
  have htext : a.numeral.text = b.numeral.text := by
    rw [text_numeral, text_numeral, h]
  have hsign : a.numeral.sign = b.numeral.sign := by
    rw [← Numeral.filter_sign _ [], ← Numeral.filter_sign _ [], htext]
  have hmagnitude : a.numeral.magnitude = b.numeral.magnitude := by
    rw [Numeral.text_eq, Numeral.text_eq, hsign] at htext
    exact List.append_cancel_left htext
  have habs : a.abs = b.abs := by
    have hread := a.readPlain?_magnitude
    rw [hmagnitude, readPlain?_magnitude] at hread
    exact (Option.some.inj hread).symm
  have hnegative : a.numeral.negative = b.numeral.negative := by
    unfold Numeral.sign at hsign
    revert hsign
    cases a.numeral.negative <;> cases b.numeral.negative <;> simp
  cases a
  cases b
  cases habs
  cases hnegative
  rfl

theorem space_not_mem_render (d : Decimal) : ' ' ∉ d.render.toList := by
  intro h
  rw [← d.text_numeral] at h
  exact absurd (Numeral.not_isBlank h) (by decide)

end Decimal

/-- The text of a point tells its coordinates. -/
theorem Point.render_injective : Function.Injective render := by
  intro p q h
  have htext : p.x.render.toList ++ (' ' :: (p.y.render.toList ++ [')'])) =
      q.x.render.toList ++ (' ' :: (q.y.render.toList ++ [')'])) := by
    have htoList := congrArg String.toList h
    rw [toList_render, toList_render] at htoList
    simpa using htoList
  -- the first coordinate is what stands in front of the first space
  have hfirst : ∀ r : Point, (r.x.render.toList ++ (' ' :: (r.y.render.toList ++ [')']))).takeWhile
      (· != ' ') = r.x.render.toList := by
    intro r
    apply takeWhile_append_stop
    · intro c hc
      rw [bne_iff_ne]
      rintro rfl
      exact r.x.space_not_mem_render hc
    · rintro c ⟨⟩
      rfl
  have hx : p.x.render.toList = q.x.render.toList := by
    rw [← hfirst p, ← hfirst q, htext]
  rw [hx] at htext
  have hy := List.append_cancel_right (List.cons.inj (List.append_cancel_left htext)).2
  have hx' := Decimal.render_injective (String.toList_inj.mp hx)
  have hy' := Decimal.render_injective (String.toList_inj.mp hy)
  cases p
  cases q
  cases hx'
  cases hy'
  rfl

namespace Timestamp

/-- The sign and the digits of a year tell the year. -/
theorem year_eq_of_text {a b : Int} (h : yearSign a ++ Digits.padded 4 a.natAbs =
    yearSign b ++ Digits.padded 4 b.natAbs) : a = b := by
  -- the sign is what stands in front of the first digit
  have hsign : ∀ year : Int, (yearSign year ++ Digits.padded 4 year.natAbs).takeWhile
      (!·.isDigit) = yearSign year := by
    intro year
    apply takeWhile_append_stop
    · unfold yearSign
      split
      · exact List.forall_mem_singleton.mpr rfl
      · split
        · exact List.forall_mem_nil _
        · exact List.forall_mem_singleton.mpr rfl
    · intro c hc
      rw [Digits.isDigit_of_mem_padded (List.mem_of_mem_head? hc)]
      rfl
  have hsigns : yearSign a = yearSign b := by
    rw [← hsign a, h, hsign]
  rw [hsigns] at h
  have hmagnitude : a.natAbs = b.natAbs := by
    rw [← Digits.value_padded 4 a.natAbs, List.append_cancel_left h, Digits.value_padded]
  -- years of one magnitude are one, or have different signs
  rcases Int.natAbs_eq_natAbs_iff.mp hmagnitude with heq | heq
  · exact heq
  · unfold yearSign at hsigns
    subst heq
    grind

/-- On the stroke of a second the text of a timestamp tells all its parts. -/
theorem eq_of_render {s t : Timestamp} (hs : s.IsWhole) (ht : t.IsWhole) (h : s.render = t.render) :
    s = t := by
  have hmonth : ∀ t : Timestamp, t.month < tenPow 2 := fun t =>
    Nat.lt_of_le_of_lt t.month_le (by decide)
  have hhour : ∀ t : Timestamp, t.hour < tenPow 2 := fun t => Nat.lt_trans t.hour_lt (by decide)
  have hminute : ∀ t : Timestamp, t.minute < tenPow 2 := fun t => Nat.lt_trans t.minute_lt (by decide)
  have htwo : 0 < 2 := by decide
  have htext := congrArg String.toList h
  rw [toList_render, toList_render, ← List.append_assoc, ← List.append_assoc] at htext
  obtain ⟨hyear, htext⟩ := List.append_inj' htext (by
    simp [Digits.length_padded htwo (hmonth _), Digits.length_padded htwo (day_lt _),
      Digits.length_padded htwo (hhour _), Digits.length_padded htwo (hminute _),
      Digits.length_padded htwo (clockSecond_lt _)])
  obtain ⟨heqMonth, htext⟩ := Digits.padded_append_inj htwo (hmonth s) (hmonth t) (List.cons.inj htext).2
  obtain ⟨heqDay, htext⟩ := Digits.padded_append_inj htwo s.day_lt t.day_lt (List.cons.inj htext).2
  obtain ⟨heqHour, htext⟩ := Digits.padded_append_inj htwo (hhour s) (hhour t) (List.cons.inj htext).2
  obtain ⟨heqMinute, htext⟩ :=
    Digits.padded_append_inj htwo (hminute s) (hminute t) (List.cons.inj htext).2
  obtain ⟨heqSecond, -⟩ :=
    Digits.padded_append_inj htwo s.clockSecond_lt t.clockSecond_lt (List.cons.inj htext).2
  have heqYear := year_eq_of_text hyear
  obtain ⟨hsecond, hnanosecond⟩ := hs.of_clockSecond
  obtain ⟨hsecond', hnanosecond'⟩ := ht.of_clockSecond
  rw [heqSecond, ← hsecond'] at hsecond
  rw [heqSecond, ← hnanosecond'] at hnanosecond
  cases s
  cases t
  rw [mk.injEq]
  exact ⟨heqYear, heqMonth, heqDay, heqHour, heqMinute, hsecond, hnanosecond⟩

end Timestamp

namespace Binary64

/-- Zero shows its sign. -/
theorem scientific_of_zero {x : Float} (h : magnitudeBits x = 0) :
    scientific x = signText (isNegative x) ++ "0E0" := by
  have hshape : shape x = .finite (isNegative x) 0 (-1074) := by
    unfold shape
    rw [h]
    rfl
  rw [scientific, exponentText, hshape]
  rfl

theorem signText_injective : Function.Injective signText := by
  intro a b
  revert a b
  decide

theorem magnitude_of_orderKey {x : Float} {key : Int} (h : orderKey x = some key) :
    key = if isNegative x then -(magnitudeBits x : Int) else magnitudeBits x := by
  unfold orderKey at h
  split at h
  · cases h
  · split at h
    next hnegative => rw [if_pos hnegative, Option.some.inj h]
    next hpositive => rw [if_neg hpositive, Option.some.inj h]

/-- Numbers of one value are one number, or two zeros. -/
theorem eq_or_zeros_of_sameValue {x y : Float} (h : sameValue x y = true) :
    x = y ∨ (magnitudeBits x = 0 ∧ magnitudeBits y = 0) := by
  have hkeys : ∃ key, orderKey x = some key ∧ orderKey y = some key := by
    unfold sameValue compare? at h
    cases hx : orderKey x with
    | none =>
        rw [hx] at h
        cases h
    | some a =>
        cases hy : orderKey y with
        | none =>
            rw [hx, hy] at h
            cases h
        | some b =>
            rw [hx, hy] at h
            have hab : a = b := Std.LawfulEqOrd.eq_of_compare (Option.some.inj (beq_iff_eq.mp h))
            exact ⟨b, congrArg some hab, rfl⟩
  obtain ⟨key, hx, hy⟩ := hkeys
  have hkey := (magnitude_of_orderKey hx).symm.trans (magnitude_of_orderKey hy)
  by_cases hsign : isNegative x = isNegative y
  · refine .inl (eq_of_bits hsign ?_)
    rw [hsign] at hkey
    split at hkey <;> omega
  · -- with opposite signs only zeros have one place
    right
    cases hx : isNegative x <;> cases hy : isNegative y <;> rw [hx, hy] at hkey hsign
    · exact absurd rfl hsign
    · simp at hkey
      omega
    · simp at hkey
      omega
    · exact absurd rfl hsign

theorem eq_of_sameValue {x y : Float} (h : sameValue x y = true)
    (htext : scientific x = scientific y) : x = y := by
  rcases eq_or_zeros_of_sameValue h with heq | ⟨hx, hy⟩
  · exact heq
  · rw [scientific_of_zero hx, scientific_of_zero hy] at htext
    exact eq_of_bits (signText_injective ((String.append_left_inj _).mp htext)) (hx.trans hy.symm)

end Binary64

namespace Literal

/-- What is shown of a literal: the text of its value. -/
def shown (l : Literal) : String :=
  (Value.ofLiteral l).display

/-- Literals of one type and one value that are shown alike are the same. -/
theorem eq_of_shown {a b : Literal} (h : (a == b) = true) (hshown : a.shown = b.shown) : a = b := by
  cases a <;> cases b
  case null.null => rfl
  case integer.integer m n => exact congrArg integer (beq_iff_eq.mp h)
  case decimal.decimal c d => exact congrArg decimal (Decimal.render_injective hshown)
  case float.float x y => exact congrArg float (Binary64.eq_of_sameValue h hshown)
  case uuid.uuid u v => exact congrArg uuid (beq_iff_eq.mp h)
  case date.date t u => exact congrArg date (beq_iff_eq.mp h)
  case point.point p q => exact congrArg point (Point.render_injective hshown)
  case string.string s t => exact congrArg string hshown
  all_goals cases h

end Literal

end RecordQuery
