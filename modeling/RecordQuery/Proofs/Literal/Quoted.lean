import RecordQuery.Proofs.Literal.Decimal
/-!
# Timestamps and points read back

What stands in quotes is a point, a timestamp or a string. The text of a point is read back as itself, and
so is that of a timestamp which has no part that the text leaves out (`Timestamp.Readable`). No text is
both: a point starts with a letter and a timestamp with a digit.
-/

namespace RecordQuery

namespace Timestamp

/-! ## Timestamps -/

/-- A number filled up to the width of its field is read back. -/
theorem field?_padded {width n : Nat} (hwidth : 0 < width) (h : n < tenPow width) (rest : List Char) :
    field? width (Digits.padded width n ++ rest) = some (n, rest) := by
  have hlength := Digits.length_padded hwidth h
  have htake : (Digits.padded width n ++ rest).take width = Digits.padded width n := by
    rw [List.take_append_of_le_length (Nat.le_of_eq hlength.symm), List.take_of_length_le
      (Nat.le_of_eq hlength)]
  have hdrop : (Digits.padded width n ++ rest).drop width = rest := by
    rw [List.drop_append_of_le_length (Nat.le_of_eq hlength.symm), List.drop_of_length_le
      (Nat.le_of_eq hlength), List.nil_append]
  have hnatural := Digits.natural?_of_digits (Digits.padded_ne_nil width n)
    fun c hc => Digits.isDigit_of_mem_padded hc
  rw [Digits.value_padded] at hnatural
  unfold field?
  rw [htake, hdrop, hnatural]
  show (if _ then _ else _) = _
  rw [if_pos hlength]

theorem day_le_31 (t : Timestamp) : t.day ≤ 31 := by
  have hmax : daysInMonth t.year t.month ≤ 31 := by
    unfold daysInMonth
    repeat' split
    all_goals decide
  exact Nat.le_trans t.day_le hmax

theorem day_lt (t : Timestamp) : t.day < tenPow 2 := by
  have hle := t.day_le_31
  show t.day < 100
  omega

/-- `t.IsWhole` holds on the stroke of a second, and of one that is behind the last second of a minute. -/
def IsWhole (t : Timestamp) : Prop :=
  t.nanosecond = 0 ∨ t.second = 59 ∧ t.nanosecond = nanosecondsPerSecond

instance (t : Timestamp) : Decidable t.IsWhole :=
  inferInstanceAs (Decidable (_ ∨ _ ∧ _))

/-- What a timestamp is like that a text is read as. -/
structure Readable (t : Timestamp) : Prop where
  whole : t.IsWhole
  year_nonneg : 0 ≤ t.year
  year_lt : t.year < 10000

theorem clockSecond_lt (t : Timestamp) : t.clockSecond < tenPow 2 := by
  have hsecond := t.second_lt
  have hnanosecond := t.nanosecond_lt
  show t.second + t.nanosecond / nanosecondsPerSecond < 100
  unfold nanosecondsPerSecond at hnanosecond ⊢
  omega

theorem IsWhole.clockSecond_le {t : Timestamp} (h : t.IsWhole) : t.clockSecond ≤ 60 := by
  have hsecond := t.second_lt
  unfold IsWhole at h
  unfold clockSecond nanosecondsPerSecond at *
  omega

/-- On the stroke of a second its number tells the second and the nanoseconds. -/
theorem IsWhole.of_clockSecond {t : Timestamp} (h : t.IsWhole) :
    t.second = min t.clockSecond 59 ∧
      t.nanosecond = (t.clockSecond - 59) * nanosecondsPerSecond := by
  have hsecond := t.second_lt
  unfold IsWhole at h
  unfold clockSecond nanosecondsPerSecond at *
  omega

/-- The timestamps that are read are those that are put together from parts. -/
theorem readable_of_ofParts? {year month day hour minute second : Nat} {t : Timestamp}
    (h : ofParts? year month day hour minute second = some t) : t.Readable := by
  unfold ofParts? at h
  split at h
  next hparts =>
    cases h
    refine ⟨?_, Int.natCast_nonneg _, Int.ofNat_lt.mpr hparts.1⟩
    have hsecond := hparts.2.2.2.2.2.2.2
    show (second - 59) * nanosecondsPerSecond = 0 ∨ min second 59 = 59 ∧
      (second - 59) * nanosecondsPerSecond = nanosecondsPerSecond
    unfold nanosecondsPerSecond
    omega
  next => cases h

theorem readable_of_read? {text : String} {t : Timestamp} (h : read? text = some t) : t.Readable := by
  unfold read? readExact? at h
  obtain ⟨⟨year, rest⟩, -, h⟩ := Option.bind_eq_some_iff.mp h
  obtain ⟨behind, -, h⟩ := Option.bind_eq_some_iff.mp h
  obtain ⟨⟨month, rest⟩, -, h⟩ := Option.bind_eq_some_iff.mp h
  obtain ⟨behind, -, h⟩ := Option.bind_eq_some_iff.mp h
  obtain ⟨⟨day, rest⟩, -, h⟩ := Option.bind_eq_some_iff.mp h
  simp only at h
  split at h
  · exact readable_of_ofParts? h
  · obtain ⟨behind, -, h⟩ := Option.bind_eq_some_iff.mp h
    obtain ⟨⟨hour, rest⟩, -, h⟩ := Option.bind_eq_some_iff.mp h
    obtain ⟨behind, -, h⟩ := Option.bind_eq_some_iff.mp h
    obtain ⟨⟨minute, rest⟩, -, h⟩ := Option.bind_eq_some_iff.mp h
    obtain ⟨behind, -, h⟩ := Option.bind_eq_some_iff.mp h
    obtain ⟨⟨second, rest⟩, -, h⟩ := Option.bind_eq_some_iff.mp h
    simp only at h
    split at h
    · exact readable_of_ofParts? h
    · cases h

theorem Readable.natAbs_year_lt {t : Timestamp} (h : t.Readable) : t.year.natAbs < tenPow 4 := by
  have hlt := h.year_lt
  have hnonneg := h.year_nonneg
  show t.year.natAbs < 10000
  omega

theorem Readable.ofParts?_parts {t : Timestamp} (h : t.Readable) :
    ofParts? t.year.natAbs t.month t.day t.hour t.minute t.clockSecond = some t := by
  have hyear : (t.year.natAbs : Int) = t.year := Int.natAbs_of_nonneg h.year_nonneg
  unfold ofParts?
  rw [dif_pos ⟨h.natAbs_year_lt, t.month_pos, t.month_le, t.day_pos, hyear.symm ▸ t.day_le, t.hour_lt, t.minute_lt,
    h.whole.clockSecond_le⟩]
  obtain ⟨hs, hn⟩ := h.whole.of_clockSecond
  congr 1
  cases t
  simp only [mk.injEq, true_and]
  exact ⟨hyear, hs.symm, hn.symm⟩

theorem toList_render (t : Timestamp) : t.render.toList =
    yearSign t.year ++ (Digits.padded 4 t.year.natAbs ++ ('-' :: (Digits.padded 2 t.month ++
      ('-' :: (Digits.padded 2 t.day ++ (' ' :: (Digits.padded 2 t.hour ++ (':' ::
        (Digits.padded 2 t.minute ++ (':' :: (Digits.padded 2 t.clockSecond ++ []))))))))))) := by
  simp [render, renderWith]

theorem Readable.yearSign {t : Timestamp} (h : t.Readable) : yearSign t.year = [] := by
  rw [Timestamp.yearSign, if_neg (Int.not_lt.mpr h.year_nonneg), if_pos h.year_lt]

theorem Readable.readExact?_render {t : Timestamp} (h : t.Readable) :
    readExact? t.render.toList = some t := by
  have hmonth : t.month < tenPow 2 := Nat.lt_of_le_of_lt t.month_le (by decide)
  have hhour : t.hour < tenPow 2 := Nat.lt_trans t.hour_lt (by decide)
  have hminute : t.minute < tenPow 2 := Nat.lt_trans t.minute_lt (by decide)
  rw [toList_render, h.yearSign, List.nil_append]
  unfold readExact?
  simp only [field?_padded (show 0 < 4 by decide) h.natAbs_year_lt,
    field?_padded (show 0 < 2 by decide) hmonth,
    field?_padded (show 0 < 2 by decide) t.day_lt, field?_padded (show 0 < 2 by decide) hhour,
    field?_padded (show 0 < 2 by decide) hminute,
    field?_padded (show 0 < 2 by decide) t.clockSecond_lt,
    after?, if_true, bind, Option.bind, List.isEmpty_cons, List.isEmpty_nil, Bool.false_eq_true,
    if_false]
  exact h.ofParts?_parts

theorem Readable.head_render {t : Timestamp} (h : t.Readable) :
    ∃ c cs, t.render.toList = c :: cs ∧ c.isDigit = true := by
  obtain ⟨c, cs, hcs⟩ := List.exists_cons_of_ne_nil (Digits.padded_ne_nil 4 t.year.natAbs)
  have hmem : c ∈ Digits.padded 4 t.year.natAbs := by rw [hcs]; simp
  rw [toList_render, h.yearSign, List.nil_append, hcs]
  exact ⟨c, _, rfl, Digits.isDigit_of_mem_padded hmem⟩

theorem Readable.trim_render {t : Timestamp} (h : t.Readable) :
    Unicode.trim t.render.toList = t.render.toList := by
  -- the text starts and ends with a digit
  have hdigit : ∀ {c : Char}, c.isDigit = true → Unicode.isBlank c = false := fun h =>
    Lexer.not_isBlank_of_isWordChar (Numeral.isWordChar_of_isDigit h)
  refine Unicode.trim_eq_self ?_ ?_
  · obtain ⟨c, cs, hcs, hc⟩ := h.head_render
    intro d hd
    rw [hcs] at hd
    cases hd
    exact hdigit hc
  · intro c hc
    obtain ⟨front, hfront⟩ : ∃ front, t.render.toList = front ++ Digits.padded 2 t.clockSecond := by
      rw [render, renderWith, String.toList_ofList]
      exact ⟨_, List.append_cons _ _ _⟩
    rw [hfront, List.getLast?_append] at hc
    cases hlast : (Digits.padded 2 t.clockSecond).getLast? with
    | none => exact absurd (List.getLast?_eq_none_iff.mp hlast) (Digits.padded_ne_nil 2 t.clockSecond)
    | some d =>
        rw [hlast] at hc
        cases hc
        exact hdigit (Digits.isDigit_of_mem_padded (List.mem_of_getLast? hlast))

/-- A timestamp that has a text to be read from is read back from its own. -/
theorem Readable.read?_render {t : Timestamp} (h : t.Readable) : read? t.render = some t := by
  rw [read?, h.trim_render, h.readExact?_render]

end Timestamp

namespace Point

/-! ## Points -/

/-- A coordinate in front of a space or the closing parenthesis is read back. -/
theorem coordinate?_render {d : Decimal} (h : d.Signed) {rest : List Char}
    (hrest : ∀ c ∈ rest.head?, c = ' ' ∨ c = ')') :
    coordinate? (d.render.toList ++ rest) = some (d, rest) := by
  have hread := Decimal.readPlain?_render h
  rw [← d.text_numeral] at hread ⊢
  have hpositional : d.numeral.exponent = none := rfl
  generalize d.numeral = n at hread hpositional ⊢
  have hnotDigit : ∀ c ∈ rest.head?, c.isDigit = false := by
    intro c hc
    rcases hrest c hc with rfl | rfl <;> rfl
  have hsign : ((n.text ++ rest).takeWhile (· == '-')).take 1 = n.sign := by
    rw [n.takeWhile_sign, Numeral.sign]
    split <;> rfl
  have hdrop := n.drop_sign rest
  have hbehind := n.not_isDigit_behind_whole hnotDigit
  rw [Numeral.exponentText, hpositional, List.nil_append] at hdrop hbehind
  unfold coordinate?
  simp only [hsign, hdrop, Digits.split_append_stop n.isDigit_whole hbehind]
  have hfinal : (if n.whole.isEmpty then none
      else (Decimal.readPlain? (n.sign ++ n.whole ++ n.fractionText)).map fun d => (d, rest)) =
        some (d, rest) := by
    rw [if_neg (by rw [List.isEmpty_iff]; exact n.whole_ne_nil),
      ← Numeral.text_of_positional hpositional, hread]
    rfl
  unfold Numeral.fractionText at hfinal ⊢
  by_cases hfraction : n.fraction = []
  · -- behind a whole number there is no point that a fraction could start with
    rw [if_pos hfraction] at hfinal ⊢
    cases rest with
    | nil => exact hfinal
    | cons x rest => rcases hrest x rfl with rfl | rfl <;> exact hfinal
  · rw [if_neg hfraction] at hfinal ⊢
    rw [List.cons_append]
    simp only [Digits.split_append_stop n.isDigit_fraction hnotDigit]
    rw [if_neg (c := n.fraction.isEmpty = true) (by rw [List.isEmpty_iff]; exact hfraction)]
    exact hfinal

theorem toList_render (p : Point) : p.render.toList =
    'P' :: 'O' :: 'I' :: 'N' :: 'T' :: ' ' :: '(' ::
      (p.x.render.toList ++ (' ' :: (p.y.render.toList ++ [')']))) := by
  simp [render]

theorem trimStart_render (d : Decimal) (rest : List Char) :
    Unicode.trimStart (d.render.toList ++ rest) = d.render.toList ++ rest := by
  obtain ⟨c, cs, hcs, -⟩ := d.numeral.exists_first
  have hc : Unicode.isBlank c = false := Numeral.not_isBlank (n := d.numeral) (by rw [hcs]; simp)
  rw [← d.text_numeral, hcs, List.cons_append, Unicode.trimStart,
    List.dropWhile_cons_of_neg (by rw [hc]; exact Bool.false_ne_true)]

theorem readExact?_render {p : Point} (hx : p.x.Signed) (hy : p.y.Signed) :
    readExact? p.render.toList = some p := by
  have hx' : coordinate? (p.x.render.toList ++ (' ' :: (p.y.render.toList ++ [')']))) =
      some (p.x, ' ' :: (p.y.render.toList ++ [')'])) :=
    coordinate?_render hx (by rintro c ⟨⟩; exact .inl rfl)
  have hy' : coordinate? (p.y.render.toList ++ [')']) = some (p.y, [')']) :=
    coordinate?_render hy (by rintro c ⟨⟩; exact .inr rfl)
  have hword : ∀ rest, afterWord? ('P' :: 'O' :: 'I' :: 'N' :: 'T' :: rest) = some rest := by
    intro rest
    unfold afterWord?
    rw [if_pos]
    · rfl
    · show ['P', 'O', 'I', 'N', 'T'].map Char.toLower = _
      decide
  have hspace : ∀ rest, Unicode.trimStart (' ' :: rest) = Unicode.trimStart rest := by
    intro rest
    rw [Unicode.trimStart, List.dropWhile_cons_of_pos (by decide)]
    rfl
  have hparen : ∀ rest, Unicode.trimStart ('(' :: rest) = '(' :: rest := by
    intro rest
    rw [Unicode.trimStart, List.dropWhile_cons_of_neg (by decide)]
  have hclose : Unicode.trimStart [')'] = [')'] := by
    decide
  have hblank : Unicode.isBlank ' ' = true := by
    decide
  rw [toList_render]
  unfold readExact?
  simp only [hword, hspace, hparen, trimStart_render, hx', hy', hclose, bind, Option.bind,
    List.head?_cons, Option.any_some, hblank, if_true]

/-- A point reads back as itself. -/
theorem read?_render {p : Point} (hx : p.x.Signed) (hy : p.y.Signed) : read? p.render = some p := by
  have htrim : Unicode.trim p.render.toList = p.render.toList := by
    rw [toList_render]
    refine Unicode.trim_eq_self ?_ ?_
    · rintro c ⟨⟩
      decide
    · intro c hc
      rw [show ∀ a b : List Char, 'P' :: 'O' :: 'I' :: 'N' :: 'T' :: ' ' :: '(' ::
          (a ++ (' ' :: (b ++ [')']))) = ('P' :: 'O' :: 'I' :: 'N' :: 'T' :: ' ' :: '(' ::
          (a ++ (' ' :: b))) ++ [')'] by simp, List.getLast?_concat] at hc
      cases hc
      decide
  rw [read?, htrim, readExact?_render hx hy]

/-- What starts with a digit is no point. -/
theorem read?_of_digit {text : String} {c : Char} {cs : List Char}
    (h : Unicode.trim text.toList = c :: cs) (hc : c.isDigit = true) : read? text = none := by
  have hword : afterWord? (c :: cs) = none := by
    unfold afterWord?
    rw [if_neg]
    rw [List.take_succ_cons, List.map_cons]
    intro heq
    have hp : c.toLower = 'p' := (List.cons.inj heq).1
    rw [← isDigit_toLower, hp] at hc
    exact absurd hc (by decide)
  rw [read?, h, readExact?, hword]
  rfl

end Point

namespace Literal

/-! ## As literals -/

theorem ofQuoted_date {t : Timestamp} (h : t.Readable) : ofQuoted t.render = .date t := by
  obtain ⟨c, cs, hcs, hc⟩ := h.head_render
  rw [ofQuoted, Point.read?_of_digit (by rw [h.trim_render, hcs]) hc, h.read?_render]

theorem ofQuoted_point {p : Point} (hx : p.x.Signed) (hy : p.y.Signed) :
    ofQuoted p.render = .point p := by
  rw [ofQuoted, Point.read?_render hx hy]

theorem doubleQuotes_of_not_mem {text : List Char} (h : '\'' ∉ text) : doubleQuotes text = text := by
  induction text with
  | nil => rfl
  | cons c text ih =>
      rw [List.mem_cons, not_or] at h
      rw [doubleQuotes, if_neg (Ne.symm h.1), ih h.2]

/-- A text without quotes stands in quotes as it is. -/
theorem quoted_of_not_mem {text : String} (h : '\'' ∉ text.toList) :
    quoted text = "'" ++ text ++ "'" := by
  rw [quoted, doubleQuotes_of_not_mem h, String.ofList_toList]

/-- A sign that the text of a timestamp never has. -/
theorem not_mem_date (t : Timestamp) {c : Char} (hdigit : c.isDigit = false)
    (hmark : c ∉ ['+', '-', ' ', ':']) : c ∉ t.render.toList := by
  have hpadded : ∀ width n, c ∉ Digits.padded width n := fun width n h => by
    rw [Digits.isDigit_of_mem_padded h] at hdigit
    cases hdigit
  simp only [List.mem_cons, List.not_mem_nil, or_false, not_or] at hmark
  have hsign : c ∉ Timestamp.yearSign t.year := by
    unfold Timestamp.yearSign
    split
    · simp [hmark]
    · split <;> simp [hmark]
  rw [Timestamp.toList_render]
  simp [hpadded, hmark, hsign]

/-- A sign that the text of a decimal never has. -/
theorem not_mem_decimal (d : Decimal) {c : Char} (hdigit : c.isDigit = false) (hmark : c ∉ ['-', '.']) :
    c ∉ d.render.toList := by
  simp only [List.mem_cons, List.not_mem_nil, or_false, not_or] at hmark
  intro h
  rw [← d.text_numeral] at h
  rcases Numeral.mem_text_of_positional rfl h with h | h | h
  · rw [h] at hdigit
    cases hdigit
  · exact hmark.1 h
  · exact hmark.2 h

/-- A sign that the text of a point never has. -/
theorem not_mem_point (p : Point) {c : Char} (hdigit : c.isDigit = false)
    (hmark : c ∉ ['P', 'O', 'I', 'N', 'T', ' ', '(', ')', '.', '-']) : c ∉ p.render.toList := by
  simp only [List.mem_cons, List.not_mem_nil, or_false, not_or] at hmark
  have hdecimal : ∀ d : Decimal, c ∉ d.render.toList := fun d =>
    not_mem_decimal d hdigit (by simp [hmark])
  rw [Point.toList_render]
  simp [hdecimal, hmark]

theorem render_date (t : Timestamp) : (Literal.date t).render = quoted t.render :=
  (quoted_of_not_mem (not_mem_date t (by decide) (by decide))).symm

theorem render_point (p : Point) : (Literal.point p).render = quoted p.render :=
  (quoted_of_not_mem (not_mem_point p (by decide) (by decide))).symm

end Literal

end RecordQuery
