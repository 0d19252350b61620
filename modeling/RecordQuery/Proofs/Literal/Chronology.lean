import RecordQuery.Proofs.Number.Width
import RecordQuery.Proofs.QuotedEquality
import Mathlib.Data.String.Basic
/-!
# Timestamps in texts

A text is read as a timestamp when it is the text of that timestamp or, at midnight, of its day, whatever
white space is around it (`Timestamp.read?_eq_some_iff`); so there is none for a day that the calendar has
not, and none for a time that no day has. The parts of a timestamp that was read stand in its text from the
longest to the shortest, each with a width of its own, so that the order of the texts is the order in time
(`Timestamp.precedes_iff_render`).
-/

namespace RecordQuery.Timestamp

/-! ## The texts of a timestamp -/

/-- The day of a timestamp. -/
def dayText (t : Timestamp) : List Char :=
  Digits.padded 4 t.year.natAbs ++ '-' :: (Digits.padded 2 t.month ++ '-' :: Digits.padded 2 t.day)

/-- `t.IsMidnight` holds at the first second of a day. -/
def IsMidnight (t : Timestamp) : Prop :=
  t.hour = 0 ∧ t.minute = 0 ∧ t.clockSecond = 0

/-- `t.WrittenAs text` holds for the text of a timestamp with a year of four digits, on the stroke of a
second, and for the text of its day at midnight. -/
def WrittenAs (t : Timestamp) (text : List Char) : Prop :=
  t.Readable ∧ (text = t.render.toList ∨ text = t.dayText ∧ t.IsMidnight)

/-! ## What is read -/

variable {t : Timestamp}

/-- A field that is read is a number filled up to its width. -/
theorem exists_field {α : Type} {width : Nat} {text : List Char} {f : Nat × List Char → Option α} {a : α}
    (h : (field? width text).bind f = some a) :
    ∃ n rest, text = Digits.padded width n ++ rest ∧ f (n, rest) = some a := by
  obtain ⟨⟨n, rest⟩, hfield, h⟩ := Option.bind_eq_some_iff.mp h
  obtain ⟨m, hnumber, hfield⟩ := Option.bind_eq_some_iff.mp hfield
  obtain ⟨hne, hdigits, hvalue⟩ := Digits.natural?_eq_some_iff.mp hnumber
  refine ⟨n, rest, ?_, h⟩
  split at hfield
  next hlength =>
    cases hfield
    have hpadded := Digits.padded_value hdigits hne
    rw [hlength, hvalue] at hpadded
    rw [hpadded, List.take_append_drop]
  next => cases hfield

/-- So is one behind a separator. -/
theorem exists_fieldAfter {α : Type} {c : Char} {text : List Char} {f : Nat × List Char → Option α}
    {a : α} (h : ((after? c text).bind fun behind => (field? 2 behind).bind f) = some a) :
    ∃ n rest, text = c :: (Digits.padded 2 n ++ rest) ∧ f (n, rest) = some a := by
  obtain ⟨behind, hafter, h⟩ := Option.bind_eq_some_iff.mp h
  obtain ⟨n, rest, htext, h⟩ := exists_field h
  refine ⟨n, rest, ?_, h⟩
  rw [← htext]
  unfold after? at hafter
  split at hafter
  · split at hafter
    next heq => rw [Option.some.inj hafter, heq]
    next => cases hafter
  · cases hafter

theorem ofParts?_eq_some {year month day hour minute second : Nat}
    (h : ofParts? year month day hour minute second = some t) :
    t.year.natAbs = year ∧ t.month = month ∧ t.day = day ∧ t.hour = hour ∧ t.minute = minute ∧
      t.clockSecond = second := by
  unfold ofParts? at h
  split at h
  next hparts =>
    cases h
    refine ⟨rfl, rfl, rfl, rfl, rfl, ?_⟩
    have hsecond := hparts.2.2.2.2.2.2.2
    show min second 59 + (second - 59) * nanosecondsPerSecond / nanosecondsPerSecond = second
    unfold nanosecondsPerSecond
    omega
  next => cases h

/-- What is read as a timestamp is the text of one, or of its day. -/
theorem text_of_readExact? {text : List Char} (h : readExact? text = some t) :
    text = t.render.toList ∨ text = t.dayText ∧ t.IsMidnight := by
  unfold readExact? at h
  obtain ⟨year, behindYear, hyear, h⟩ := exists_field h
  obtain ⟨month, behindMonth, hmonth, h⟩ := exists_fieldAfter h
  obtain ⟨day, behindDay, hday, h⟩ := exists_fieldAfter h
  simp only at h
  split at h
  next hend =>
    obtain ⟨rfl, rfl, rfl, hhour, hminute, hsecond⟩ := ofParts?_eq_some h
    rw [List.isEmpty_iff] at hend
    refine .inr ⟨?_, hhour, hminute, hsecond⟩
    rw [hyear, hmonth, hday, hend, List.append_nil]
    rfl
  next =>
    obtain ⟨hour, behindHour, hhour, h⟩ := exists_fieldAfter h
    obtain ⟨minute, behindMinute, hminute, h⟩ := exists_fieldAfter h
    obtain ⟨second, behindSecond, hsecond, h⟩ := exists_fieldAfter h
    simp only at hminute hsecond h
    split at h
    next hend =>
      obtain ⟨rfl, rfl, rfl, rfl, rfl, rfl⟩ := ofParts?_eq_some h
      rw [List.isEmpty_iff] at hend
      refine .inl ?_
      rw [hyear, hmonth, hday, hhour, hminute, hsecond, hend, toList_render,
        (readable_of_ofParts? h).yearSign, List.nil_append]
    next => cases h

theorem Readable.readExact?_dayText (h : t.Readable) (hmidnight : t.IsMidnight) :
    readExact? t.dayText = some t := by
  have hmonth : t.month < tenPow 2 := Nat.lt_of_le_of_lt t.month_le (by decide)
  have htwo : 0 < 2 := by decide
  have hday := field?_padded htwo t.day_lt []
  rw [List.append_nil] at hday
  have hparts := h.ofParts?_parts
  rw [hmidnight.1, hmidnight.2.1, hmidnight.2.2] at hparts
  unfold readExact? dayText
  simp only [field?_padded (show 0 < 4 by decide) h.natAbs_year_lt, field?_padded htwo hmonth, hday,
    after?, if_true, bind, Option.bind, List.isEmpty_nil]
  exact hparts

/-- A text is read as a timestamp exactly when it is written as that timestamp. -/
theorem read?_eq_some_iff {text : String} :
    read? text = some t ↔ t.WrittenAs (Unicode.trim text.toList) := by
  refine ⟨fun h => ⟨readable_of_read? h, text_of_readExact? h⟩, ?_⟩
  rintro ⟨hreadable, h | ⟨h, hmidnight⟩⟩
  · rw [read?, h, hreadable.readExact?_render]
  · rw [read?, h, hreadable.readExact?_dayText hmidnight]

/-! ## Order -/

variable {s : Timestamp}

/-- `s.Precedes t` holds when the first part in which the two differ is smaller in `s`. -/
def Precedes (s t : Timestamp) : Prop :=
  s.year < t.year ∨ s.year = t.year ∧ (s.month < t.month ∨ s.month = t.month ∧
    (s.day < t.day ∨ s.day = t.day ∧ (s.hour < t.hour ∨ s.hour = t.hour ∧
      (s.minute < t.minute ∨ s.minute = t.minute ∧ s.clockSecond < t.clockSecond))))

/-- The place of a timestamp on the stroke of a second. -/
theorem IsWhole.orderKey (h : t.IsWhole) : t.orderKey =
    (((((t.year * 13 + t.month) * 32 + t.day) * 24 + t.hour) * 60 + t.minute) * 60 +
      (min t.clockSecond 59 : Nat)) * (2 * nanosecondsPerSecond : Nat) +
      ((t.clockSecond - 59) * nanosecondsPerSecond : Nat) := by
  rw [← h.of_clockSecond.1, ← h.of_clockSecond.2]
  rfl

theorem precedes_iff_orderKey (hs : s.IsWhole) (ht : t.IsWhole) :
    s.Precedes t ↔ s.orderKey < t.orderKey := by
  have hsmonth := s.month_le
  have hsday := s.day_le_31
  have hshour := s.hour_lt
  have hsminute := s.minute_lt
  have hssecond := hs.clockSecond_le
  have htmonth := t.month_le
  have htday := t.day_le_31
  have hthour := t.hour_lt
  have htminute := t.minute_lt
  have htsecond := ht.clockSecond_le
  rw [hs.orderKey, ht.orderKey]
  unfold Precedes nanosecondsPerSecond
  omega

theorem precedes_iff_render (hs : s.Readable) (ht : t.Readable) :
    s.Precedes t ↔ s.render < t.render := by
  have hmonth : ∀ t : Timestamp, t.month < tenPow 2 := fun t =>
    Nat.lt_of_le_of_lt t.month_le (by decide)
  have hhour : ∀ t : Timestamp, t.hour < tenPow 2 := fun t => Nat.lt_trans t.hour_lt (by decide)
  have hminute : ∀ t : Timestamp, t.minute < tenPow 2 := fun t => Nat.lt_trans t.minute_lt (by decide)
  have htwo : 0 < 2 := by decide
  have hsyear := hs.year_nonneg
  have htyear := ht.year_nonneg
  have hlt : s.year < t.year ↔ s.year.natAbs < t.year.natAbs := by omega
  have heq : s.year = t.year ↔ s.year.natAbs = t.year.natAbs := by omega
  rw [String.lt_iff_toList_lt, toList_render, toList_render, hs.yearSign, ht.yearSign, List.nil_append,
    List.nil_append,
    Digits.padded_append_lt_iff (by decide) hs.natAbs_year_lt ht.natAbs_year_lt, List.cons_lt_cons_self,
    Digits.padded_append_lt_iff htwo (hmonth s) (hmonth t), List.cons_lt_cons_self,
    Digits.padded_append_lt_iff htwo s.day_lt t.day_lt, List.cons_lt_cons_self,
    Digits.padded_append_lt_iff htwo (hhour s) (hhour t), List.cons_lt_cons_self,
    Digits.padded_append_lt_iff htwo (hminute s) (hminute t), List.cons_lt_cons_self,
    Digits.padded_append_lt_iff htwo s.clockSecond_lt t.clockSecond_lt]
  simp only [List.lt_irrefl, and_false, or_false]
  rw [Precedes, hlt, heq]

theorem compare_eq_lt_iff (hs : s.Readable) (ht : t.Readable) :
    s.compare t = .lt ↔ s.render < t.render := by
  rw [compare, compare_lt_iff_lt, ← precedes_iff_orderKey hs.whole ht.whole, precedes_iff_render hs ht]

theorem compare_eq_gt_iff (hs : s.Readable) (ht : t.Readable) :
    s.compare t = .gt ↔ t.render < s.render := by
  rw [compare, compare_gt_iff_gt, ← precedes_iff_orderKey ht.whole hs.whole, precedes_iff_render ht hs]

/-- **Timestamps as texts.** A text that is not written as a timestamp is read as none: not one of the two
forms, or no day of the calendar, or no time of a day. What two texts are read as comes back from its own
text; and the two are earlier, the same or later exactly when their texts are smaller, the same or greater,
character by character. -/
theorem kept_by_text (text other : String) :
    (read? text = none ↔ ∀ t : Timestamp, ¬t.WrittenAs (Unicode.trim text.toList)) ∧
    ∀ d e : Timestamp, read? text = some d → read? other = some e →
      read? d.render = some d ∧
      (d.compare e = .lt ↔ d.render < e.render) ∧
      (d.compare e = .eq ↔ d.render = e.render) ∧ (d = e ↔ d.render = e.render) ∧
      (d.compare e = .gt ↔ e.render < d.render) := by
  constructor
  · rw [Option.eq_none_iff_forall_ne_some]
    exact forall_congr' fun t => not_congr read?_eq_some_iff
  · intro d e hd he
    have hd := readable_of_read? hd
    have he := readable_of_read? he
    have hequal : d = e ↔ d.render = e.render :=
      ⟨congrArg render, eq_of_render hd.whole he.whole⟩
    exact ⟨hd.read?_render, compare_eq_lt_iff hd he, compare_eq_iff.trans hequal, hequal,
      compare_eq_gt_iff hd he⟩

/-- A leap day at its midnight, and the last second of the year before with a second more than it has. -/
theorem kept_by_text_of_leap :
    ∃ d e : Timestamp, read? " 2024-02-29" = some d ∧ read? "2023-12-31 23:59:60" = some e ∧
      read? d.render = some d ∧ d.compare e = .gt ∧ e.render < d.render := by
  obtain ⟨d, hd⟩ := Option.isSome_iff_exists.mp
    (show (read? " 2024-02-29").isSome = true by decide)
  obtain ⟨e, he⟩ := Option.isSome_iff_exists.mp
    (show (read? "2023-12-31 23:59:60").isSome = true by decide)
  obtain ⟨hback, -, -, -, hlater⟩ := (kept_by_text _ _).2 d e hd he
  have hgt : d.compare e = .gt := by
    have hcompared : (read? " 2024-02-29").bind (fun d =>
        (read? "2023-12-31 23:59:60").map d.compare) = some .gt := by decide
    rw [hd, he] at hcompared
    exact Option.some.inj hcompared
  exact ⟨d, e, hd, he, hback, hgt, hlater.mp hgt⟩

end RecordQuery.Timestamp
