import RecordQuery.Proofs.FieldComparisons
import RecordQuery.Proofs.Value.Keys
import RecordQuery.Proofs.Value.Symmetry
/-!
# Texts equal to a literal in quotes

What stands in quotes behind `=` is typed as a point, as a timestamp or as a text, and a text in a record is
compared with it by what the text can be read as. So two texts are equal in this way when they are the same,
or both are read as one timestamp or as one point (`Predicate.equal_quoted_iff`).

The literal is tried as a point first. That loses nothing, because no text is read as both: a point starts
with a letter and a timestamp with a digit (`Point.read?_of_timestamp`).
-/

namespace RecordQuery

/-! ## What texts are read as -/

theorem Timestamp.exists_digit {text : String} {t : Timestamp} (h : read? text = some t) :
    ∃ c cs, Unicode.trim text.toList = c :: cs ∧ c.isDigit = true := by
  unfold read? readExact? at h
  obtain ⟨⟨year, rest⟩, hyear, -⟩ := Option.bind_eq_some_iff.mp h
  obtain ⟨number, hnumber, -⟩ := Option.bind_eq_some_iff.mp hyear
  unfold Digits.natural? at hnumber
  cases htext : Unicode.trim text.toList with
  | nil =>
      rw [htext] at hnumber
      cases hnumber
  | cons c cs =>
      refine ⟨c, cs, rfl, ?_⟩
      split at hnumber
      next hdigits =>
        rw [htext, List.take_succ_cons, List.all_cons, Bool.and_eq_true, Bool.and_eq_true] at hdigits
        exact hdigits.2.1
      next => cases hnumber

/-- What is read as a timestamp is no point. -/
theorem Point.read?_of_timestamp {text : String} {t : Timestamp} (h : Timestamp.read? text = some t) :
    read? text = none := by
  obtain ⟨c, cs, htext, hc⟩ := Timestamp.exists_digit h
  exact read?_of_digit htext hc

/-- The parts of a timestamp are the digits of its place in time. -/
theorem Timestamp.orderKey_injective : Function.Injective orderKey := by
  intro s t h
  have hs := s.day_le_31
  have ht := t.day_le_31
  have hs' := s.nanosecond_lt
  have ht' := t.nanosecond_lt
  cases s
  cases t
  simp only [orderKey, nanosecondsPerSecond, mk.injEq] at h hs ht hs' ht' ⊢
  omega

theorem Timestamp.compare_eq_iff {s t : Timestamp} : s.compare t = .eq ↔ s = t := by
  rw [compare, compare_eq_iff_eq, orderKey_injective.eq_iff]

/-- `p.IsAt q` holds when the points have the same coordinates, as numbers. -/
def Point.IsAt (p q : Point) : Prop :=
  p.x.toRat = q.x.toRat ∧ p.y.toRat = q.y.toRat

theorem Point.sameValue_iff {p q : Point} : p.sameValue q = true ↔ p.IsAt q := by
  rw [sameValue, Bool.and_eq_true, Decimal.sameValue, Decimal.sameValue, beq_iff_eq, beq_iff_eq,
    Decimal.compare_eq_iff, Decimal.compare_eq_iff]
  exact Iff.rfl

/-! ## One text against another -/

/-- `ReadAlike s t` holds for texts that are the same, or are both read as one timestamp or as one point. -/
def ReadAlike (s t : String) : Prop :=
  s = t ∨ (∃ d, Timestamp.read? s = some d ∧ Timestamp.read? t = some d) ∨
    ∃ p q, Point.read? s = some p ∧ Point.read? t = some q ∧ p.IsAt q

namespace Value

theorem agrees_point_iff {s t : String} {p : Point} (h : Point.read? s = some p) :
    (string t).agrees (point p) = true ↔ ReadAlike s t := by
  have hpoint : (string t).agrees (point p) = true ↔ ∃ q, Point.read? t = some q ∧ p.IsAt q := by
    show (Point.read? t).any (fun q => q.sameValue p) = true ↔ _
    rw [Option.any_eq_true]
    refine exists_congr fun q => and_congr_right fun _ => ?_
    rw [Point.sameValue_comm, Point.sameValue_iff]
  rw [hpoint]
  constructor
  · rintro ⟨q, hq, hat⟩
    exact .inr (.inr ⟨p, q, h, hq, hat⟩)
  · rintro (rfl | ⟨d, hd, -⟩ | ⟨p', q, hp', hq, hat⟩)
    · exact ⟨p, h, rfl, rfl⟩
    · rw [Point.read?_of_timestamp hd] at h
      cases h
    · obtain rfl := Option.some.inj (h.symm.trans hp')
      exact ⟨q, hq, hat⟩

theorem agrees_date_iff {s t : String} {d : Timestamp} (h : Timestamp.read? s = some d) :
    (string t).agrees (date d) = true ↔ ReadAlike s t := by
  have hdate : (string t).agrees (date d) = true ↔ Timestamp.read? t = some d := by
    show (((Timestamp.read? t).map fun v => v.compare d) == some .eq) = true ↔ _
    rw [beq_iff_eq, Option.map_eq_some_iff]
    constructor
    · rintro ⟨v, hv, heq⟩
      rw [hv, Timestamp.compare_eq_iff.mp heq]
    · intro hd
      exact ⟨d, hd, Timestamp.compare_eq_iff.mpr rfl⟩
  rw [hdate]
  constructor
  · intro hd
    exact .inr (.inl ⟨d, h, hd⟩)
  · rintro (rfl | ⟨d', hd', ht⟩ | ⟨p, q, hp, -, -⟩)
    · exact h
    · rw [ht, ← hd', h]
    · rw [Point.read?_of_timestamp h] at hp
      cases hp

theorem agrees_string_iff {s t : String} (hpoint : Point.read? s = none)
    (hdate : Timestamp.read? s = none) : (string t).agrees (string s) = true ↔ ReadAlike s t := by
  have hsame : (string t).agrees (string s) = true ↔ s = t := by
    show (some (Ord.compare t s) == some Ordering.eq) = true ↔ _
    rw [beq_iff_eq, Option.some.injEq, Std.LawfulEqOrd.compare_eq_iff_eq, eq_comm]
  rw [hsame]
  constructor
  · exact .inl
  · rintro (rfl | ⟨d, hd, -⟩ | ⟨p, q, hp, -, -⟩)
    · rfl
    · rw [hdate] at hd
      cases hd
    · rw [hpoint] at hp
      cases hp

/-- A text agrees with what another is typed as in quotes when the two are read alike. -/
theorem agrees_ofQuoted_iff (s t : String) :
    (string t).agrees (.ofLiteral (.ofQuoted s)) = true ↔ ReadAlike s t := by
  fun_cases Literal.ofQuoted s with
  | case1 p hp => exact agrees_point_iff hp
  | case2 hp d hd => exact agrees_date_iff hd
  | case3 hp hd => exact agrees_string_iff hp hd

end Value

namespace Predicate

/-- **Equal texts.** A name, `=` and a text in quotes compile to a predicate that is decided on every record
whose field holds a text; and it holds exactly when the two texts are the same, or are both read as one
timestamp or as one point. -/
theorem equal_quoted_iff {name : String} (hname : Lexer.IsName name) (s t : String)
    {fields : List (String × Value)} (hfield : Value.field? fields name = some (.string t))
    (params : List Value) :
    ∃ p b, compile (name ++ " = " ++ Literal.quoted s) = .ok p ∧
      p.holds .ofObjects params (.object fields) = .ok b ∧
      (b = true ↔ s = t ∨ (∃ d, Timestamp.read? s = some d ∧ Timestamp.read? t = some d) ∨
        ∃ p q, Point.read? s = some p ∧ Point.read? t = some q ∧ p.IsAt q) := by
  have htext : name ++ " = " ++ Literal.quoted s = comparisonText name .equal (Literal.quoted s) := by
    simp [comparisonText, CompareOp.text, String.append_assoc]
  refine ⟨fieldAgainst name .equal (.ofQuoted s), _, ?_, holds_fieldAgainst hfield (by decide) _ params, ?_⟩
  · rw [htext]
    exact compile_fieldAgainst_quoted hname .equal s
  · rw [compareValues_equal]
    exact Value.agrees_ofQuoted_iff s t

/-- A point is equal to itself with other spaces and decimal places. -/
theorem equal_quoted_of_point :
    Lexer.IsName "x" ∧ Value.field? [("x", .string "point(1.0  2)")] "x" = some (.string "point(1.0  2)") ∧
      ∃ p, compile ("x" ++ " = " ++ Literal.quoted "POINT (1 2)") = .ok p ∧
        p.holds .ofObjects [] (.object [("x", .string "point(1.0  2)")]) = .ok true := by
  have hfield : Value.field? [("x", .string "point(1.0  2)")] "x" = some (.string "point(1.0  2)") := rfl
  obtain ⟨p, b, hcompile, hholds, hb⟩ := equal_quoted_iff Lexer.isName_x "POINT (1 2)" _ hfield []
  have halike : ReadAlike "POINT (1 2)" "point(1.0  2)" :=
    (Value.agrees_ofQuoted_iff _ _).mp (by decide +kernel)
  rw [hb.mpr halike] at hholds
  exact ⟨Lexer.isName_x, hfield, p, hcompile, hholds⟩

end Predicate

end RecordQuery
