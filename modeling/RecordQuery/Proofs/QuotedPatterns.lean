import RecordQuery.Proofs.FieldComparisons
import RecordQuery.Proofs.StoredPatterns
/-!
# Texts as patterns of their own

A text without open signs, in quotes behind `LIKE`, is a pattern for itself alone. But what stands in
quotes is typed first, and the pattern is the text of what it is typed as: a timestamp that was written
without its time, or a point with other spaces in it, is not the text that the record holds. So a text that
is short enough for a pattern is like itself exactly when it has, but for the case of letters, the form in
which its literal is shown (`Predicate.like_quoted_iff`).
-/

namespace RecordQuery

open Unicode

namespace Literal

/-- What a text in quotes can be typed as. -/
theorem ofQuoted_cases (s : String) :
    (∃ p, ofQuoted s = .point p) ∨ (∃ t, ofQuoted s = .date t) ∨ ofQuoted s = .string s := by
  fun_cases ofQuoted s with
  | case1 p _ => exact .inl ⟨p, rfl⟩
  | case2 _ t _ => exact .inr (.inl ⟨t, rfl⟩)
  | case3 => exact .inr (.inr rfl)

/-- `KeepsForm s` holds when a text in quotes has the form in which its literal is shown, but for the case
of letters: as a point and as a timestamp it is written in full. -/
def KeepsForm (s : String) : Prop :=
  (∀ p, ofQuoted s = .point p → SameButCase s p.render) ∧
    ∀ t, ofQuoted s = .date t → SameButCase s t.render

theorem keepsForm_iff {s : String} :
    KeepsForm s ↔ SameButCase s (Value.ofLiteral (ofQuoted s)).display := by
  obtain ⟨p, typed⟩ | ⟨t, typed⟩ | typed := ofQuoted_cases s <;>
    simp [KeepsForm, typed, Value.ofLiteral, Value.display, SameButCase]

/-- An open sign in the shown text of a literal was in the text that was typed. -/
theorem not_mem_shown {s : String} {c : Char} (hopen : c = '%' ∨ c = '_') (h : c ∉ s.toList) :
    c ∉ (Value.ofLiteral (ofQuoted s)).display.toList := by
  have hdigit : c.isDigit = false := by rcases hopen with rfl | rfl <;> rfl
  obtain ⟨p, typed⟩ | ⟨t, typed⟩ | typed := ofQuoted_cases s <;> rw [typed]
  · exact not_mem_point p hdigit (by rcases hopen with rfl | rfl <;> decide)
  · exact not_mem_date t hdigit (by rcases hopen with rfl | rfl <;> decide)
  · exact h

end Literal

namespace Predicate

open Literal

/-- On a record with the field, `LIKE` decides by the pattern that was made of the literal. -/
theorem holds_fieldAgainst_like {fields : List (String × Value)} {name : String} {v : Value}
    (h : Value.field? fields name = some v) (l : Literal) (params : List Value) :
    (fieldAgainst name .like l).holds .ofObjects params (.object fields) =
      Comparison.decideLike (Pattern.ofText? (Value.ofLiteral l).display) l v := by
  show (Accessor.ofObjects.get (.object fields) name >>= _) = _
  rw [Accessor.get_ofObjects h]
  rfl

/-- `TakenAsPattern s` holds when the pattern that a text in quotes stands for is not refused. -/
def TakenAsPattern (s : String) : Prop :=
  (Pattern.ofText? (Value.ofLiteral (ofQuoted s)).display).isSome = true

/-- A text without open signs that is taken as a pattern matches what is shown as its literal is. -/
theorem decideLike_quoted {s : String} (run : '%' ∉ s.toList) (one : '_' ∉ s.toList)
    (taken : TakenAsPattern s) (text : String) :
    ∃ b, Comparison.decideLike (Pattern.ofText? (Value.ofLiteral (ofQuoted s)).display) (ofQuoted s)
        (.string text) = .ok b ∧
      (b = true ↔ SameButCase text (Value.ofLiteral (ofQuoted s)).display) := by
  have run' := not_mem_shown (.inl rfl) run
  have one' := not_mem_shown (.inr rfl) one
  obtain ⟨p, made⟩ := Option.isSome_iff_exists.mp taken
  rw [made]
  refine ⟨p.isMatch text, rfl, ?_⟩
  rw [← Pattern.source_of_ofText? made] at run' one' ⊢
  exact Pattern.isMatch_iff_of_plain run' one'

/-- **Texts like themselves.** For a text without open signs that is taken as a pattern, a name, `LIKE` and
the text in quotes compile to a predicate that is decided on every record whose field holds the text; and it
holds there exactly when the text keeps the form of its literal. -/
theorem like_quoted_iff {name s : String} (hname : Lexer.IsName name) (run : '%' ∉ s.toList)
    (one : '_' ∉ s.toList) (taken : TakenAsPattern s) {fields : List (String × Value)}
    (hfield : Value.field? fields name = some (.string s)) (params : List Value) :
    ∃ p b, compile (name ++ " LIKE " ++ quoted s) = .ok p ∧
      p.holds .ofObjects params (.object fields) = .ok b ∧ (b = true ↔ KeepsForm s) := by
  have htext : name ++ " LIKE " ++ quoted s = comparisonText name .like (quoted s) := by
    simp [comparisonText, CompareOp.text, String.append_assoc]
  obtain ⟨b, hb, holds⟩ := decideLike_quoted run one taken s
  refine ⟨fieldAgainst name .like (ofQuoted s), b, ?_, ?_, holds.trans keepsForm_iff.symm⟩
  · rw [htext]
    exact compile_fieldAgainst_quoted hname .like s
  · rw [holds_fieldAgainst_like hfield]
    exact hb

/-- A point in lower case is like itself. -/
theorem like_quoted_of_point :
    Lexer.IsName "x" ∧ '%' ∉ "point (1 2)".toList ∧ '_' ∉ "point (1 2)".toList ∧
      TakenAsPattern "point (1 2)" ∧
      Value.field? [("x", .string "point (1 2)")] "x" = some (.string "point (1 2)") ∧
      ∃ p, compile ("x" ++ " LIKE " ++ quoted "point (1 2)") = .ok p ∧
        p.holds .ofObjects [] (.object [("x", .string "point (1 2)")]) = .ok true := by
  have run : '%' ∉ "point (1 2)".toList := by decide
  have one : '_' ∉ "point (1 2)".toList := by decide
  have taken : TakenAsPattern "point (1 2)" := by
    show Option.isSome _ = true
    decide +kernel
  have field : Value.field? [("x", .string "point (1 2)")] "x" = some (.string "point (1 2)") := rfl
  obtain ⟨p, b, compiled, decided, holds⟩ := like_quoted_iff Lexer.isName_x run one taken field []
  have kept : KeepsForm "point (1 2)" := keepsForm_iff.2 (by decide +kernel)
  rw [holds.2 kept] at decided
  exact ⟨Lexer.isName_x, run, one, taken, field, p, compiled, decided⟩

/-- A day without its time is not like itself. -/
theorem like_quoted_date_fails :
    ∃ p, compile "x LIKE '2017-07-07'" = .ok p ∧
      p.holds .ofObjects [] (.object [("x", .string "2017-07-07")]) = .ok false := by
  refine ⟨_, compile_fieldAgainst_quoted Lexer.isName_x .like "2017-07-07", ?_⟩
  rw [holds_fieldAgainst_like rfl]
  decide +kernel

end Predicate

end RecordQuery
