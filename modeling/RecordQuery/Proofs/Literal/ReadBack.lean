import RecordQuery.Proofs.Literal.Reread
import RecordQuery.Proofs.Literal.Uuid
import RecordQuery.Proofs.Lexing.Spelling
import RecordQuery.Proofs.Grammar.Basic
/-!
# Literals read back

Every literal that a text is typed as is printed as one operand, which is typed as `Literal.reread` says
(`Literal.Readable.readsAs`). That is the same literal again but for two kinds (`Literal.Kept`): a decimal
without decimal places, which is printed with one, and a binary number in the decimal range, whose text is
that of a decimal.
-/

namespace RecordQuery

open Grammar Lexer

namespace Literal

/-- `l.Kept` holds for the literals that keep their type and their scale when they are printed. -/
def Kept : Literal → Prop
  | .decimal d => d.scale ≠ 0
  | .float x => exceedsDecimal x = true
  | _ => True

instance : DecidablePred Kept
  | .decimal d => inferInstanceAs (Decidable (d.scale ≠ 0))
  | .float x => inferInstanceAs (Decidable (exceedsDecimal x = true))
  | .null | .integer _ | .uuid _ | .date _ | .point _ | .string _ => isTrue trivial

/-- What is kept is read again as it is. -/
theorem Readable.reread_of_kept {l : Literal} (h : l.Readable) (hkept : l.Kept) : l.reread = l := by
  cases l with
  | decimal d => exact reread_decimal h hkept
  | float x => exact (reread_float h).trans (if_pos hkept)
  | _ => rfl

/-- `l.ReadsAs l'` holds when the text of `l` is an operand that stands for `l'`. -/
def ReadsAs (l l' : Literal) : Prop :=
  ∃ p : Primary, (∀ n, p.expr n = .literal l') ∧ p.placeholders = 0 ∧
    Spells l.render.toList p.tokens ∧ p.tokens.head? ≠ some (.symbol .openParen)

theorem readsAs_of_numeral {l : Literal} {n : Numeral} (htext : l.render.toList = n.text) :
    l.ReadsAs (ofText l.render) := by
  refine ⟨.span l.render, fun _ => rfl, rfl, ?_, fun h => by cases h⟩
  have hspells := spells_numeral n
  rw [← htext, String.ofList_toList] at hspells
  exact hspells

theorem readsAs_of_quoted {l : Literal} {text : String} (htext : l.render = quoted text)
    (h : ofQuoted text = l) : l.ReadsAs l := by
  refine ⟨.quoted text, fun _ => ?_, rfl, ?_, fun h => by cases h⟩
  · rw [Primary.expr, h]
  · rw [htext]
    exact spells_quoted text

/-- Every readable literal is printed as an operand. -/
theorem Readable.readsAs {l : Literal} (h : l.Readable) : l.ReadsAs l.reread := by
  cases l with
  | null => exact ⟨.null, fun _ => rfl, rfl, spells_keyword .NULL, fun h => by cases h⟩
  | integer n =>
      have hreads := readsAs_of_numeral (l := .integer n) (Numeral.text_ofInt n.toInt).symm
      rwa [show ofText (integer n).render = .integer n from ofText_integer n] at hreads
  | decimal d =>
      by_cases hscale : d.scale = 0
      · exact readsAs_of_numeral (Decimal.text_wholeNumeral hscale)
      · refine readsAs_of_numeral (n := d.numeral) ?_
        rw [d.text_numeral]
        show (decimalText d).toList = _
        rw [decimalText, if_neg hscale]
  | float x =>
      obtain ⟨n, htext, -, -⟩ := exists_numeral h
      exact readsAs_of_numeral htext
  | uuid u =>
      refine ⟨.span u.render, fun _ => ?_, rfl, ?_, fun h => by cases h⟩
      · rw [Primary.expr, ofText_uuid]
        rfl
      · have hspells := spells_uuid u.isGrouped_render.1
        rwa [String.ofList_toList] at hspells
  | date t => exact readsAs_of_quoted (render_date t) (ofQuoted_date h)
  | point p => exact readsAs_of_quoted (render_point p) (ofQuoted_point h.1 h.2)
  | string s => exact readsAs_of_quoted rfl h

end Literal

end RecordQuery
