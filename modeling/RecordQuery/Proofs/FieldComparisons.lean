import RecordQuery.Proofs.Composition
/-!
# A field against a literal

A name, an operator and a literal, with spaces between, compile to the comparison of the field with what
the literal is typed as (`Predicate.compile_fieldAgainst`). On a record that has the field, the comparison
is decided by the value that stands there.
-/

namespace RecordQuery

/-- A key of an object is read before anything else is tried. -/
theorem Value.readField_of_field? {fields : List (String × Value)} {name : String} {v : Value}
    (h : Value.field? fields name = some v) : (Value.object fields).readField name = v := by
  simp [readField, lookup?, h]

theorem Accessor.get_ofObjects {fields : List (String × Value)} {name : String} {v : Value}
    (h : Value.field? fields name = some v) : Accessor.ofObjects.get (.object fields) name = .ok v :=
  congrArg Except.ok (Value.readField_of_field? h)

theorem Lexer.isName_x : Lexer.IsName "x" where
  word := ⟨by decide, List.all_eq_true.mp (by decide)⟩
  notKeyword := by decide
  notNumeral := by rintro c ⟨⟩; rfl

namespace Grammar

/-- The derivation of a primary that stands alone. -/
def Primary.alone (p : Primary) : Sum :=
  .mk (.mk (.primary p) .done) .done

theorem Primary.tokens_alone (p : Primary) : p.alone.tokens = p.tokens := by
  simp [Primary.alone, Sum.tokens, SumTail.tokens, Product.tokens, ProductTail.tokens, Factor.tokens]

theorem Primary.expr_alone (p : Primary) (n : Nat) : p.alone.expr n = p.expr n := by
  simp [Primary.alone, Sum.expr, SumTail.expr, Product.expr, ProductTail.expr, Factor.expr]

end Grammar

namespace Predicate

open Grammar Lexer

/-- The comparison of a field with a literal. -/
def fieldAgainst (name : String) (op : CompareOp) (l : Literal) : Predicate :=
  .comparison ⟨.field ⟨none, name⟩, op, .literal l⟩

/-- The text of a comparison, from those of its parts. -/
def comparisonText (name : String) (op : CompareOp) (literal : String) : String :=
  name ++ " " ++ op.text ++ " " ++ literal

/-! ## Text -/

/-- A name and a text that is derived as one literal compile to the comparison of the two. -/
theorem compile_fieldAgainst {name : String} (hname : IsName name) (op : CompareOp) {text : String}
    {p : Primary} {l : Literal} (hspells : Spells text.toList p.tokens)
    (htyped : ∀ n, p.expr n = .literal l)
    (hopen : p.tokens.head? ≠ some (.symbol .openParen)) :
    compile (comparisonText name op text) = .ok (fieldAgainst name op l) := by
  let field : Primary := .field name []
  let d : Chain := .mk (.compare field.alone op p.alone fun _ => p.tokens_alone.symm ▸ hopen) .done
  have htext : (comparisonText name op text).toList =
      name.toList ++ ' ' :: (op.text.toList ++ ' ' :: text.toList) := by
    simp [comparisonText]
  have htokens : d.tokens = [.identifier name] ++ operatorToken op :: p.tokens := by
    simp [d, field, Chain.tokens, ChainTail.tokens, Term.tokens, Primary.tokens_alone, Primary.tokens, dotted]
  have hd : Spells (comparisonText name op text).toList d.tokens := by
    rw [htext, htokens]
    exact (spells_name hname).binary (Comparison.operatorText op) hspells
  have hwritten : d.written 0 = fieldAgainst name op l := by
    simp [d, field, Chain.written, ChainTail.written, Term.written, Primary.expr_alone, htyped, Primary.expr,
      Reader.fieldOfNames, fieldAgainst]
  rw [compile_of_spells hd, hwritten]
  -- a field is no constant, so nothing is folded away
  rfl

theorem compile_fieldAgainst_numeral {name : String} (hname : IsName name) (op : CompareOp)
    (n : Numeral) :
    compile (comparisonText name op (String.ofList n.text)) =
      .ok (fieldAgainst name op (.ofText (String.ofList n.text))) := by
  refine compile_fieldAgainst hname op (p := .span (String.ofList n.text)) ?_ (fun _ => rfl)
    (by simp [Primary.tokens])
  rw [String.toList_ofList]
  exact spells_numeral n

theorem compile_fieldAgainst_quoted {name : String} (hname : IsName name) (op : CompareOp)
    (s : String) :
    compile (comparisonText name op (Literal.quoted s)) =
      .ok (fieldAgainst name op (.ofQuoted s)) :=
  compile_fieldAgainst hname op (p := .quoted s) (spells_quoted s) (fun _ => rfl)
    (by simp [Primary.tokens])

/-! ## Decision -/

/-- On a record with the field, all operators but `LIKE` compare the value with that of the literal. -/
theorem holds_fieldAgainst {fields : List (String × Value)} {name : String} {v : Value}
    (h : Value.field? fields name = some v) {op : CompareOp} (hop : op ≠ .like) (l : Literal)
    (params : List Value) :
    (fieldAgainst name op l).holds .ofObjects params (.object fields) =
      .ok (compareValues op v (.ofLiteral l)) := by
  show (Accessor.ofObjects.get (.object fields) name >>= _) = _
  rw [Accessor.get_ofObjects h]
  show (if op = .like then _ else _) = _
  rw [if_neg hop]
  rfl

end Predicate

end RecordQuery
