import RecordQuery.Proofs.Lexing.Enclosed
import RecordQuery.Proofs.Parameters.Numbering
import RecordQuery.Proofs.Parameters.Shift
import RecordQuery.Proofs.Printing.Predicates
/-!
# Predicates from predicates

Texts that compile to predicates on their own compile together, each in parentheses and with connectives
between them: to the predicates put together from left to right by `combine`, where the parameters of
each are numbered from where those in front of it stopped (`Predicate.compile_joinedText`).

The tokens of each text are the same between parentheses, and derive the same chain. So the whole is
derived by one chain whose terms are these chains in parentheses, and what that one means is found by
folding it term by term.
-/

namespace RecordQuery.Predicate

open Grammar Lexer Reader

/-! ## One text -/

/-- A text that compiles has a derivation. -/
theorem exists_chain_of_compile {text : String} {p : Predicate} (h : compile text = .ok p) :
    ∃ placed, tokenize text = .ok placed ∧ ∃ d : Chain, d.Derives placed ∧ d.predicate = p := by
  obtain ⟨placed, c', htokenize, hrun⟩ := exists_tokens_of_compile h
  obtain ⟨body, hbody, hlast⟩ := tokenize_ends htokenize
  have htokens := Cursor.tokens_ofTokens hbody
  obtain ⟨d, hd, hp⟩ := condition_sound (htokens.trans hbody) hlast hrun
  rw [Cursor.placeholders_ofTokens] at hp
  exact ⟨placed, htokenize, d, hd.trans htokens, hp⟩

/-- By its derivation a text is read between parentheses too. -/
theorem exists_derivation_of_compile {text : String} {p : Predicate} (h : compile text = .ok p) :
    ∃ d : Chain, Enclosable text.toList d.tokens ∧ (d.written 0).fold = p := by
  obtain ⟨placed, htokenize, d, hd, hp⟩ := exists_chain_of_compile h
  exact ⟨d, enclosable_of_tokenize htokenize hd.symm, hp⟩

/-- A text that is spelt by the tokens of a chain compiles to what the chain folds to. -/
theorem compile_of_spells {text : String} {d : Chain} (h : Spells text.toList d.tokens) :
    compile text = .ok (d.written 0).fold := by
  obtain ⟨placed, htokenize, hbody⟩ := tokenize_of_spells h
  obtain ⟨c', hrun, -, -⟩ := condition_complete ((Cursor.tokens_ofTokens hbody).trans hbody)
  rw [Cursor.placeholders_ofTokens] at hrun
  rw [compile_of_tokenize htokenize, runFrom_eq_ok]
  exact ⟨c', hrun⟩

theorem length_parameters_fold (d : Chain) :
    (d.written 0).fold.parameters.length = d.placeholders := by
  rw [parameters_fold, d.parameters_written, List.length_range']

/-! ## Texts in parentheses -/

/-- A text in parentheses. -/
def grouped (text : String) : String :=
  "(" ++ text ++ ")"

theorem spells_grouped {text : String} {d : Chain} (h : Enclosable text.toList d.tokens) :
    Spells (grouped text).toList (Term.group d).tokens := by
  have htext : (grouped text).toList = '(' :: (text.toList ++ [')']) := by simp [grouped]
  rw [htext]
  exact h.group

/-- A text that follows others: the connective in front of it, and what the text compiles to on its
own. -/
structure Operand where
  op : LogicOp
  text : String
  predicate : Predicate

/-- A text with others behind it, each in parentheses and with its connective in front. -/
def joinedText (text : String) : List Operand → String
  | [] => text
  | o :: others => joinedText (text ++ " " ++ o.op.text ++ " " ++ grouped o.text) others

/-- A predicate with `n` parameters and others behind it, put together from left to right. The parameters
of each are numbered from where those in front of it stopped. -/
def joined (n : Nat) (left : Predicate) : List Operand → Predicate
  | [] => left
  | o :: others =>
    joined (n + o.predicate.parameters.length) (combine o.op left (o.predicate.shift n)) others

/-- Behind a text that is spelt by a chain, the others make the chain longer. The induction is on the
texts, and each adds one term. -/
theorem exists_chain_of_joinedText {others : List Operand}
    (hothers : ∀ o ∈ others, compile o.text = .ok o.predicate) {text : String} {d : Chain}
    (h : Spells text.toList d.tokens) :
    ∃ d' : Chain, Spells (joinedText text others).toList d'.tokens ∧
      (d'.written 0).fold = joined d.placeholders (d.written 0).fold others := by
  induction others generalizing text d with
  | nil => exact ⟨d, h, rfl⟩
  | cons o others ih =>
      rw [List.forall_mem_cons] at hothers
      obtain ⟨e, henclosable, he⟩ := exists_derivation_of_compile hothers.1
      have hspells : Spells (text ++ " " ++ o.op.text ++ " " ++ grouped o.text).toList
          (d.snoc o.op (.group e)).tokens := by
        have htext : (text ++ " " ++ o.op.text ++ " " ++ grouped o.text).toList =
            text.toList ++ ' ' :: (o.op.text.toList ++ ' ' :: (grouped o.text).toList) := by
          simp
        rw [htext, Chain.tokens_snoc]
        exact h.binary (operatorText_connective o.op) (spells_grouped henclosable)
      obtain ⟨d', hspells', hd'⟩ := ih hothers.2 hspells
      refine ⟨d', hspells', ?_⟩
      -- the term is what its text means on its own, behind the parameters of the chain
      have hterm : ((Term.group e).written d.placeholders).fold = o.predicate.shift d.placeholders := by
        rw [Term.written, ← he, ← fold_shift, ← e.written_add, Nat.add_zero]
      rw [hd', joined, Chain.placeholders_snoc, Chain.written_snoc, fold, Nat.zero_add, hterm,
        Term.placeholders, ← he, length_parameters_fold]

theorem compile_grouped_joinedText {first : String} {p : Predicate} (hfirst : compile first = .ok p)
    {others : List Operand} (hothers : ∀ o ∈ others, compile o.text = .ok o.predicate) :
    compile (joinedText (grouped first) others) = .ok (joined p.parameters.length p others) := by
  obtain ⟨d, henclosable, hd⟩ := exists_derivation_of_compile hfirst
  have hspells : Spells (grouped first).toList (Chain.mk (.group d) .done).tokens := by
    rw [Chain.tokens, ChainTail.tokens, List.append_nil]
    exact spells_grouped henclosable
  obtain ⟨d', hspells', hd'⟩ := exists_chain_of_joinedText hothers hspells
  rw [compile_of_spells hspells', hd', ← hd, length_parameters_fold]
  rfl

/-- **Composition.** Texts that compile on their own, the first with the others behind it, each in
parentheses, compile to the predicate that is put together of theirs. In particular any number of
parentheses around a text changes nothing. -/
theorem compile_joinedText {first : String} {p : Predicate} (hfirst : compile first = .ok p)
    {others : List Operand} (hothers : ∀ o ∈ others, compile o.text = .ok o.predicate) :
    compile (joinedText (grouped first) others) = .ok (joined p.parameters.length p others) ∧
      ∀ k, compile (grouped^[k] first) = .ok p := by
  refine ⟨compile_grouped_joinedText hfirst hothers, fun k => ?_⟩
  induction k generalizing first with
  | zero => exact hfirst
  | succ k ih =>
      -- parentheses around one text are the case without others
      have hgrouped : compile (joinedText (grouped first) []) =
          .ok (joined p.parameters.length p []) :=
        compile_grouped_joinedText hfirst (List.forall_mem_nil _)
      rw [Function.iterate_succ_apply]
      exact ih hgrouped

/-- A text that starts with a sign and ends in a blank, behind one with a parameter. -/
theorem compile_joinedText_of_two :
    ∃ p q, compile "a.x < ? OR 'b' = a.y" = .ok p ∧ compile "-1 <> a.z + ? " = .ok q ∧
      compile "(a.x < ? OR 'b' = a.y) AND (-1 <> a.z + ? )" = .ok (combine .and p (q.shift 1)) ∧
      compile "((a.x < ? OR 'b' = a.y))" = .ok p := by
  have hcheck : (match compile "a.x < ? OR 'b' = a.y", compile "-1 <> a.z + ? " with
      | .ok p, .ok _ => decide (p.parameters.length = 1)
      | _, _ => false) = true := by decide +kernel
  split at hcheck
  next p q hp hq =>
    have hothers : ∀ o ∈ [Operand.mk .and "-1 <> a.z + ? " q], compile o.text = .ok o.predicate :=
      List.forall_mem_singleton.mpr hq
    obtain ⟨hjoined, hgrouped⟩ := compile_joinedText hp hothers
    rw [of_decide_eq_true hcheck] at hjoined
    exact ⟨p, q, hp, hq, hjoined, hgrouped 2⟩
  next => cases hcheck

end RecordQuery.Predicate
