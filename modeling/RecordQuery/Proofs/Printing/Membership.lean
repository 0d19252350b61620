import RecordQuery.Proofs.Composition
import RecordQuery.Proofs.Results
/-!
# Membership read again

Behind `IN` an opening parenthesis always starts a list, and the printer puts parentheses around the first
operand of a product with no regard to that. The two meet in arithmetic whose text starts with a parenthesis,
as that of `-a * b` does, which is printed as `(0 - a) * b`. Behind `IN` such a text is read as a list with
something behind it that no list goes on with, so it has no derivation (`Grammar.Chain.ne_membership`) and is
not read at all (`Comparison.not_compiles_of_not_bare`).

Every other comparison with `IN` is read again, as the comparison with its literals read again
(`Predicate.compile_render_of_bare`). That is an equal one when each literal survives, unless it is one of
constants that with these literals holds, and is folded away (`Predicate.compile_render_isIn`).
-/

namespace RecordQuery

open Grammar Lexer

namespace Lexer

/-- A text that starts with a parenthesis is read as one, if anything is read. -/
theorem head?_of_reads_open {prev prev' : Option Token} {d d' : Nat} {text text' : List Char}
    {ts : List Token} (h : Reads prev d ('(' :: text) ts prev' d' text') (hne : ts ≠ []) :
    ts.head? = some (.symbol .openParen) := by
  cases h with
  | refl => contradiction
  | blank hc _ => exact absurd hc (by decide)
  | token hfront _ _ _ _ =>
      cases hfront
      rfl

theorem Spells.head?_of_open {text : List Char} {ts : List Token} (h : Spells text ts) (hne : ts ≠ [])
    (hopen : text.head? = some '(') : ts.head? = some (.symbol .openParen) := by
  obtain ⟨prev', hreads, -⟩ := h.reads none 0 [] operandStart_none delimited_nil
  cases text with
  | nil => cases hopen
  | cons c text =>
      cases hopen
      exact head?_of_reads_open hreads hne

end Lexer

namespace Grammar

/-- A sum that starts with a parenthesis, and is more than a sum in parentheses, goes on behind the closing
one with an operator. -/
theorem Sum.exists_operator_of_open {s : Sum} (hgroup : s.isGroup = false)
    (hopen : s.tokens.head? = some (.symbol .openParen)) : ∃ (g : Sum) (t : Token) (ts : List Token),
      s.tokens = .symbol .openParen :: (g.tokens ++ .symbol .closeParen :: t :: ts) ∧
        extendsSum t = true := by
  obtain ⟨u, us, hs, -⟩ := s.tokens_eq_cons
  rw [hs] at hopen
  obtain rfl : u = .symbol .openParen := Option.some.inj hopen
  rw [← List.append_nil s.tokens] at hs
  obtain ⟨g, pt, st, rfl⟩ := Sum.eq_group_of_open hs
  cases pt with
  | more op right tail =>
      refine ⟨g, op.token, right.tokens ++ tail.tokens ++ st.tokens, ?_, by cases op <;> rfl⟩
      simp [Sum.tokens, Product.tokens, Factor.tokens, Primary.tokens, ProductTail.tokens]
  | done =>
      cases st with
      | done => cases hgroup
      | more op right tail =>
          refine ⟨g, op.token, right.tokens ++ tail.tokens, ?_, op.extends_token⟩
          simp [Sum.tokens, Product.tokens, Factor.tokens, Primary.tokens, ProductTail.tokens,
            SumTail.tokens]

theorem extendsSum_connectiveToken (op : LogicOp) : extendsSum (connectiveToken op) = false := by
  cases op <;> rfl

/-- Behind the list of an `IN` no operator follows, so what is in parentheses there is not an operand. -/
theorem Chain.ne_membership {d : Chain} {left g : Sum} {t : Token} {r ts : List Token}
    (hr : Stops extendsChain r) (ht : extendsSum t = true) : d.tokens ++ r ≠ left.tokens ++
      .keyword .IN :: .symbol .openParen :: (g.tokens ++ .symbol .closeParen :: t :: ts) := by
  intro h
  obtain ⟨first, tail⟩ := d
  rw [Chain.tokens, List.append_assoc] at h
  have hin : Stops extendsSum (.keyword .IN :: .symbol .openParen ::
      (g.tokens ++ .symbol .closeParen :: t :: ts)) := stops_cons.mpr rfl
  cases first with
  | group inner => exact Term.group_ne_sum h
  | compare left' op right hright =>
      rw [Term.tokens, List.append_assoc] at h
      obtain ⟨rfl, hop⟩ := Sum.unique left' left h (stops_cons.mpr (extendsSum_operatorToken op)) hin
      obtain ⟨hop, hopen⟩ := List.cons.inj hop
      -- behind `IN` an operand does not start with a parenthesis
      obtain ⟨u, us, hu, -⟩ := right.tokens_eq_cons
      rw [hu] at hopen
      apply hright (operatorToken_inj hop)
      rw [hu, (List.cons.inj hopen).1]
      rfl
  | isIn left' items =>
      rw [Term.tokens, List.append_assoc] at h
      obtain ⟨rfl, hlist⟩ := Sum.unique left' left h (stops_cons.mpr rfl) hin
      have hitems : items.tokens ++ .symbol .closeParen :: (tail.tokens ++ r) =
          (Items.last g).tokens ++ .symbol .closeParen :: t :: ts := by
        simpa [Items.tokens] using hlist
      -- the list ends where the operand does, and there the operator stands
      obtain ⟨-, hrest⟩ := Items.unique hitems
      cases tail with
      | done => exact (hr.mono extendsSum_of_chain).ne_cons ht hrest
      | more op right tail =>
          have hop := (List.cons.inj hrest).1
          rw [← hop, extendsSum_connectiveToken] at ht
          cases ht

end Grammar

namespace Predicate

open Reader

/-- What a text compiles to is derived again from its own text. -/
theorem rereads_of_compile {text : String} {p : Predicate} (h : compile text = .ok p) :
    ∃ k, p.Rereads 0 k := by
  obtain ⟨placed, htokenize, d, hd, rfl⟩ := exists_chain_of_compile h
  have hundotted := undotted_of_tokenize htokenize
  rw [← hd] at hundotted
  exact ⟨d.placeholders, (d.rereads 0 hundotted).1⟩

/-- A predicate that has been read is read again from its text, with its literals as they are printed, if no
arithmetic behind `IN` starts with a parenthesis. -/
theorem compile_render_of_bare {text : String} {p : Predicate} (h : compile text = .ok p)
    (hbare : p.Bare) : compile p.render = .ok p.reread.fold := by
  obtain ⟨k, hrereads⟩ := rereads_of_compile h
  obtain ⟨d, hd, -, hspells⟩ := (hrereads.printsAs hbare).chain
  rw [compile_of_spells hspells, hd]

end Predicate

namespace Comparison

open Reader

theorem not_bare_iff {c : Comparison} : ¬c.Bare ↔
    c.op = .isIn ∧ c.right.isArith = true ∧ c.right.render.toList.head? = some '(' := by
  unfold Bare
  simp only [Classical.not_imp, not_not]

/-- The text of a comparison that is not bare has an operand in parentheses behind `IN`, and an operator
behind it. -/
theorem Derived.spells_of_not_bare {c : Comparison} (h : c.Derived) (hbare : ¬c.Bare) :
    ∃ (left g : Grammar.Sum) (t : Token) (ts : List Token), extendsSum t = true ∧
      Spells c.render.toList (left.tokens ++
        .keyword .IN :: .symbol .openParen :: (g.tokens ++ .symbol .closeParen :: t :: ts)) := by
  obtain ⟨hop, harith, hopen⟩ := not_bare_iff.mp hbare
  obtain ⟨n, k, hleft⟩ := h.left
  obtain ⟨left, -, -, hspells, -⟩ := hleft.sum
  obtain ⟨n, k, hright⟩ : ∃ n k, c.right.Rereads n k := by
    refine h.right.resolve_right ?_
    rintro ⟨items, n, k, heq, -⟩
    rw [heq] at harith
    cases harith
  obtain ⟨right, -, -, hspells', hgroup, -⟩ := hright.sum
  have hhead := hspells'.head?_of_open (List.length_pos_iff.mp right.length_tokens_pos) hopen
  obtain ⟨g, t, ts, htokens, ht⟩ := right.exists_operator_of_open hgroup hhead
  refine ⟨left, g, t, ts, ht, ?_⟩
  rw [toList_render, ← htokens, hop]
  exact hspells.binary (operatorText .isIn) hspells'

/-- A comparison that is not bare is not read again. -/
theorem Derived.not_compiles_of_not_bare {c : Comparison} (h : c.Derived) (hbare : ¬c.Bare)
    (p : Predicate) : Predicate.compile c.render ≠ .ok p := by
  intro hcompile
  obtain ⟨left, g, t, ts, ht, hspells⟩ := h.spells_of_not_bare hbare
  obtain ⟨placed, htokenize, htokens⟩ := tokenize_of_spells hspells
  obtain ⟨placed', htokenize', d, hd, -⟩ := Predicate.exists_chain_of_compile hcompile
  obtain rfl : placed = placed' := Except.ok.inj (htokenize.symm.trans htokenize')
  have hall : d.tokens ++ [.endOfInput] = left.tokens ++ .keyword .IN :: .symbol .openParen ::
      (g.tokens ++ .symbol .closeParen :: t :: (ts ++ [.endOfInput])) := by
    rw [hd, htokens]
    simp
  exact d.ne_membership (stops_cons.mpr rfl) ht hall

theorem isConstant_reread (c : Comparison) : c.reread.isConstant = c.isConstant := by
  unfold isConstant reread
  rw [c.left.isConstant_reread, c.right.isConstant_reread]

/-- A comparison with `IN` is read again as an equal one exactly when each of its literals is. -/
theorem reread_beq_iff {c : Comparison} (h : c.op = .isIn) :
    (c.reread == c) = true ↔ ∀ l ∈ c.literals, (l.reread == l) = true := by
  obtain ⟨left, op, right⟩ := c
  cases h
  rw [literals, List.forall_mem_append, ← left.reread_beq_iff, ← right.reread_beq_iff,
    ← Bool.and_eq_true]
  show (left.reread == left && true && right.reread == right && true) = true ↔ _
  rw [Bool.and_true, Bool.and_true]

/-- What a comparison is read as is that comparison, unless it is one of constants that holds. -/
theorem predicateOf_beq_iff {c c' : Comparison} : (predicateOf c == .comparison c') = true ↔
    (c == c') = true ∧ (c.isConstant = true → c.constantTruth? ≠ some true) := by
  unfold predicateOf
  by_cases hholds : (c.isConstant && c.constantTruth? == some true) = true
  · rw [if_pos hholds]
    rw [Bool.and_eq_true, beq_iff_eq] at hholds
    refine iff_of_false Bool.false_ne_true ?_
    rintro ⟨-, hnot⟩
    exact hnot hholds.1 hholds.2
  · rw [if_neg hholds]
    rw [Bool.and_eq_true, beq_iff_eq, not_and] at hholds
    exact ⟨fun heq => ⟨heq, hholds⟩, fun h => h.1⟩

end Comparison

namespace Predicate

open Reader

/-- **Membership read again.** A comparison with `IN` compiles again from its own text exactly when no
arithmetic behind `IN` starts with a parenthesis, and to an equal comparison exactly when besides its literals
survive and it is not one of constants that holds with them. -/
theorem compile_render_isIn {text : String} {c : Comparison} (h : compile text = .ok (.comparison c))
    (hop : c.op = .isIn) :
    ((∃ p, compile c.render = .ok p) ↔ c.Bare) ∧
      ((∃ p, compile c.render = .ok p ∧ (p == .comparison c) = true) ↔
        c.Bare ∧ (∀ l ∈ c.literals, l.Survives) ∧
          (c.isConstant = true → c.reread.constantTruth? ≠ some true)) := by
  obtain ⟨k, hrereads⟩ := rereads_of_compile h
  have hmem : c ∈ (comparison c).comparisons := List.mem_singleton.mpr rfl
  have hderived := hrereads.derived c hmem
  have hcompile : c.Bare → compile c.render = .ok (predicateOf c.reread) := by
    intro hbare
    have hread := compile_render_of_bare h fun c' hc' => by rwa [List.mem_singleton.mp hc']
    rwa [render, reread, fold] at hread
  have hbare : ∀ p, compile c.render = .ok p → c.Bare := by
    intro p hp
    by_contra hnot
    exact hderived.not_compiles_of_not_bare hnot p hp
  have hequal : (predicateOf c.reread == .comparison c) = true ↔ (∀ l ∈ c.literals, l.Survives) ∧
      (c.isConstant = true → c.reread.constantTruth? ≠ some true) := by
    rw [Comparison.predicateOf_beq_iff, Comparison.reread_beq_iff hop, c.isConstant_reread]
    refine and_congr_left fun _ => forall₂_congr fun l hl => ?_
    exact (hderived.readable l hl).reread_beq_iff
  refine ⟨⟨?_, fun hb => ⟨_, hcompile hb⟩⟩, ?_, ?_⟩
  · rintro ⟨p, hp⟩
    exact hbare p hp
  · rintro ⟨p, hp, heq⟩
    have hb := hbare p hp
    rw [hcompile hb] at hp
    rw [← Except.ok.inj hp] at heq
    exact ⟨hb, hequal.mp heq⟩
  · rintro ⟨hb, hsurvive⟩
    exact ⟨_, hcompile hb, hequal.mpr hsurvive⟩

/-- A test of the comparison that a text compiles to. -/
def passesComparison (test : Comparison → Bool) (text : String) : Bool :=
  passes (fun p => match p with
    | .comparison c => test c
    | _ => false) (compile text)

theorem exists_of_passesComparison {test : Comparison → Bool} {text : String}
    (h : passesComparison test text = true) :
    ∃ c, compile text = .ok (.comparison c) ∧ test c = true := by
  obtain ⟨p, hp, htest⟩ := passes_iff.mp h
  split at htest
  next c => exact ⟨c, hp, htest⟩
  next => cases htest

/-- A sum behind `IN` that starts with a negation, and so with no parenthesis. -/
theorem compile_render_isIn_of_sum : ∃ c, compile "x * (y - 1) IN -a + 2.50 * b" = .ok (.comparison c) ∧
    c.op = .isIn ∧ c.render = "x * (y - 1) IN 0 - a + 2.50 * b" ∧
      ∃ p, compile c.render = .ok p ∧ (p == .comparison c) = true := by
  have hcheck : passesComparison (fun c => decide (c.op = .isIn ∧
      c.render = "x * (y - 1) IN 0 - a + 2.50 * b" ∧ c.right.render.toList.head? ≠ some '(' ∧
        (∀ l ∈ c.literals, l.Survives) ∧ c.isConstant = false))
      "x * (y - 1) IN -a + 2.50 * b" = true := by
    decide +kernel
  obtain ⟨c, hcompile, htest⟩ := exists_of_passesComparison hcheck
  obtain ⟨hop, hrender, hhead, hsurvive, hconstant⟩ := of_decide_eq_true htest
  refine ⟨c, hcompile, hop, hrender, (compile_render_isIn hcompile hop).2.mpr ⟨?_, hsurvive, ?_⟩⟩
  · exact fun _ _ => hhead
  · rw [hconstant]
    exact fun h => absurd h Bool.false_ne_true

/-- A product behind `IN` that starts with a negation: its text has a parenthesis where a list would start,
and does not compile. -/
theorem not_compile_render_isIn : ∃ c, compile "x IN -a * b" = .ok (.comparison c) ∧ c.op = .isIn ∧
    c.render = "x IN (0 - a) * b" ∧ ∀ p, compile c.render ≠ .ok p := by
  have hcheck : passesComparison (fun c => decide (c.op = .isIn ∧ c.render = "x IN (0 - a) * b"))
      "x IN -a * b" = true := by
    decide +kernel
  have hnone : passes (fun _ => true) (compile "x IN (0 - a) * b") = false := by
    decide +kernel
  obtain ⟨c, hcompile, htest⟩ := exists_of_passesComparison hcheck
  obtain ⟨hop, hrender⟩ := of_decide_eq_true htest
  refine ⟨c, hcompile, hop, hrender, fun p hp => ?_⟩
  rw [hrender] at hp
  rw [hp] at hnone
  cases hnone

end Predicate

end RecordQuery
