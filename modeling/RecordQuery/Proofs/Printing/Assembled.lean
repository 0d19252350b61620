import RecordQuery.Proofs.Composition
import RecordQuery.Proofs.Results
/-!
# Predicates put together by hand

A predicate need not come of one text. Whoever holds predicates that were read can put them together
with a connective, which folds nothing away (`Predicate.logic`), or with `Predicate.combine`, in any
order and to any depth. Such a tree may have what always holds inside a connective, and connectives on
the right of others, neither of which a text without parentheses is ever read as.

Its text still compiles, and what it compiles to is the tree with every connective put together again
from the leaves up (`Predicate.rebuild`). What always holds is printed as a comparison that does, and is
folded away with the connective around it; a connective on the right stands in parentheses. A tree that
was read is its own rebuilding (`Predicate.rebuild_fold`).

Parameters are left out here: each part numbers its own from zero, and the text of the whole would number
them on.
-/

namespace RecordQuery.Predicate

open Grammar Lexer Reader

/-! ## Rebuilding -/

/-- The predicate with every connective put together again by `combine`, from the leaves up. -/
def rebuild : Predicate → Predicate
  | .always => .always
  | .comparison c => .comparison c
  | .logic op left right => combine op left.rebuild right.rebuild

theorem rebuild_predicateOf (c : Comparison) : (predicateOf c).rebuild = predicateOf c := by
  unfold predicateOf
  split <;> rfl

/-- Rebuilding leaves what `combine` gives as it is, if it leaves the sides as they are. -/
theorem rebuild_combine {op : LogicOp} {left right : Predicate} (hl : left.rebuild = left)
    (hr : right.rebuild = right) : (combine op left right).rebuild = combine op left right := by
  rcases combine_cases op left right with h | ⟨-, h⟩ | ⟨-, h⟩ | ⟨-, -, h⟩
  · rw [h, rebuild, hl, hr, h]
  · rw [h, hr]
  · rw [h, hl]
  · rw [h, rebuild]

/-- What has been folded has nothing left to put together again. -/
theorem rebuild_fold (p : Predicate) : p.fold.rebuild = p.fold := by
  induction p with
  | always => rfl
  | comparison c => exact rebuild_predicateOf c
  | logic op left right ihl ihr => exact rebuild_combine ihl ihr

/-! ## Trees -/

/-- The literals of a predicate, from left to right. -/
def literals (p : Predicate) : List Literal :=
  p.comparisons.flatMap Comparison.literals

/-- A predicate that a text without parameters compiles to, and that printing keeps: its decimals have
decimal places, its binary numbers are outside the decimal range, and no arithmetic behind `IN` starts
with a parenthesis. -/
structure ReadPlainly (p : Predicate) : Prop where
  compiled : ∃ text placed, tokenize text = .ok placed ∧
    .placeholder ∉ placed.map PlacedToken.token ∧ compile text = .ok p
  decimal : ∀ d, .decimal d ∈ p.literals → d.scale ≠ 0
  float : ∀ x, .float x ∈ p.literals → Literal.exceedsDecimal x = true
  isIn : ∀ c ∈ p.comparisons, c.op = .isIn → c.right.isArith = true →
    c.right.render.toList.head? ≠ some '('

/-- The predicates that are put together from ones that were read, by bare connectives and by `combine`,
in any order and to any depth. -/
inductive Assembled : Predicate → Prop
  | read {p : Predicate} (h : p.ReadPlainly) : Assembled p
  | logic (op : LogicOp) {left right : Predicate} (hl : Assembled left) (hr : Assembled right) :
      Assembled (.logic op left right)
  | combine (op : LogicOp) {left right : Predicate} (hl : Assembled left) (hr : Assembled right) :
      Assembled (combine op left right)

theorem ReadPlainly.kept {p : Predicate} (h : p.ReadPlainly) : p.Kept := by
  intro c hc
  refine ⟨fun l hl => ?_, h.isIn c hc⟩
  have hmem : l ∈ p.literals := List.mem_flatMap.mpr ⟨c, hc, hl⟩
  cases l with
  | decimal d => exact h.decimal d hmem
  | float x => exact h.float x hmem
  | _ => trivial

/-- A predicate that was read is its own rebuilding, and prints as itself. -/
theorem ReadPlainly.printsAs {p : Predicate} (h : p.ReadPlainly) : PrintsAs 0 0 p p.rebuild := by
  obtain ⟨text, placed, htokenize, hnone, hcompile⟩ := h.compiled
  obtain ⟨placed', htokenize', d, hd, rfl⟩ := exists_chain_of_compile hcompile
  obtain rfl : placed = placed' := Except.ok.inj (htokenize.symm.trans htokenize')
  have hundotted := undotted_of_tokenize htokenize
  rw [← hd] at hundotted
  have hprints := (d.prints 0 hundotted).1
  -- every parameter is a question mark among the tokens, and there is none
  have hzero : d.placeholders = 0 := by
    rw [← d.count_tokens, List.count_eq_zero]
    intro hmem
    apply hnone
    rw [← hd]
    exact List.mem_append_left _ hmem
  rw [hzero] at hprints
  rw [Chain.predicate, rebuild_fold]
  exact hprints.printsAs h.kept

/-- The text of a tree is derived with its rebuilding as the meaning. The induction is on how the tree
was put together: the chain that is printed so far is the left side of the next connective. -/
theorem Assembled.printsAs {p : Predicate} (h : p.Assembled) : PrintsAs 0 0 p p.rebuild := by
  induction h with
  | read h => exact h.printsAs
  | logic op _ _ ihl ihr => exact ihl.logic op ihr
  | @combine op left right _ _ ihl ihr =>
      -- `combine` gives the connective, one of the sides, or what always holds
      rcases combine_cases op left right with h | ⟨-, h⟩ | ⟨-, h⟩ | ⟨-, -, h⟩
      · rw [h]
        exact ihl.logic op ihr
      · rw [h]
        exact ihr
      · rw [h]
        exact ihl
      · rw [h]
        exact (prints_always 0).printsAs fun c hc => by cases hc

/-- **Trees put together by hand.** The text of a tree compiles, to the tree with every connective put
together again from the leaves up. -/
theorem compile_render_of_assembled {p : Predicate} (h : p.Assembled) :
    compile p.render = .ok p.rebuild := by
  obtain ⟨d, hd, -, hspells⟩ := h.printsAs.chain
  rw [compile_of_spells hspells, hd]

/-- A tree with what always holds inside a conjunction, and with connectives on the right of others, one
of them put together by `combine`. -/
theorem compile_render_of_nested :
    ∃ p q r, compile "a.n LIKE '?%'" = .ok p ∧ compile "1 <> a.x OR a.y < -2.50" = .ok q ∧
      compile "2 > 1" = .ok r ∧
      ∃ t, t = Predicate.logic .or p (.logic .and (.logic .or q r) (combine .or q p)) ∧
        t.render = "a.n LIKE '?%' OR (1 <> a.x OR a.y < -2.50 OR 1 = 1 AND " ++
          "(1 <> a.x OR a.y < -2.50 OR a.n LIKE '?%'))" ∧
        compile t.render = .ok t.rebuild ∧
        t.rebuild.render = "a.n LIKE '?%' OR (1 <> a.x OR a.y < -2.50 OR a.n LIKE '?%')" := by
  have hcheck : passes (fun p => passes (fun q => passes (fun r =>
        let t := Predicate.logic .or p (.logic .and (.logic .or q r) (combine .or q p))
        decide ((∀ u ∈ [p, q, r], (∀ l ∈ u.literals, l.Kept) ∧ ∀ c ∈ u.comparisons, c.op ≠ .isIn) ∧
          t.render = "a.n LIKE '?%' OR (1 <> a.x OR a.y < -2.50 OR 1 = 1 AND " ++
            "(1 <> a.x OR a.y < -2.50 OR a.n LIKE '?%'))" ∧
          t.rebuild.render = "a.n LIKE '?%' OR (1 <> a.x OR a.y < -2.50 OR a.n LIKE '?%')"))
      (compile "2 > 1")) (compile "1 <> a.x OR a.y < -2.50")) (compile "a.n LIKE '?%'") = true := by
    decide +kernel
  have htokens : ∀ text ∈ ["a.n LIKE '?%'", "1 <> a.x OR a.y < -2.50", "2 > 1"],
      passes (fun placed => decide (.placeholder ∉ placed.map PlacedToken.token)) (tokenize text) =
        true := by
    decide +kernel
  simp only [passes_iff, decide_eq_true_eq, List.forall_mem_cons] at hcheck htokens
  obtain ⟨p, hp, q, hq, r, hr, ⟨hkp, hkq, hkr, -⟩, hrender, hrebuild⟩ := hcheck
  obtain ⟨⟨ps, hps, hnp⟩, ⟨qs, hqs, hnq⟩, ⟨rs, hrs, hnr⟩, -⟩ := htokens
  have hread : ∀ {text ts u}, tokenize text = .ok ts → .placeholder ∉ ts.map PlacedToken.token →
      compile text = .ok u → (∀ l ∈ u.literals, l.Kept) ∧ (∀ c ∈ u.comparisons, c.op ≠ .isIn) →
        u.Assembled := by
    intro text ts u htokenize hnone hcompile ⟨hkept, hop⟩
    refine .read ⟨⟨text, ts, htokenize, hnone, hcompile⟩, fun d hd => ?_, fun x hx => ?_, ?_⟩
    · exact hkept _ hd
    · exact hkept _ hx
    · exact fun c hc his => absurd his (hop c hc)
  have hp' := hread hps hnp hp hkp
  have hq' := hread hqs hnq hq hkq
  have hr' := hread hrs hnr hr hkr
  exact ⟨p, q, r, hp, hq, hr, _, rfl, hrender, compile_render_of_assembled
    (.logic .or hp' (.logic .and (.logic .or hq' hr') (.combine .or hq' hp'))), hrebuild⟩

end RecordQuery.Predicate
