import RecordQuery.Proofs.Parameters.Substitution
/-!
# Literals in place of parameters

`p.instantiate ls` is the predicate with the literals `ls` written into it. On every record it decides
what `p` decides when it is given the values of these literals (`Predicate.holds_instantiate`).

The one place where a literal is not treated like its value is the right side of `LIKE`: there it is
compiled ahead, and only a pattern that is refused is met while a record is looked at. That makes no
difference (`Comparison.eval_like`) unless the literal is null, which as a value matches nothing, but as
a pattern has a text.
-/

namespace RecordQuery

variable {R : Type} {ls : List Literal}

namespace Expr

/-- What is written for a parameter: the literal of its number, or again the parameter if there are not
so many. -/
def supplied (ls : List Literal) (index : Nat) : Expr :=
  match ls[index]? with
  | some l => .literal l
  | none => .placeholder index

theorem supplied_of_getElem? {i : Nat} {l : Literal} (h : ls[i]? = some l) :
    supplied ls i = .literal l := by
  rw [supplied, h]

theorem supplied_of_length_le {i : Nat} (h : ls.length ≤ i) : supplied ls i = .placeholder i := by
  rw [supplied, List.getElem?_eq_none h]

theorem parameters_supplied {i : Nat} (h : i < ls.length) : (supplied ls i).parameters = [] := by
  rw [supplied_of_getElem? (List.getElem?_eq_getElem h)]
  rfl

/-- A literal is worth its value as a parameter. -/
theorem supplies_supplied (ls : List Literal) : Supplies R (supplied ls) [] (ls.map .ofLiteral) where
  ne_wildcard i := by
    unfold supplied
    split <;> exact Expr.noConfusion
  eval_eq i rows accessor := by
    rcases Nat.lt_or_ge i ls.length with h | h
    · rw [supplied_of_getElem? (List.getElem?_eq_getElem h), eval, Context.readParam,
        List.getElem?_map, List.getElem?_eq_getElem h]
      rfl
    · rw [supplied_of_length_le h, eval, Context.readParam, Context.readParam,
        List.getElem?_eq_none (Nat.zero_le i), List.getElem?_map, List.getElem?_eq_none h]
      rfl

/-- No parameter becomes null. -/
theorem substitute_supplied_ne_null (hnull : ∀ l ∈ ls, l ≠ .null) {e : Expr}
    (he : e ≠ .literal .null) : e.substitute (supplied ls) ≠ .literal .null := by
  cases e with
  | literal l => exact he
  | placeholder i =>
      rw [substitute, supplied]
      split
      next l hl =>
        intro h
        cases h
        exact hnull .null (List.mem_of_getElem? hl) rfl
      next => exact Expr.noConfusion
  | _ =>
      rw [substitute]
      exact Expr.noConfusion

end Expr

/-! ## Patterns -/

theorem Value.isNull_ofLiteral {l : Literal} (h : l ≠ .null) : (Value.ofLiteral l).isNull = false := by
  cases l with
  | null => exact absurd rfl h
  | _ => rfl

namespace Comparison

/-- Unless it is null, a pattern that is compiled ahead matches what it would match when it is evaluated
for every record. -/
theorem eval_like {left right : Expr} (h : right ≠ .literal .null) (ctx : Context R) :
    (⟨left, .like, right⟩ : Comparison).eval ctx = (do
      let v ← left.eval ctx
      if v.isNull then return false else matchLike v (← right.eval ctx)) := by
  unfold eval
  simp only [if_true]
  cases right with
  | literal l =>
      have hl : (Value.ofLiteral l).isNull = false :=
        Value.isNull_ofLiteral fun hnull => h (congrArg Expr.literal hnull)
      cases hpattern : Pattern.ofText? (Value.ofLiteral l).display with
      | none => simp only [pattern?, hpattern]
      | some p =>
          have hmatch : ∀ v, Except.ok (.ofLiteral l) >>= matchLike v = .ok (p.isMatch v.display) := by
            intro v
            change matchLike v (.ofLiteral l) = _
            rw [matchLike, hl, hpattern]
            rfl
          simp only [pattern?, hpattern, Expr.eval, hmatch]
          rfl
  | _ => rfl

/-- The comparison with literals for its parameters. -/
def instantiate (ls : List Literal) (c : Comparison) : Comparison :=
  c.substitute (Expr.supplied ls)

theorem eval_instantiate (hnull : ∀ l ∈ ls, l ≠ .null) (rows : List R) (accessor : Accessor R)
    (c : Comparison) :
    (c.instantiate ls).eval ⟨rows, accessor, []⟩ = c.eval ⟨rows, accessor, ls.map .ofLiteral⟩ := by
  have hvalue := fun e => Expr.eval_substitute (Expr.supplies_supplied ls) rows accessor e
  obtain ⟨left, op, right⟩ := c
  unfold instantiate substitute
  by_cases hop : op = .like
  · subst hop
    by_cases hright : right = .literal .null
    · -- the same pattern on both sides
      subst hright
      unfold eval
      simp only [hvalue, pattern?, Expr.substitute, Expr.eval]
    · rw [eval_like hright, eval_like (Expr.substitute_supplied_ne_null hnull hright)]
      simp only [hvalue]
  · unfold eval
    simp only [if_neg hop, hvalue]

end Comparison

/-! ## Predicates -/

namespace Predicate

/-- The predicate with literals for its parameters. -/
def instantiate (ls : List Literal) (p : Predicate) : Predicate :=
  p.substitute (Expr.supplied ls)

/-- Literals for all parameters leave none. -/
theorem hasPlaceholders_instantiate {p : Predicate} (h : ∀ i ∈ p.parameters, i < ls.length) :
    (p.instantiate ls).hasPlaceholders = false := by
  rw [hasPlaceholders_eq_false_iff, instantiate, parameters_substitute, List.flatMap_eq_nil_iff]
  exact fun i hi => Expr.parameters_supplied (h i hi)

theorem eval_instantiate (hnull : ∀ l ∈ ls, l ≠ .null) (rows : List R) (accessor : Accessor R)
    (p : Predicate) :
    (p.instantiate ls).eval ⟨rows, accessor, []⟩ = p.eval ⟨rows, accessor, ls.map .ofLiteral⟩ := by
  induction p with
  | always => rfl
  | comparison c => exact Comparison.eval_instantiate hnull rows accessor c
  | logic op left right ihl ihr =>
      unfold instantiate at ihl ihr ⊢
      cases op with
      | and => simp only [substitute, eval, ihl, ihr]
      | or => simp only [substitute, eval, ihl, ihr]

/-- **Parameters behave like literals.** Literals that are not null, one for every parameter, leave a
predicate without parameters that decides or fails on every record, however it is read, as the predicate
does with the values of the literals as parameters. -/
theorem holds_instantiate (p : Predicate) {ls : List Literal}
    (hcover : ∀ i ∈ p.parameters, i < ls.length) (hnull : ∀ l ∈ ls, l ≠ .null) :
    (p.instantiate ls).hasPlaceholders = false ∧
      ∀ (R : Type) (accessor : Accessor R) (record : R),
        (p.instantiate ls).holds accessor [] record =
          p.holds accessor (ls.map .ofLiteral) record :=
  ⟨hasPlaceholders_instantiate hcover, fun _ accessor record =>
    eval_instantiate hnull [record] accessor p⟩

/-- A pattern that is compiled ahead once its literal is known, beside a parameter that occurs under an
aggregate and in a list. -/
theorem holds_instantiate_of_like :
    ∃ pattern member : Comparison,
      pattern = ⟨.field ⟨none, "name"⟩, .like, .placeholder 0⟩ ∧
      member = ⟨.call "max" [.arith .add (.placeholder 1) (.field ⟨none, "age"⟩)], .isIn,
        .list [.placeholder 1, .literal (.integer 7)]⟩ ∧
      (pattern.instantiate [.string "a%", .integer 2]).pattern? = Pattern.ofText? "a%" ∧
      ((logic .and (.comparison pattern) (.comparison member)).instantiate
        [.string "a%", .integer 2]).hasPlaceholders = false ∧
      ∀ (R : Type) (accessor : Accessor R) (record : R),
        ((logic .and (.comparison pattern) (.comparison member)).instantiate
          [.string "a%", .integer 2]).holds accessor [] record =
        (logic .and (.comparison pattern) (.comparison member)).holds accessor
          [.string "a%", .integer 2] record :=
  ⟨_, _, rfl, rfl, rfl, holds_instantiate _ (by decide) (by simp)⟩

end Predicate

end RecordQuery
