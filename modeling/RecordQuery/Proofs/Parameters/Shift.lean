import RecordQuery.Proofs.Parameters.Substitution
import RecordQuery.Proofs.Grammar.Basic
/-!
# Parameters behind others

A text that stands behind others has its parameters numbered from where these stopped. `p.shift k` is the
predicate `p` with every number greater by `k`, and this is what a derivation means behind `k` parameters
more (`Grammar.Chain.written_add`). Folding looks at no number, so it makes no difference whether the
numbers are raised before or after it (`Predicate.fold_shift`).
-/

namespace RecordQuery

/-! ## Raising the numbers -/

namespace Expr

/-- What a parameter becomes behind `k` others. -/
def behind (k index : Nat) : Expr :=
  .placeholder (k + index)

/-- The expression with the numbers of its parameters greater by `k`. -/
def shift (k : Nat) (e : Expr) : Expr :=
  e.substitute (behind k)

mutual

theorem isConstant_shift (k : Nat) : (e : Expr) →
    (e.substitute (behind k)).isConstant = e.isConstant
  | .literal _ => rfl
  | .field _ => rfl
  | .placeholder _ => rfl
  | .list items => by rw [substitute, isConstant, isConstant, areConstant_shift k items]
  | .wildcard => rfl
  | .call name args => by rw [substitute, isConstant, isConstant, areConstant_shift k args]
  | .arith op left right => by
      rw [substitute, isConstant, isConstant, isConstant_shift k left, isConstant_shift k right]

theorem areConstant_shift (k : Nat) : (es : List Expr) →
    areConstant (substituteAll (behind k) es) = areConstant es
  | [] => rfl
  | e :: rest => by
      rw [substituteAll, areConstant, areConstant, isConstant_shift k e, areConstant_shift k rest]

end

end Expr

namespace Comparison

/-- The comparison with the numbers of its parameters greater by `k`. -/
def shift (k : Nat) (c : Comparison) : Comparison :=
  c.substitute (Expr.behind k)

theorem isConstant_shift (k : Nat) (c : Comparison) : (c.shift k).isConstant = c.isConstant := by
  rw [isConstant, isConstant, shift, substitute, Expr.isConstant_shift, Expr.isConstant_shift]

theorem shift_of_isConstant (k : Nat) {c : Comparison} (h : c.isConstant = true) : c.shift k = c := by
  rw [isConstant, Bool.and_eq_true] at h
  rw [shift, substitute, Expr.substitute_of_isConstant h.1, Expr.substitute_of_isConstant h.2]

end Comparison

namespace Predicate

/-- The predicate with the numbers of its parameters greater by `k`. -/
def shift (k : Nat) (p : Predicate) : Predicate :=
  p.substitute (Expr.behind k)

theorem isAlways_shift (k : Nat) (p : Predicate) : (p.shift k).isAlways = p.isAlways := by
  cases p <;> rfl

theorem parameters_shift (k : Nat) (p : Predicate) :
    (p.shift k).parameters = p.parameters.map (k + ·) := by
  rw [shift, parameters_substitute, List.map_eq_flatMap]
  rfl

theorem hasPlaceholders_shift (k : Nat) (p : Predicate) :
    (p.shift k).hasPlaceholders = p.hasPlaceholders := by
  have hnone : (p.shift k).hasPlaceholders = false ↔ p.hasPlaceholders = false := by
    rw [hasPlaceholders_eq_false_iff, hasPlaceholders_eq_false_iff, parameters_shift,
      List.map_eq_nil_iff]
  cases hp : p.hasPlaceholders with
  | false => exact hnone.mpr hp
  | true =>
      rw [← Bool.not_eq_false, hnone, hp]
      exact Bool.noConfusion

/-! ## Folding -/

theorem predicateOf_shift (k : Nat) (c : Comparison) :
    Reader.predicateOf (c.shift k) = (Reader.predicateOf c).shift k := by
  unfold Reader.predicateOf
  rw [c.isConstant_shift k]
  cases hc : c.isConstant with
  | true =>
      rw [Comparison.shift_of_isConstant k hc]
      split
      · rfl
      · exact congrArg comparison (Comparison.shift_of_isConstant k hc).symm
  | false => rfl

theorem combine_shift (k : Nat) (op : LogicOp) (p q : Predicate) :
    combine op (p.shift k) (q.shift k) = (combine op p q).shift k := by
  cases op with
  | and => cases p <;> cases q <;> rfl
  | or =>
      simp only [combine, isAlways_shift, hasPlaceholders_shift]
      split
      · rfl
      · split
        · rfl
        · rfl

theorem fold_shift (k : Nat) (p : Predicate) : (p.shift k).fold = p.fold.shift k := by
  induction p with
  | always => rfl
  | comparison c => exact predicateOf_shift k c
  | logic op left right ihl ihr =>
      rw [fold, ← combine_shift, ← ihl, ← ihr]
      rfl

end Predicate

/-! ## Derivations behind other parameters -/

namespace Grammar

mutual

/-- Behind `k` parameters more, an expression has its numbers greater by `k`. -/
theorem Sum.expr_add (k n : Nat) : (s : Sum) → s.expr (k + n) = (s.expr n).shift k
  | .mk first tail => by
      rw [Sum.expr, Sum.expr, first.expr_add k n, Nat.add_assoc, tail.expr_add]

theorem SumTail.expr_add (k n : Nat) (left : Expr) : (t : SumTail) →
    t.expr (k + n) (left.shift k) = (t.expr n left).shift k
  | .done => rfl
  | .more op right tail => by
      rw [SumTail.expr, SumTail.expr, right.expr_add k n, Nat.add_assoc, ← tail.expr_add]
      rfl

theorem Product.expr_add (k n : Nat) : (p : Product) → p.expr (k + n) = (p.expr n).shift k
  | .mk first tail => by
      rw [Product.expr, Product.expr, first.expr_add k n, Nat.add_assoc, tail.expr_add]

theorem ProductTail.expr_add (k n : Nat) (left : Expr) : (t : ProductTail) →
    t.expr (k + n) (left.shift k) = (t.expr n left).shift k
  | .done => rfl
  | .more op right tail => by
      rw [ProductTail.expr, ProductTail.expr, right.expr_add k n, Nat.add_assoc, ← tail.expr_add]
      rfl

theorem Factor.expr_add (k n : Nat) : (f : Factor) → f.expr (k + n) = (f.expr n).shift k
  | .negated operand => by
      rw [Factor.expr, Factor.expr, operand.expr_add k n]
      rfl
  | .primary p => by rw [Factor.expr, Factor.expr, p.expr_add k n]

theorem Primary.expr_add (k n : Nat) : (p : Primary) → p.expr (k + n) = (p.expr n).shift k
  | .span _ => rfl
  | .quoted _ => rfl
  | .null => rfl
  | .placeholder => rfl
  | .group inner => by rw [Primary.expr, Primary.expr, inner.expr_add k n]
  | .field _ _ => rfl
  | .call _ _ args => by
      rw [Primary.expr, Primary.expr, args.exprs_add k n]
      rfl
  | .point .. => rfl

theorem Arguments.exprs_add (k n : Nat) : (a : Arguments) →
    a.exprs (k + n) = Expr.substituteAll (Expr.behind k) (a.exprs n)
  | .done => rfl
  | .last a => by
      rw [Arguments.exprs, Arguments.exprs, a.expr_add k n]
      rfl
  | .more a rest => by
      rw [Arguments.exprs, Arguments.exprs, a.expr_add k n, Nat.add_assoc, rest.exprs_add]
      rfl

theorem Argument.expr_add (k n : Nat) : (a : Argument) → a.expr (k + n) = (a.expr n).shift k
  | .star => rfl
  | .sum s => by rw [Argument.expr, Argument.expr, s.expr_add k n]

end

theorem Items.exprs_add (k n : Nat) (i : Items) :
    i.exprs (k + n) = Expr.substituteAll (Expr.behind k) (i.exprs n) := by
  induction i generalizing n with
  | done => rfl
  | last s =>
      rw [Items.exprs, Items.exprs, s.expr_add k n]
      rfl
  | more s rest ih =>
      rw [Items.exprs, Items.exprs, s.expr_add k n, Nat.add_assoc, ih]
      rfl

mutual

/-- Behind `k` parameters more, a predicate has its numbers greater by `k`. -/
theorem Chain.written_add (k n : Nat) : (c : Chain) → c.written (k + n) = (c.written n).shift k
  | .mk first tail => by
      rw [Chain.written, Chain.written, first.written_add k n, Nat.add_assoc, tail.written_add]

theorem ChainTail.written_add (k n : Nat) (left : Predicate) : (t : ChainTail) →
    t.written (k + n) (left.shift k) = (t.written n left).shift k
  | .done => rfl
  | .more op right tail => by
      rw [ChainTail.written, ChainTail.written, right.written_add k n, Nat.add_assoc,
        ← tail.written_add]
      rfl

theorem Term.written_add (k n : Nat) : (t : Term) → t.written (k + n) = (t.written n).shift k
  | .group inner => by rw [Term.written, Term.written, inner.written_add k n]
  | .compare left op right _ => by
      rw [Term.written, Term.written, left.expr_add k n, Nat.add_assoc, right.expr_add]
      rfl
  | .isIn left items => by
      rw [Term.written, Term.written, left.expr_add k n, Nat.add_assoc, items.exprs_add]
      rfl

end

end Grammar

end RecordQuery
