import RecordQuery.Proofs.Parameters.Occurrences
import RecordQuery.Proofs.Evaluation
/-!
# Substitution for parameters

`e.substitute σ` puts the expression `σ i` for the parameter with the number `i`. It may number the
parameters anew, or give each of them a value that is known ahead.

Evaluation does not see the difference: when what is put for a parameter has the value that the parameter
would have, the expression has the value that it had before (`Expr.eval_substitute`). All that an
evaluation may see of an expression but its value is whether it is a star, so no star is put anywhere.
-/

namespace RecordQuery

variable {σ : Nat → Expr}

namespace Expr

mutual

/-- The expression with `σ i` for every parameter with a number `i`. -/
def substitute (σ : Nat → Expr) : Expr → Expr
  | .literal l => .literal l
  | .field f => .field f
  | .placeholder index => σ index
  | .list items => .list (substituteAll σ items)
  | .wildcard => .wildcard
  | .call name args => .call name (substituteAll σ args)
  | .arith op left right => .arith op (substitute σ left) (substitute σ right)
termination_by structural e => e

/-- The expressions of a list with `σ i` for every parameter with a number `i`. -/
def substituteAll (σ : Nat → Expr) : List Expr → List Expr
  | [] => []
  | e :: rest => substitute σ e :: substituteAll σ rest
termination_by structural es => es

end

@[simp]
theorem length_substituteAll (es : List Expr) : (substituteAll σ es).length = es.length := by
  induction es with
  | nil => rfl
  | cons e rest ih => rw [substituteAll, List.length_cons, List.length_cons, ih]

theorem substitute_ne_wildcard (hσ : ∀ i, σ i ≠ .wildcard) {e : Expr} (he : e ≠ .wildcard) :
    e.substitute σ ≠ .wildcard := by
  cases e with
  | placeholder i => exact hσ i
  | wildcard => exact absurd rfl he
  | _ =>
      rw [substitute]
      exact Expr.noConfusion

/-! ## The parameters that are left -/

mutual

theorem parameters_substitute : (e : Expr) →
    (e.substitute σ).parameters = e.parameters.flatMap fun i => (σ i).parameters
  | .literal _ => rfl
  | .field _ => rfl
  | .placeholder i => by simp [substitute, parameters]
  | .list items => by
      rw [substitute, parameters, parameters, parametersOfAll_substituteAll items]
  | .wildcard => rfl
  | .call name args => by
      rw [substitute, parameters, parameters, parametersOfAll_substituteAll args]
  | .arith op left right => by
      rw [substitute, parameters, parameters, parameters_substitute left, parameters_substitute right,
        List.flatMap_append]

theorem parametersOfAll_substituteAll : (es : List Expr) →
    parametersOfAll (substituteAll σ es) = (parametersOfAll es).flatMap fun i => (σ i).parameters
  | [] => rfl
  | e :: rest => by
      rw [substituteAll, parametersOfAll, parametersOfAll, parameters_substitute e,
        parametersOfAll_substituteAll rest, List.flatMap_append]

end

mutual

/-- Where every parameter is put for itself, nothing changes. -/
theorem substitute_eq_self : (e : Expr) → (∀ i ∈ e.parameters, σ i = .placeholder i) →
    e.substitute σ = e
  | .literal _, _ => rfl
  | .field _, _ => rfl
  | .placeholder i, h => h i (List.mem_singleton_self i)
  | .list items, h => by rw [substitute, substituteAll_eq_self items h]
  | .wildcard, _ => rfl
  | .call name args, h => by rw [substitute, substituteAll_eq_self args h]
  | .arith op left right, h => by
      rw [substitute, substitute_eq_self left fun i hi => h i (List.mem_append_left _ hi),
        substitute_eq_self right fun i hi => h i (List.mem_append_right _ hi)]

theorem substituteAll_eq_self : (es : List Expr) →
    (∀ i ∈ parametersOfAll es, σ i = .placeholder i) → substituteAll σ es = es
  | [], _ => rfl
  | e :: rest, h => by
      rw [substituteAll, substitute_eq_self e fun i hi => h i (List.mem_append_left _ hi),
        substituteAll_eq_self rest fun i hi => h i (List.mem_append_right _ hi)]

end

theorem substitute_of_isConstant {e : Expr} (h : e.isConstant = true) : e.substitute σ = e := by
  refine substitute_eq_self e ?_
  rw [parameters_of_isConstant e h]
  intro i hi
  cases hi

/-! ## Evaluation -/

/-- `Supplies R σ params given` holds when, with the parameters `params`, what `σ` puts for a parameter
has over all rows of type `R` the value of the parameter among `given`, and is no star. -/
structure Supplies (R : Type) (σ : Nat → Expr) (params given : List Value) : Prop where
  ne_wildcard : ∀ i, σ i ≠ .wildcard
  eval_eq : ∀ (i : Nat) (rows : List R) (accessor : Accessor R),
    (σ i).eval ⟨rows, accessor, params⟩ = (⟨rows, accessor, given⟩ : Context R).readParam i

variable {R : Type} {params given : List Value}

mutual

/-- An expression has the value that it had before parameters were replaced. -/
theorem eval_substitute (h : Supplies R σ params given) (rows : List R) (accessor : Accessor R) :
    (e : Expr) → (e.substitute σ).eval ⟨rows, accessor, params⟩ = e.eval ⟨rows, accessor, given⟩
  | .literal _ => rfl
  | .field _ => rfl
  | .placeholder i => h.eval_eq i rows accessor
  | .list items => by
      rw [substitute, eval, eval, evalAll_substituteAll h rows accessor items]
  | .wildcard => rfl
  | .arith op left right => by
      rw [substitute, eval, eval, eval_substitute h rows accessor left,
        eval_substitute h rows accessor right]
  | .call name args => by
      rw [substitute]
      cases ha : Aggregate.ofName? name with
      | none =>
          rw [eval_scalar ha, eval_scalar ha, evalAll_substituteAll h rows accessor args]
      | some a =>
          obtain ⟨arg, rfl, star⟩ | hargs := evaluates_argument_or args
          · -- on every row the argument is evaluated in a context of its own
            have hrow : ∀ row : R, (arg.substitute σ).eval ⟨[row], accessor, params⟩ =
                arg.eval ⟨[row], accessor, given⟩ := fun row =>
              eval_substitute h [row] accessor arg
            rw [substituteAll, substituteAll,
              eval_aggregate ha (substitute_ne_wildcard h.ne_wildcard star), eval_aggregate ha star]
            simp only [Context.collect, Context.onRow, hrow]
          · have hargs' : ∀ arg, substituteAll σ args = [arg] → arg = .wildcard := by
              intro arg harg
              match args, hargs with
              | [e], hargs =>
                  obtain rfl := hargs e rfl
                  cases harg
                  rfl
            rw [eval_aggregate_of_args ha hargs', eval_aggregate_of_args ha hargs,
              length_substituteAll]

theorem evalAll_substituteAll (h : Supplies R σ params given) (rows : List R)
    (accessor : Accessor R) : (es : List Expr) →
      evalAll ⟨rows, accessor, params⟩ (substituteAll σ es) = evalAll ⟨rows, accessor, given⟩ es
  | [] => rfl
  | e :: rest => by
      rw [substituteAll, evalAll, evalAll, eval_substitute h rows accessor e,
        evalAll_substituteAll h rows accessor rest]

end

end Expr

/-! ## Comparisons and predicates -/

namespace Comparison

/-- The comparison with `σ i` for every parameter with a number `i`. A pattern that thereby becomes a
literal is compiled ahead. -/
def substitute (σ : Nat → Expr) (c : Comparison) : Comparison :=
  ⟨c.left.substitute σ, c.op, c.right.substitute σ⟩

theorem parameters_substitute (c : Comparison) :
    (c.substitute σ).parameters = c.parameters.flatMap fun i => (σ i).parameters := by
  rw [parameters, parameters, List.flatMap_append, ← Expr.parameters_substitute,
    ← Expr.parameters_substitute]
  rfl

end Comparison

namespace Predicate

/-- The predicate with `σ i` for every parameter with a number `i`. -/
def substitute (σ : Nat → Expr) : Predicate → Predicate
  | .always => .always
  | .comparison c => .comparison (c.substitute σ)
  | .logic op left right => .logic op (left.substitute σ) (right.substitute σ)

theorem parameters_substitute (p : Predicate) :
    (p.substitute σ).parameters = p.parameters.flatMap fun i => (σ i).parameters := by
  induction p with
  | always => rfl
  | comparison c =>
      rw [substitute, parameters_comparison, parameters_comparison, Comparison.parameters_substitute]
  | logic op left right ihl ihr =>
      rw [substitute, parameters_logic, parameters_logic, ihl, ihr, List.flatMap_append]

end Predicate

end RecordQuery
