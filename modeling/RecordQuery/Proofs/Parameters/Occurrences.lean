import RecordQuery.Proofs.Folding
import RecordQuery.Query.Basic
/-!
# The parameters of a query

`parameters` lists the numbers of the parameters in an expression, in a predicate and in a query, from
left to right and clause by clause. A constant has none, so nothing that reading folds away takes a
parameter with it: the folded predicate has the parameters of the written one, in their order
(`Predicate.parameters_fold`).
-/

namespace RecordQuery

/-! ## Expressions -/

namespace Expr

mutual

/-- The numbers of the parameters in an expression, from left to right. -/
def parameters : Expr → List Nat
  | .placeholder index => [index]
  | .list items => parametersOfAll items
  | .call _ args => parametersOfAll args
  | .arith _ left right => parameters left ++ parameters right
  | .literal _ => []
  | .field _ => []
  | .wildcard => []
termination_by structural e => e

/-- The numbers of the parameters in a list of expressions, from left to right. -/
def parametersOfAll : List Expr → List Nat
  | [] => []
  | e :: rest => parameters e ++ parametersOfAll rest
termination_by structural es => es

end

mutual

theorem hasPlaceholder_eq_false_iff : (e : Expr) → (e.hasPlaceholder = false ↔ e.parameters = [])
  | .literal _ => by simp [hasPlaceholder, parameters]
  | .field _ => by simp [hasPlaceholder, parameters]
  | .placeholder _ => by simp [hasPlaceholder, parameters]
  | .wildcard => by simp [hasPlaceholder, parameters]
  | .list items => by
      rw [hasPlaceholder, parameters]
      exact anyPlaceholder_eq_false_iff items
  | .call _ args => by
      rw [hasPlaceholder, parameters]
      exact anyPlaceholder_eq_false_iff args
  | .arith _ left right => by
      rw [hasPlaceholder, parameters, Bool.or_eq_false_iff, List.append_eq_nil_iff,
        hasPlaceholder_eq_false_iff left, hasPlaceholder_eq_false_iff right]

theorem anyPlaceholder_eq_false_iff : (es : List Expr) →
    (anyPlaceholder es = false ↔ parametersOfAll es = [])
  | [] => by simp [anyPlaceholder, parametersOfAll]
  | e :: rest => by
      rw [anyPlaceholder, parametersOfAll, Bool.or_eq_false_iff, List.append_eq_nil_iff,
        hasPlaceholder_eq_false_iff e, anyPlaceholder_eq_false_iff rest]

end

mutual

theorem parameters_of_isConstant : (e : Expr) → e.isConstant = true → e.parameters = []
  | .literal _, _ => rfl
  | .field _, h => by cases h
  | .placeholder _, h => by cases h
  | .wildcard, h => by cases h
  | .list items, h => parametersOfAll_of_areConstant items h
  | .call _ args, h => by
      rw [isConstant, Bool.and_eq_true] at h
      exact parametersOfAll_of_areConstant args h.2
  | .arith _ left right, h => by
      rw [isConstant, Bool.and_eq_true] at h
      rw [parameters, parameters_of_isConstant left h.1, parameters_of_isConstant right h.2,
        List.append_nil]

theorem parametersOfAll_of_areConstant : (es : List Expr) → areConstant es = true →
    parametersOfAll es = []
  | [], _ => rfl
  | e :: rest, h => by
      rw [areConstant, Bool.and_eq_true] at h
      rw [parametersOfAll, parameters_of_isConstant e h.1, parametersOfAll_of_areConstant rest h.2,
        List.append_nil]

end

theorem not_hasPlaceholder_of_isConstant (e : Expr) (h : e.isConstant = true) :
    e.hasPlaceholder = false :=
  e.hasPlaceholder_eq_false_iff.mpr (e.parameters_of_isConstant h)

theorem parametersOfAll_eq_flatMap (es : List Expr) :
    parametersOfAll es = es.flatMap parameters := by
  induction es with
  | nil => rfl
  | cons e rest ih => rw [parametersOfAll, ih, List.flatMap_cons]

end Expr

/-! ## Predicates -/

namespace Comparison

/-- The numbers of the parameters on both sides, from left to right. -/
def parameters (c : Comparison) : List Nat :=
  c.left.parameters ++ c.right.parameters

theorem parameters_of_isConstant {c : Comparison} (h : c.isConstant = true) : c.parameters = [] := by
  rw [isConstant, Bool.and_eq_true] at h
  rw [parameters, c.left.parameters_of_isConstant h.1, c.right.parameters_of_isConstant h.2,
    List.append_nil]

theorem hasPlaceholder_eq_false_iff (c : Comparison) :
    c.hasPlaceholder = false ↔ c.parameters = [] := by
  rw [hasPlaceholder, parameters, Bool.or_eq_false_iff, List.append_eq_nil_iff,
    c.left.hasPlaceholder_eq_false_iff, c.right.hasPlaceholder_eq_false_iff]

end Comparison

namespace Predicate

/-- The numbers of the parameters in a predicate, from left to right. -/
def parameters (p : Predicate) : List Nat :=
  p.comparisons.flatMap Comparison.parameters

@[simp]
theorem parameters_always : always.parameters = [] :=
  rfl

@[simp]
theorem parameters_comparison (c : Comparison) : (comparison c).parameters = c.parameters := by
  simp [parameters, comparisons]

@[simp]
theorem parameters_logic (op : LogicOp) (left right : Predicate) :
    (logic op left right).parameters = left.parameters ++ right.parameters := by
  simp [parameters, comparisons]

theorem hasPlaceholders_eq_false_iff (p : Predicate) :
    p.hasPlaceholders = false ↔ p.parameters = [] := by
  simp only [hasPlaceholders, parameters, List.any_eq_false, List.flatMap_eq_nil_iff,
    Bool.not_eq_true, Comparison.hasPlaceholder_eq_false_iff]

/-- A comparison that is folded away is one of constants. -/
theorem parameters_predicateOf (c : Comparison) : (Reader.predicateOf c).parameters = c.parameters := by
  unfold Reader.predicateOf
  split
  next h =>
    rw [Bool.and_eq_true] at h
    rw [Comparison.parameters_of_isConstant h.1, parameters_always]
  next => rw [parameters_comparison]

theorem parameters_of_isAlways {p : Predicate} (h : p.isAlways = true) : p.parameters = [] := by
  rw [eq_always_of_isAlways h, parameters_always]

/-- Putting two predicates together loses no parameter: what is dropped has none. -/
theorem parameters_combine (op : LogicOp) (p q : Predicate) :
    (combine op p q).parameters = p.parameters ++ q.parameters := by
  fun_cases combine op p q with
  | case1 => rw [parameters_always, List.nil_append]
  | case2 => rw [parameters_always, List.append_nil]
  | case3 =>
      rename_i hdrop
      rw [Bool.and_eq_true, Bool.not_eq_true', hasPlaceholders_eq_false_iff] at hdrop
      rw [parameters_of_isAlways hdrop.1, hdrop.2]
      rfl
  | case4 =>
      rename_i hdrop
      rw [Bool.and_eq_true, Bool.not_eq_true', hasPlaceholders_eq_false_iff] at hdrop
      rw [parameters_of_isAlways hdrop.1, hdrop.2]
      rfl
  | case5 => exact parameters_logic _ _ _
  | case6 => exact parameters_logic _ _ _

/-- Folding keeps every parameter in its place. -/
theorem parameters_fold (p : Predicate) : p.fold.parameters = p.parameters := by
  induction p with
  | always => rfl
  | comparison c => rw [fold, parameters_predicateOf, parameters_comparison]
  | logic op left right ihl ihr => rw [fold, parameters_combine, ihl, ihr, parameters_logic]

end Predicate

/-! ## Queries -/

/-- The numbers of the parameters of a query, in the order of its clauses: the select list, the
conditions of the joins, the condition on rows, the groups and the order. -/
def Query.parameters (q : Query) : List Nat :=
  q.fields.flatMap (fun f => f.expr.parameters) ++
    (q.joins.flatMap (fun j => j.condition.parameters) ++
      (q.predicate.parameters ++
        (q.groupBy.flatMap Expr.parameters ++ q.orderBy.flatMap fun f => f.expr.parameters)))

end RecordQuery
