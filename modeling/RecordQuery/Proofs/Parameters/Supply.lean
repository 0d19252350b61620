import RecordQuery.Proofs.Parameters.Numbering
import RecordQuery.Proofs.Evaluation
import RecordQuery.Execute.Result
/-!
# Enough parameters

A run looks once, before it starts, whether it was given as many parameters as the query counts. That is
enough: the parameters that occur in a compiled query are those below this number
(`Query.parameters_of_compile`), and whatever a run evaluates, it asks for none but these. So it never
ends with the error that a parameter is missing, unless the records themselves are read with that error.

Each part of a run has one lemma: it fails with no such error when the parameters that occur in what it
evaluates are given.
-/

namespace RecordQuery

variable {R : Type}

/-! ## Errors and parameters -/

/-- `e.NotMissing` holds for every error but that of a missing parameter. -/
def EvalError.NotMissing (e : EvalError) : Prop :=
  ∀ i, e ≠ .missingParameter i

/-- `e.NotMissing` holds for every error of a run but that of a missing parameter. -/
def RunError.NotMissing (e : RunError) : Prop :=
  ∀ i, e ≠ .evaluation (.missingParameter i)

open EvalError (NotMissing)

theorem EvalError.OfValues.notMissing {e : EvalError} (h : e.OfValues) : e.NotMissing := by
  intro i hi
  subst hi
  cases h

theorem RunError.notMissing_evaluation {e : EvalError} (h : e.NotMissing) :
    (RunError.evaluation e).NotMissing := by
  rintro i ⟨⟩
  exact h i rfl

/-- Reading records does not fail with the error of a missing parameter. -/
def Accessor.NeverMissing (accessor : Accessor R) : Prop :=
  ∀ record field, FailsOnly NotMissing (accessor.get record field)

/-- `Supplied params needed` holds when all the parameters that are needed are given. -/
def Supplied (params : List Value) (needed : List Nat) : Prop :=
  ∀ i ∈ needed, i < params.length

section Supplied

variable {params : List Value}

theorem supplied_range {n : Nat} (h : n ≤ params.length) : Supplied params (List.range n) :=
  fun _ hi => Nat.lt_of_lt_of_le (List.mem_range.mp hi) h

theorem supplied_append {is js : List Nat} :
    Supplied params (is ++ js) ↔ Supplied params is ∧ Supplied params js :=
  List.forall_mem_append

theorem supplied_flatMap {α : Type} {as : List α} {f : α → List Nat} :
    Supplied params (as.flatMap f) ↔ ∀ a ∈ as, Supplied params (f a) :=
  List.forall_mem_flatMap

end Supplied

/-! ## Expressions and predicates -/

section Evaluation

variable {accessor : Accessor R} {params : List Value}

namespace Expr

mutual

theorem eval_notMissing (haccessor : accessor.NeverMissing) (rows : List R) : (e : Expr) →
    Supplied params e.parameters → FailsOnly NotMissing (e.eval ⟨rows, accessor, params⟩)
  | .literal _, _ => failsOnly_ok _
  | .field f, _ => by
      cases rows with
      | nil => exact failsOnly_ok _
      | cons row rest => exact haccessor row f.qualifiedName
  | .placeholder i, h => by
      have hi : i < params.length := h i (List.mem_singleton_self i)
      rw [eval, Context.readParam, List.getElem?_eq_getElem hi]
      exact failsOnly_ok _
  | .list items, h => by
      rw [eval]
      exact (evalAll_notMissing haccessor rows items h).map _
  | .wildcard, _ => failsOnly_error.mpr (EvalError.OfValues.type _).notMissing
  | .arith op left right, h => by
      obtain ⟨hl, hr⟩ := supplied_append.mp h
      rw [eval]
      refine (eval_notMissing haccessor rows left hl).bind fun l => ?_
      refine (eval_notMissing haccessor rows right hr).bind fun r => ?_
      exact (arithmetic_failsOnly op l r).mono fun _ => EvalError.OfValues.notMissing
  | .call name args, h => by
      cases ha : Aggregate.ofName? name with
      | none =>
          rw [eval_scalar ha]
          refine (evalAll_notMissing haccessor rows args h).bind fun vs => ?_
          exact (callScalar_failsOnly name vs).mono fun _ => EvalError.OfValues.notMissing
      | some a =>
          obtain ⟨arg, rfl, star⟩ | hargs := evaluates_argument_or args
          · have harg := (supplied_append.mp h).1
            rw [eval_aggregate ha star]
            refine FailsOnly.bind (FailsOnly.map _ (FailsOnly.mapM fun row _ => ?_)) fun vs => ?_
            · exact eval_notMissing haccessor [row] arg harg
            · exact (a.apply_failsOnly vs).mono fun _ => EvalError.OfValues.notMissing
          · rw [eval_aggregate_of_args ha hargs]
            refine FailsOnly.ite ?_ (failsOnly_error.mpr (EvalError.OfValues.type _).notMissing)
            exact (aggregateOfAll_failsOnly a _).mono fun _ => EvalError.OfValues.notMissing

theorem evalAll_notMissing (haccessor : accessor.NeverMissing) (rows : List R) :
    (es : List Expr) → Supplied params (parametersOfAll es) →
      FailsOnly NotMissing (evalAll ⟨rows, accessor, params⟩ es)
  | [], _ => failsOnly_ok _
  | e :: rest, h => by
      obtain ⟨he, hrest⟩ := supplied_append.mp h
      rw [evalAll]
      refine (eval_notMissing haccessor rows e he).bind fun v => ?_
      refine (evalAll_notMissing haccessor rows rest hrest).bind fun vs => ?_
      exact failsOnly_pure _

end

end Expr

theorem Comparison.eval_notMissing (haccessor : accessor.NeverMissing) (rows : List R)
    {c : Comparison} (h : Supplied params c.parameters) :
    FailsOnly NotMissing (c.eval ⟨rows, accessor, params⟩) := by
  obtain ⟨hl, hr⟩ := supplied_append.mp h
  have hright := c.right.eval_notMissing haccessor rows hr
  unfold eval
  refine (c.left.eval_notMissing haccessor rows hl).bind fun l => ?_
  split
  · refine FailsOnly.ite (failsOnly_pure _) ?_
    split
    · exact failsOnly_pure _
    · refine hright.bind fun r => ?_
      exact (matchLike_failsOnly l r).mono fun _ => EvalError.OfValues.notMissing
  · exact hright.bind fun r => failsOnly_pure _

theorem Predicate.eval_notMissing (haccessor : accessor.NeverMissing) (rows : List R)
    {p : Predicate} (h : Supplied params p.parameters) :
    FailsOnly NotMissing (p.eval ⟨rows, accessor, params⟩) := by
  induction p with
  | always => exact failsOnly_ok _
  | comparison c =>
      rw [parameters_comparison] at h
      exact c.eval_notMissing haccessor rows h
  | logic op left right ihl ihr =>
      rw [parameters_logic, supplied_append] at h
      cases op with
      | and =>
          rw [eval]
          exact (ihl h.1).bind fun b => .ite (ihr h.2) (failsOnly_pure _)
      | or =>
          rw [eval]
          exact (ihl h.1).bind fun b => .ite (failsOnly_pure _) (ihr h.2)

/-! ## Rows over several resources -/

theorem Slot.read_notMissing (haccessor : accessor.NeverMissing) (slot : Slot R) (field : String) :
    FailsOnly NotMissing (slot.read accessor field) := by
  unfold read
  split
  · exact haccessor _ field
  · exact failsOnly_ok _

namespace CompositeRow

theorem present_notMissing (haccessor : accessor.NeverMissing) (field : String)
    (row : CompositeRow R) : FailsOnly NotMissing (row.present accessor field) := by
  induction row with
  | nil => exact failsOnly_ok _
  | cons slot rest ih =>
      rw [present]
      refine (slot.read_notMissing haccessor field).bind fun v => ?_
      refine ih.bind fun others => ?_
      exact failsOnly_pure _

theorem firstPresent_notMissing (haccessor : accessor.NeverMissing) (field : String)
    (row : CompositeRow R) : FailsOnly NotMissing (row.firstPresent accessor field) := by
  induction row with
  | nil => exact failsOnly_ok _
  | cons slot rest ih =>
      rw [firstPresent]
      exact (slot.read_notMissing haccessor field).bind fun v => .ite ih (failsOnly_pure _)

theorem onlyPresent_notMissing (haccessor : accessor.NeverMissing) (field : String)
    (row : CompositeRow R) : FailsOnly NotMissing (row.onlyPresent accessor field) := by
  unfold onlyPresent
  refine (row.present_notMissing haccessor field).bind fun found => ?_
  split
  · exact failsOnly_pure _
  · exact failsOnly_pure _
  · refine failsOnly_error.mpr ?_
    rintro i ⟨⟩

theorem readUnqualified_notMissing (haccessor : accessor.NeverMissing) (resolution : FieldResolution)
    (field : String) (row : CompositeRow R) :
    FailsOnly NotMissing (row.readUnqualified accessor resolution field) := by
  cases resolution with
  | reject => exact row.onlyPresent_notMissing haccessor field
  | firstResource => exact row.firstPresent_notMissing haccessor field

end CompositeRow

theorem Accessor.NeverMissing.composite (haccessor : accessor.NeverMissing)
    (resolution : FieldResolution) : (accessor.composite resolution).NeverMissing := by
  intro row field
  change FailsOnly NotMissing (row.read accessor resolution field)
  unfold CompositeRow.read
  split
  next slot rest _ => exact slot.read_notMissing haccessor rest
  next =>
    split
    next slot _ => exact slot.read_notMissing haccessor field
    next => exact row.readUnqualified_notMissing haccessor resolution field

end Evaluation

/-! ## Parts of a run -/

namespace Execute

variable {c : Conditions R}

theorem ofEval_notMissing {α : Type} {r : Except EvalError α} (h : FailsOnly NotMissing r) :
    FailsOnly RunError.NotMissing (ofEval r) :=
  h.mapError fun _ => RunError.notMissing_evaluation

theorem records_notMissing (source : Source R) (resource : String) :
    FailsOnly RunError.NotMissing (records source resource) := by
  unfold records
  split
  · exact failsOnly_ok _
  · refine failsOnly_error.mpr ?_
    rintro i ⟨⟩

theorem crossProduct_notMissing (source : Source R) (resources : List String) :
    FailsOnly RunError.NotMissing (crossProduct source resources) :=
  FailsOnly.foldlM (fun _ resource => (records_notMissing source resource).bind fun _ =>
    failsOnly_pure _) _ _

/-- A predicate may fail on a row, under either policy, but not for want of a parameter. -/
theorem satisfied_notMissing (haccessor : c.accessor.NeverMissing) {p : Predicate}
    (h : Supplied c.params p.parameters) (row : CompositeRow R) :
    FailsOnly NotMissing (c.satisfied p row) := by
  have hholds : FailsOnly NotMissing (p.holds c.rowAccessor c.params row) :=
    p.eval_notMissing (haccessor.composite c.settings.resolution) [row] h
  unfold Conditions.satisfied
  split
  next => exact failsOnly_ok _
  next e he => exact .ite (failsOnly_ok _) (failsOnly_error.mpr (hholds e he))

theorem joinRows_notMissing (haccessor : c.accessor.NeverMissing) {j : Join}
    (h : Supplied c.params j.condition.parameters) (joined : List String) (records : List R)
    (rows : List (CompositeRow R)) : FailsOnly NotMissing (joinRows c j joined records rows) := by
  unfold joinRows
  refine FailsOnly.bind (FailsOnly.mapM fun row _ => ?_) fun flags => failsOnly_pure _
  exact FailsOnly.mapM fun record _ => satisfied_notMissing haccessor h _

theorem joinAll_notMissing (haccessor : c.accessor.NeverMissing) (source : Source R)
    {joins : List Join} (h : ∀ j ∈ joins, Supplied c.params j.condition.parameters)
    (joined : List String) (rows : List (CompositeRow R)) :
    FailsOnly RunError.NotMissing (joinAll c source joined joins rows) := by
  induction joins generalizing joined rows with
  | nil => exact failsOnly_ok _
  | cons j others ih =>
      rw [List.forall_mem_cons] at h
      rw [joinAll]
      refine (records_notMissing source j.resource).bind fun records => ?_
      refine (ofEval_notMissing (joinRows_notMissing haccessor h.1 joined records rows)).bind
        fun rows => ?_
      exact ih h.2 _ rows

theorem keep_notMissing (haccessor : c.accessor.NeverMissing) {p : Predicate}
    (h : Supplied c.params p.parameters) (rows : List (CompositeRow R)) :
    FailsOnly NotMissing (keep c p rows) := by
  induction rows with
  | nil => exact failsOnly_ok _
  | cons row rest ih =>
      rw [keep]
      refine (satisfied_notMissing haccessor h row).bind fun satisfied => ?_
      exact ih.bind fun others => failsOnly_pure _

theorem rows_notMissing (haccessor : c.accessor.NeverMissing) (source : Source R) {q : Query}
    (hjoins : ∀ j ∈ q.joins, Supplied c.params j.condition.parameters)
    (hpredicate : Supplied c.params q.predicate.parameters) :
    FailsOnly RunError.NotMissing (rows c source q) := by
  unfold rows
  refine (crossProduct_notMissing source q.resources).bind fun start => ?_
  refine (joinAll_notMissing haccessor source hjoins q.resources start).bind fun joined => ?_
  split
  next p hp =>
    rw [Query.predicate, hp] at hpredicate
    exact ofEval_notMissing (keep_notMissing haccessor hpredicate joined)
  next => exact failsOnly_pure _

theorem contextOf_notMissing (haccessor : c.accessor.NeverMissing) (group : Group R) {e : Expr}
    (h : Supplied c.params e.parameters) : FailsOnly NotMissing (e.eval (c.contextOf group)) :=
  e.eval_notMissing (haccessor.composite c.settings.resolution) group h

theorem contextOf_all_notMissing (haccessor : c.accessor.NeverMissing) (group : Group R)
    {es : List Expr} (h : ∀ e ∈ es, Supplied c.params e.parameters) :
    FailsOnly NotMissing (Expr.evalAll (c.contextOf group) es) := by
  refine Expr.evalAll_notMissing (haccessor.composite c.settings.resolution) group es ?_
  rw [Expr.parametersOfAll_eq_flatMap]
  exact supplied_flatMap.mpr h

theorem groups_notMissing (haccessor : c.accessor.NeverMissing) {q : Query}
    (h : ∀ e ∈ q.groupBy, Supplied c.params e.parameters) (rows : List (CompositeRow R)) :
    FailsOnly NotMissing (groups c q rows) := by
  unfold groups
  refine .ite ?_ (.ite (failsOnly_ok _) (failsOnly_ok _))
  refine FailsOnly.bind (FailsOnly.mapM fun row _ => ?_) fun keys => failsOnly_pure _
  exact (contextOf_all_notMissing haccessor [row] h).bind fun keys => failsOnly_pure _

theorem ordered_notMissing (haccessor : c.accessor.NeverMissing) {orderBy : List OrderField}
    (h : ∀ f ∈ orderBy, Supplied c.params f.expr.parameters) (groups : List (Group R)) :
    FailsOnly NotMissing (ordered c orderBy groups) := by
  unfold ordered
  refine .ite (failsOnly_ok _) ?_
  refine FailsOnly.bind (FailsOnly.mapM fun group _ => ?_) fun keys => failsOnly_pure _
  exact contextOf_all_notMissing haccessor group (List.forall_mem_map.mpr h)

theorem allColumns_notMissing (haccessor : c.accessor.NeverMissing) (row : CompositeRow R) :
    FailsOnly NotMissing (allColumns c row) := by
  refine FailsOnly.mapM fun name _ => ?_
  exact (haccessor.composite c.settings.resolution row name).bind fun v => failsOnly_pure _

theorem columns_notMissing (haccessor : c.accessor.NeverMissing) (group : Group R)
    {field : SelectField} (h : Supplied c.params field.expr.parameters) :
    FailsOnly NotMissing (columns c group field) := by
  unfold columns
  refine .ite ?_ ?_
  · split
    · exact allColumns_notMissing haccessor _
    · exact failsOnly_ok _
  · exact (contextOf_notMissing haccessor group h).bind fun v => failsOnly_pure _

theorem project_notMissing (haccessor : c.accessor.NeverMissing) {fields : List SelectField}
    (h : ∀ f ∈ fields, Supplied c.params f.expr.parameters) (group : Group R) :
    FailsOnly NotMissing (project c fields group) := by
  refine FailsOnly.bind (FailsOnly.mapM fun field hfield => ?_) fun columns => failsOnly_pure _
  exact columns_notMissing haccessor group (h field hfield)

end Execute

/-! ## Whole runs -/

namespace Query

open Execute

/-- A query whose parameters are all given does not fail for want of one. -/
theorem run_notMissing {q : Query} {params : List Value} (hcount : q.placeholders ≤ params.length)
    (h : Supplied params q.parameters) {accessor : Accessor R} (haccessor : accessor.NeverMissing)
    (source : Source R) (settings : Settings) :
    FailsOnly RunError.NotMissing (q.run source accessor params settings) := by
  unfold parameters at h
  simp only [supplied_append, supplied_flatMap] at h
  obtain ⟨hfields, hjoins, hpredicate, hgroupBy, horderBy⟩ := h
  unfold run
  rw [if_neg (Nat.not_lt.mpr hcount)]
  refine (rows_notMissing haccessor source hjoins hpredicate).bind fun rows => ?_
  refine (ofEval_notMissing (groups_notMissing haccessor hgroupBy rows)).bind fun groups => ?_
  refine (ofEval_notMissing (ordered_notMissing haccessor horderBy groups)).bind fun groups => ?_
  exact ofEval_notMissing (FailsOnly.mapM fun group _ => project_notMissing haccessor hfields group)

/-- **Enough parameters are enough.** A compiled query that is given as many parameters as it counts, or
more, is never run into the error that one is missing, whatever it joins, filters, groups, orders and
selects. -/
theorem run_misses_no_parameter {text : String} {q : Query} (h : compile text = .ok q)
    {accessor : Accessor R} (haccessor : accessor.NeverMissing) {params : List Value}
    (hcount : q.placeholders ≤ params.length) (source : Source R) (settings : Settings) (i : Nat) :
    q.run source accessor params settings ≠ .error (.evaluation (.missingParameter i)) := by
  have hparameters : Supplied params q.parameters := by
    rw [parameters_of_compile h]
    exact supplied_range hcount
  intro hrun
  exact run_notMissing hcount hparameters haccessor source settings _ hrun i rfl

/-- A parameter in every clause, over records of which some fields cannot be read. -/
theorem run_misses_no_parameter_in_clauses :
    ∃ q, compile "SELECT sum(a.x * ?) FROM a LEFT JOIN b ON a.id = b.id + ?
        WHERE a.n LIKE ? GROUP BY a.k + ? ORDER BY max(?)" = .ok q ∧ q.placeholders = 5 ∧
      ∀ (source : Source Unit) (settings : Settings) (i : Nat),
        q.run source ⟨fun _ field => .error (.access field "closed"), fun _ => []⟩
          (List.replicate 6 .null) settings ≠ .error (.evaluation (.missingParameter i)) := by
  have hcheck : (match compile "SELECT sum(a.x * ?) FROM a LEFT JOIN b ON a.id = b.id + ?
        WHERE a.n LIKE ? GROUP BY a.k + ? ORDER BY max(?)" with
      | .ok q => decide (q.placeholders = 5)
      | .error _ => false) = true := by decide +kernel
  split at hcheck
  next q hq =>
    have hcount := of_decide_eq_true hcheck
    have haccessor : Accessor.NeverMissing (R := Unit)
        ⟨fun _ field => .error (.access field "closed"), fun _ => []⟩ := by
      rintro _ field _ ⟨⟩ i ⟨⟩
    have henough : q.placeholders ≤ (List.replicate 6 Value.null).length := by
      rw [hcount]
      decide
    exact ⟨q, hq, hcount, run_misses_no_parameter hq haccessor henough⟩
  next => cases hcheck

end Query

end RecordQuery
