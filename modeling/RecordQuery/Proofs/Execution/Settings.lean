import RecordQuery.Proofs.Evaluation
import RecordQuery.Proofs.Execution.Rows
/-!
# Looser settings

The strict settings refuse a field that several resources have, and end the run with the first error.
Wherever they give a result, every other choice of settings gives the same (`Query.run_loosened`): the
strict run has met no error that a policy could have skipped, and the first resource with a field is the
only one.

The two runs read rows by two accessors, of which one reads whatever the other reads
(`Accessor.Extends`). From there on each part of a run has one lemma, which says that it keeps its result
(`Keeps`).
-/

namespace RecordQuery

variable {R : Type}

/-! ## Reading at least as much -/

/-- `accessor'.Extends accessor` holds when `accessor'` reads every field that `accessor` reads, with the
same value, and names the fields alike. -/
structure Accessor.Extends (accessor' accessor : Accessor R) : Prop where
  get : ∀ record field, Keeps (accessor.get record field) (accessor'.get record field)
  fieldNames : accessor'.fieldNames = accessor.fieldNames

namespace CompositeRow

variable {accessor : Accessor R} {field : String}

/-- Where every resource can be read, the first one in which the field is not null is the head of them
all. -/
theorem firstPresent_of_present {row : CompositeRow R} {found : List (String × Value)}
    (h : row.present accessor field = .ok found) :
    row.firstPresent accessor field = .ok ((found.head?.map Prod.snd).getD .null) := by
  induction row generalizing found with
  | nil =>
      cases h
      rfl
  | cons slot rest ih =>
      obtain ⟨v, hv, h⟩ := bind_ok_iff.mp h
      obtain ⟨others, hothers, h⟩ := bind_ok_iff.mp h
      obtain rfl := pure_ok_iff.mp h
      refine bind_ok_iff.mpr ⟨v, hv, ?_⟩
      cases v.isNull with
      | true => exact ih hothers
      | false => rfl

/-- A field that only one resource has is read off the first resource that has it. -/
theorem onlyPresent_keeps (row : CompositeRow R) :
    Keeps (row.onlyPresent accessor field) (row.firstPresent accessor field) := by
  intro v h
  obtain ⟨found, hfound, h⟩ := bind_ok_iff.mp h
  rw [firstPresent_of_present hfound]
  match found, h with
  | [], h => exact h
  | [_], h => exact h

end CompositeRow

/-- Whatever the choice for fields that several resources have, rows are read at least as much as when
such fields are refused. -/
theorem Accessor.composite_extends (accessor : Accessor R) (resolution : FieldResolution) :
    (accessor.composite resolution).Extends (accessor.composite .reject) where
  get row field := by
    cases resolution with
    | reject => exact .refl _
    | firstResource =>
        show Keeps (row.read accessor .reject field) (row.read accessor .firstResource field)
        unfold CompositeRow.read
        split
        · exact .refl _
        · split
          · exact .refl _
          · exact row.onlyPresent_keeps
  fieldNames := rfl

/-! ## Expressions and predicates -/

section Evaluation

variable {accessor accessor' : Accessor R}

namespace Expr

mutual

theorem eval_keeps (h : accessor'.Extends accessor) (params : List Value) (rows : List R) :
    (e : Expr) → Keeps (e.eval ⟨rows, accessor, params⟩) (e.eval ⟨rows, accessor', params⟩)
  | .literal _ => .refl _
  | .field f => by
      cases rows with
      | nil => exact .refl _
      | cons row rest => exact h.get row f.qualifiedName
  | .placeholder _ => .refl _
  | .list items => by
      rw [eval, eval]
      exact (evalAll_keeps h params rows items).map _
  | .wildcard => .refl _
  | .arith op left right => by
      rw [eval, eval]
      refine (eval_keeps h params rows left).bind fun l => ?_
      exact (eval_keeps h params rows right).bind fun r => .refl _
  | .call name args => by
      cases ha : Aggregate.ofName? name with
      | none =>
          rw [eval_scalar ha, eval_scalar ha]
          exact (evalAll_keeps h params rows args).bind fun vs => .refl _
      | some a =>
          obtain ⟨arg, rfl, star⟩ | hargs := evaluates_argument_or args
          · -- the argument is evaluated over each row alone
            rw [eval_aggregate ha star, eval_aggregate ha star]
            refine Keeps.bind (Keeps.map _ (Keeps.mapM (fun row => ?_) rows)) fun vs => .refl _
            exact eval_keeps h params [row] arg
          · rw [eval_aggregate_of_args ha hargs, eval_aggregate_of_args ha hargs]
            exact .refl _

theorem evalAll_keeps (h : accessor'.Extends accessor) (params : List Value) (rows : List R) :
    (es : List Expr) →
      Keeps (evalAll ⟨rows, accessor, params⟩ es) (evalAll ⟨rows, accessor', params⟩ es)
  | [] => .refl _
  | e :: rest => by
      rw [evalAll, evalAll]
      refine (eval_keeps h params rows e).bind fun v => ?_
      exact (evalAll_keeps h params rows rest).bind fun vs => .refl _

end

end Expr

theorem Comparison.eval_keeps (h : accessor'.Extends accessor) (params : List Value) (rows : List R)
    (c : Comparison) :
    Keeps (c.eval ⟨rows, accessor, params⟩) (c.eval ⟨rows, accessor', params⟩) := by
  unfold eval
  refine (c.left.eval_keeps h params rows).bind fun left => Keeps.ite (Keeps.ite (.refl _) ?_) ?_
  · split
    · exact .refl _
    · exact (c.right.eval_keeps h params rows).bind fun right => .refl _
  · exact (c.right.eval_keeps h params rows).bind fun right => .refl _

theorem Predicate.eval_keeps (h : accessor'.Extends accessor) (params : List Value) (rows : List R)
    (p : Predicate) :
    Keeps (p.eval ⟨rows, accessor, params⟩) (p.eval ⟨rows, accessor', params⟩) := by
  induction p with
  | always => exact .refl _
  | comparison c => exact c.eval_keeps h params rows
  | logic op left right ihl ihr =>
      cases op with
      | and =>
          unfold eval
          exact ihl.bind fun b => Keeps.ite ihr (.refl _)
      | or =>
          unfold eval
          exact ihl.bind fun b => Keeps.ite (.refl _) ihr

end Evaluation

/-! ## The steps of a run -/

namespace Execute

/-- The same conditions under the strict settings. -/
def Conditions.strict (c : Conditions R) : Conditions R :=
  { c with settings := ⟨.reject, .abort⟩ }

variable (c : Conditions R)

theorem Conditions.rowAccessor_extends : c.rowAccessor.Extends c.strict.rowAccessor :=
  c.accessor.composite_extends c.settings.resolution

/-- What is decided without an error stays as decided when errors are skipped. -/
theorem satisfied_keeps (p : Predicate) (row : CompositeRow R) :
    Keeps (c.strict.satisfied p row) (c.satisfied p row) := by
  intro b hb
  have hholds : p.holds c.strict.rowAccessor c.params row = .ok b := by
    unfold Conditions.satisfied at hb
    split at hb
    next b' hb' =>
      rw [← hb]
      exact hb'
    next => cases hb
  have hkept : p.holds c.rowAccessor c.params row = .ok b :=
    p.eval_keeps c.rowAccessor_extends c.params [row] b hholds
  rw [Conditions.satisfied, hkept]

theorem joinRows_keeps (j : Join) (joined : List String) (records : List R)
    (rows : List (CompositeRow R)) :
    Keeps (joinRows c.strict j joined records rows) (joinRows c j joined records rows) := by
  refine (Keeps.mapM (fun row => ?_) rows).bind fun flags => .refl _
  exact Keeps.mapM (fun record => satisfied_keeps c j.condition _) records

theorem joinAll_keeps (source : Source R) (joins : List Join) (joined : List String)
    (rows : List (CompositeRow R)) :
    Keeps (joinAll c.strict source joined joins rows) (joinAll c source joined joins rows) := by
  induction joins generalizing joined rows with
  | nil => exact .refl _
  | cons j others ih =>
      rw [joinAll, joinAll]
      refine (Keeps.refl (records source j.resource)).bind fun records => ?_
      exact ((joinRows_keeps c j joined records rows).mapError _).bind fun rows => ih _ rows

theorem keep_keeps (p : Predicate) (rows : List (CompositeRow R)) :
    Keeps (keep c.strict p rows) (keep c p rows) := by
  induction rows with
  | nil => exact .refl _
  | cons row rest ih =>
      rw [keep, keep]
      exact (satisfied_keeps c p row).bind fun satisfied => ih.bind fun others => .refl _

theorem rows_keeps (source : Source R) (q : Query) :
    Keeps (Execute.rows c.strict source q) (Execute.rows c source q) := by
  unfold Execute.rows
  refine (Keeps.refl (crossProduct source q.resources)).bind fun start => ?_
  refine (joinAll_keeps c source q.joins q.resources start).bind fun joined => ?_
  split
  · exact (keep_keeps c _ joined).mapError _
  · exact .refl _

theorem groups_keeps (q : Query) (rows : List (CompositeRow R)) :
    Keeps (groups c.strict q rows) (groups c q rows) := by
  unfold groups
  refine Keeps.ite ?_ (.refl _)
  refine (Keeps.mapM (fun row => ?_) rows).bind fun keys => .refl _
  exact (Expr.evalAll_keeps c.rowAccessor_extends c.params [row] q.groupBy).bind fun vs => .refl _

theorem ordered_keeps (orderBy : List OrderField) (groups : List (Group R)) :
    Keeps (ordered c.strict orderBy groups) (ordered c orderBy groups) := by
  unfold ordered
  refine Keeps.ite (.refl _) ?_
  refine (Keeps.mapM (fun group => ?_) groups).bind fun keys => .refl _
  exact Expr.evalAll_keeps c.rowAccessor_extends c.params group (orderBy.map OrderField.expr)

theorem columns_keeps (group : Group R) (field : SelectField) :
    Keeps (columns c.strict group field) (columns c group field) := by
  unfold columns
  refine Keeps.ite ?_ ?_
  · -- both runs name the fields of the row alike
    cases group with
    | nil => exact .refl _
    | cons row rest =>
        refine Keeps.mapM (fun name => ?_) _
        exact (c.rowAccessor_extends.get row name).bind fun v => .refl _
  · exact (field.expr.eval_keeps c.rowAccessor_extends c.params group).bind fun v => .refl _

theorem project_keeps (fields : List SelectField) (group : Group R) :
    Keeps (project c.strict fields group) (project c fields group) :=
  (Keeps.mapM (fun field => columns_keeps c group field) fields).bind fun _ => .refl _

theorem resultOf_keeps (q : Query) (rows : List (CompositeRow R)) :
    Keeps (resultOf c.strict q rows) (resultOf c q rows) := by
  unfold resultOf
  refine ((groups_keeps c q rows).mapError _).bind fun groups => ?_
  refine ((ordered_keeps c q.orderBy groups).mapError _).bind fun groups => ?_
  exact (Keeps.mapM (fun group => project_keeps c q.fields group) (window q groups)).mapError _

end Execute

/-! ## Whole runs -/

namespace Query

open Execute

/-- **Looser settings keep results.** A run that refuses fields of several resources and ends with the first
error, and that has a result, has the same result under any other settings. -/
theorem run_loosened {q : Query} {source : Source R} {accessor : Accessor R} {params : List Value}
    {rows : List ResultRow} (h : q.run source accessor params ⟨.reject, .abort⟩ = .ok rows)
    (settings : Settings) : q.run source accessor params settings = .ok rows := by
  let c : Conditions R := ⟨accessor, settings, params⟩
  obtain ⟨henough, kept, hkept, hrows⟩ := (run_ok_iff (c := c.strict)).mp h
  have hkept' : Execute.rows c source q = .ok kept := rows_keeps c source q kept hkept
  have hrows' : resultOf c q kept = .ok rows := resultOf_keeps c q kept rows hrows
  exact (run_ok_iff (c := c)).mpr ⟨henough, kept, hkept', hrows'⟩

/-- A field without resource, which in each row another of two resources has, in an outer join. -/
theorem run_loosened_of_outer :
    let source : Source Value := fun name =>
      [("a", [Value.object [("id", .integer 1), ("x", .integer 5)], .object [("id", .integer 2)],
          .object [("id", .integer 3), ("x", .integer 9)]]),
        ("b", [.object [("aid", .integer 2), ("x", .integer 7)], .object [("aid", .integer 1)]])].lookup name
    ∃ q rows,
      compile "SELECT a.id, x FROM a LEFT JOIN b ON a.id = aid WHERE x > 5 ORDER BY x DESC" = .ok q ∧
      q.run source .ofObjects [] ⟨.reject, .abort⟩ = .ok rows ∧
      rows.map (fun row => row.values.map Value.display) = [["3", "9"], ["2", "7"]] ∧
      ∀ settings, q.run source .ofObjects [] settings = .ok rows := by
  intro source
  have hcheck : passes (fun q =>
      passes (fun rows : List ResultRow => decide
        (rows.map (fun row => row.values.map Value.display) = [["3", "9"], ["2", "7"]]))
        (q.run source .ofObjects [] ⟨.reject, .abort⟩))
      (compile "SELECT a.id, x FROM a LEFT JOIN b ON a.id = aid WHERE x > 5 ORDER BY x DESC") = true := by
    decide +kernel
  simp only [passes_iff, decide_eq_true_eq] at hcheck
  obtain ⟨q, hq, rows, hrows, hvalues⟩ := hcheck
  exact ⟨q, rows, hq, hrows, hvalues, run_loosened hrows⟩

end Query

end RecordQuery
