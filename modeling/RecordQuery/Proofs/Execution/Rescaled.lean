import RecordQuery.Proofs.Evaluation
import RecordQuery.Proofs.Execution.Rows
import RecordQuery.Proofs.Sorting
import RecordQuery.Proofs.Value.Rescaled
/-!
# Queries at two scales

Two queries of one shape may have expressions in the same places that give the same values up to the scale of a
decimal (`Query.Akin`). Such queries keep and order the same rows in the same groups, since conditions, group
keys and order keys do not show a scale, and their results differ at most in it (`Query.Akin.run`).

Expressions that are akin give related values in every context (`Expr.Akin`), which their callers then cite;
conditions that are akin are decided alike, errors included.
-/

namespace RecordQuery

variable {R : Type}

/-! ## Expressions -/

/-- `e.Akin e'` holds for two expressions of one kind whose values are the same up to the scale of a decimal,
wherever they are evaluated, and that fail with the same errors. -/
structure Expr.Akin (e e' : Expr) : Prop where
  isWildcard : e.isWildcard = e'.isWildcard
  hasAggregate : e.hasAggregate = e'.hasAggregate
  eval : ∀ {R : Type} (ctx : Context R), BothGive Value.Rescaled (e.eval ctx) (e'.eval ctx)

namespace Expr

variable {e e' arg arg' : Expr} {es es' args args' : List Expr} {name : String}

theorem eq_wildcard_iff : e = .wildcard ↔ e.isWildcard = true := by
  cases e <;> simp [isWildcard]

namespace Akin

theorem refl (e : Expr) : e.Akin e :=
  ⟨rfl, rfl, fun ctx => .refl .refl (e.eval ctx)⟩

theorem literal {l m : Literal} (h : (Value.ofLiteral l).Rescaled (.ofLiteral m)) :
    (Expr.literal l).Akin (.literal m) :=
  ⟨rfl, rfl, fun _ => .ok h⟩

theorem eq_wildcard (h : e.Akin e') : e = .wildcard ↔ e' = .wildcard := by
  rw [eq_wildcard_iff, eq_wildcard_iff, h.isWildcard]

theorem evalAll (h : List.Forall₂ Akin es es') (ctx : Context R) :
    BothGive (List.Forall₂ Value.Rescaled) (Expr.evalAll ctx es) (Expr.evalAll ctx es') := by
  induction h with
  | nil => exact .ok .nil
  | cons he _ ih =>
      rw [Expr.evalAll, Expr.evalAll]
      exact (he.eval ctx).bind fun v v' hv => ih.bind fun vs vs' hvs => .ok (.cons hv hvs)

theorem anyAggregate (h : List.Forall₂ Akin es es') : Expr.anyAggregate es = Expr.anyAggregate es' := by
  induction h with
  | nil => rfl
  | cons he _ ih => rw [Expr.anyAggregate, Expr.anyAggregate, he.hasAggregate, ih]

/-- What is collected over the rows is related value by value, and the absent values are the same. -/
theorem collect (h : arg.Akin arg') (ctx : Context R) :
    BothGive (List.Forall₂ Value.Rescaled) (ctx.collect fun row => arg.eval (ctx.onRow row))
      (ctx.collect fun row => arg'.eval (ctx.onRow row)) := by
  have hall := BothGive.mapM (List.forall₂_same.mpr fun row (_ : row ∈ ctx.rows) => h.eval (ctx.onRow row))
  refine hall.map fun vs vs' hvs => List.rel_filter (fun v v' hv => ?_) hvs
  show (!v.isNull) = true ↔ (!v'.isNull) = true
  rw [hv.isNull_eq]

/-- A call of a function that gives an argument, or what has no scale of an argument in it. -/
theorem call (hname : weighsArguments name = true) (h : List.Forall₂ Akin args args') :
    (Expr.call name args).Akin (.call name args') where
  isWildcard := rfl
  hasAggregate := congrArg (isAggregate name || ·) (anyAggregate h)
  eval ctx := by
    cases ha : Aggregate.ofName? name with
    | none =>
        rw [eval_scalar ha, eval_scalar ha]
        exact (evalAll h ctx).bind fun vs vs' hvs => callScalar_rescaled ha hname hvs
    | some a =>
        have hweighs : a.weighs = true := by
          rw [weighsArguments, ha] at hname
          exact hname
        obtain ⟨arg, rfl, star⟩ | hargs := evaluates_argument_or args
        · obtain ⟨arg', _, harg, hrest, rfl⟩ := List.forall₂_cons_left_iff.mp h
          obtain rfl := List.forall₂_nil_left_iff.mp hrest
          rw [eval_aggregate ha star, eval_aggregate ha (mt harg.eq_wildcard.mpr star)]
          exact (harg.collect ctx).bind fun vs vs' hvs => Aggregate.apply_rescaled hweighs hvs
        · -- an aggregate without an argument to evaluate does not see the arguments
          have hargs' : ∀ arg', args' = [arg'] → arg' = .wildcard := by
            rintro arg' rfl
            obtain ⟨arg, _, harg, hrest, rfl⟩ := List.forall₂_cons_right_iff.mp h
            obtain rfl := List.forall₂_nil_right_iff.mp hrest
            exact harg.eq_wildcard.mp (hargs arg rfl)
          rw [eval_aggregate_of_args ha hargs, eval_aggregate_of_args ha hargs', h.length_eq]
          exact .refl .refl _

end Akin

end Expr

/-! ## Conditions -/

/-- `c.Akin c'` holds for comparisons that are decided alike wherever they are evaluated. -/
def Comparison.Akin (c c' : Comparison) : Prop :=
  ∀ {R : Type} (ctx : Context R), c.eval ctx = c'.eval ctx

/-- `p.Akin p'` holds for predicates that are decided alike wherever they are evaluated. -/
def Predicate.Akin (p p' : Predicate) : Prop :=
  ∀ {R : Type} (ctx : Context R), p.eval ctx = p'.eval ctx

/-- The operators that look at values only do not see a scale. -/
theorem Comparison.Akin.of_sides {left left' right right' : Expr} {op : CompareOp} (hlike : op ≠ .like)
    (hin : op ≠ .isIn) (hleft : left.Akin left') (hright : right.Akin right') :
    (Comparison.mk left op right).Akin ⟨left', op, right'⟩ := by
  intro R ctx
  apply BothGive.eq
  refine (hleft.eval ctx).bind fun v v' hv => ?_
  rw [if_neg hlike, if_neg hlike]
  refine (hright.eval ctx).bind fun w w' hw => ?_
  exact .ok (hv.compareValues_eq hlike hin hw)

theorem Predicate.Akin.logic {left left' right right' : Predicate} (op : LogicOp)
    (hleft : left.Akin left') (hright : right.Akin right') :
    (Predicate.logic op left right).Akin (.logic op left' right') := by
  intro R ctx
  cases op with
  | and => rw [eval, eval, hleft ctx, hright ctx]
  | or => rw [eval, eval, hleft ctx, hright ctx]

/-! ## The clauses of a query -/

/-- `f.Akin f'` holds for two entries of a select list that give columns of one name. -/
structure SelectField.Akin (f f' : SelectField) : Prop where
  expr : f.expr.Akin f'.expr
  name : f.alias?.getD f.expr.render = f'.alias?.getD f'.expr.render

/-- `f.Akin f'` holds for two entries of an order list in one direction. -/
structure OrderField.Akin (f f' : OrderField) : Prop where
  expr : f.expr.Akin f'.expr
  descending : f.descending = f'.descending

/-- `j.Akin j'` holds for joins of one kind with one resource, whose conditions are decided alike. -/
structure Join.Akin (j j' : Join) : Prop where
  kind : j.kind = j'.kind
  resource : j.resource = j'.resource
  condition : j.condition.Akin j'.condition

/-- `q.Akin q'` holds for two queries that are akin clause by clause. -/
structure Query.Akin (q q' : Query) : Prop where
  fields : List.Forall₂ SelectField.Akin q.fields q'.fields
  resources : q.resources = q'.resources
  joins : List.Forall₂ Join.Akin q.joins q'.joins
  filter? : Option.Rel Predicate.Akin q.filter? q'.filter?
  groupBy : List.Forall₂ Expr.Akin q.groupBy q'.groupBy
  orderBy : List.Forall₂ OrderField.Akin q.orderBy q'.orderBy
  start? : q.start? = q'.start?
  limit? : q.limit? = q'.limit?
  placeholders : q.placeholders = q'.placeholders

/-- `row.Rescaled row'` holds for rows with the same columns, whose values are the same up to the scale of a
decimal. -/
def ResultRow.Rescaled (row row' : ResultRow) : Prop :=
  List.Forall₂ (fun column column' => column.1 = column'.1 ∧ column.2.Rescaled column'.2)
    row.columns row'.columns

/-! ## The steps of a run -/

namespace Execute

variable (c : Conditions R)

theorem satisfied_akin {p p' : Predicate} (h : p.Akin p') : c.satisfied p = c.satisfied p' := by
  funext row
  rw [Conditions.satisfied, Conditions.satisfied, Predicate.holds, Predicate.holds, h]

theorem joinRows_akin {j j' : Join} (h : j.Akin j') : joinRows c j = joinRows c j' := by
  have hmatches : matchesOf c j = matchesOf c j' := by
    funext records row
    rw [matchesOf, matchesOf, h.resource, satisfied_akin c h.condition]
  have hjoined : joinedRows (R := R) j = joinedRows j' := by
    funext records row flags
    rw [joinedRows, joinedRows, h.kind, h.resource]
  funext joined records rows
  rw [joinRows, joinRows, hmatches, hjoined, h.kind]
  simp only [rightRows, h.resource]

theorem joinAll_akin {joins joins' : List Join} (h : List.Forall₂ Join.Akin joins joins')
    (source : Source R) (joined : List String) (rows : List (CompositeRow R)) :
    joinAll c source joined joins rows = joinAll c source joined joins' rows := by
  induction h generalizing joined rows with
  | nil => rfl
  | cons hj _ ih => simp only [joinAll, hj.resource, joinRows_akin c hj, ih]

theorem keep_akin {p p' : Predicate} (h : p.Akin p') : keep c p = keep c p' := by
  funext rows
  induction rows with
  | nil => rfl
  | cons row rest ih => rw [keep, keep, satisfied_akin c h, ih]

theorem rows_akin {q q' : Query} (h : q.Akin q') (source : Source R) :
    Execute.rows c source q = Execute.rows c source q' := by
  unfold Execute.rows
  simp only [h.resources, joinAll_akin c h.joins]
  have hfilter := h.filter?
  generalize q.filter? = p? at hfilter ⊢
  generalize q'.filter? = p?' at hfilter ⊢
  cases hfilter with
  | none => rfl
  | some hp => simp only [keep_akin c hp]

theorem groupKeys_akin {groupBy groupBy' : List Expr} (h : List.Forall₂ Expr.Akin groupBy groupBy') :
    groupKeys c groupBy = groupKeys c groupBy' := by
  funext row
  apply BothGive.eq
  refine (Expr.Akin.evalAll h (c.contextOf [row])).bind fun vs vs' hvs => .ok ?_
  rw [← List.forall₂_eq_eq_eq]
  exact List.rel_map (fun v v' hv => hv.groupKey_eq) hvs

theorem groups_akin {q q' : Query} (h : q.Akin q') : groups c q = groups c q' := by
  have hgrouped : q.isGrouped = q'.isGrouped := congrArg (!·) (isEmpty_eq_of_forall₂ h.groupBy)
  have haggregates : q.hasAggregates = q'.hasAggregates := by
    rw [Query.hasAggregates, Query.hasAggregates,
      any_eq_of_forall₂ (fun f f' hf => hf.expr.hasAggregate) h.fields,
      any_eq_of_forall₂ (fun f f' hf => hf.expr.hasAggregate) h.orderBy]
  funext rows
  rw [groups, groups, hgrouped, haggregates, groupKeys_akin c h.groupBy]

theorem compareKeys_akin {orderBy orderBy' : List OrderField}
    (h : List.Forall₂ OrderField.Akin orderBy orderBy') {xs xs' ys ys' : List Value}
    (hxs : List.Forall₂ Value.Rescaled xs xs') (hys : List.Forall₂ Value.Rescaled ys ys') :
    compareKeys orderBy xs ys = compareKeys orderBy' xs' ys' := by
  induction h generalizing xs xs' ys ys' with
  | nil => rfl
  | cons hf _ ih =>
      cases hxs with
      | nil => rfl
      | cons hx hxs =>
          cases hys with
          | nil => rfl
          | cons hy hys => simp only [compareKeys, hx.sortCompare_eq hy, hf.descending, ih hxs hys]

theorem ordered_akin {orderBy orderBy' : List OrderField}
    (h : List.Forall₂ OrderField.Akin orderBy orderBy') (groups : List (Group R)) :
    ordered c orderBy groups = ordered c orderBy' groups := by
  have hexprs : List.Forall₂ Expr.Akin (orderBy.map OrderField.expr) (orderBy'.map OrderField.expr) :=
    List.rel_map (fun f f' hf => hf.expr) h
  rw [ordered, ordered, isEmpty_eq_of_forall₂ h]
  split
  · rfl
  apply BothGive.eq
  have hkeys := BothGive.mapM (List.forall₂_same.mpr fun group (_ : group ∈ groups) =>
    Expr.Akin.evalAll hexprs (c.contextOf group))
  refine hkeys.bind fun keys keys' hkeys => .ok ?_
  have hless (a a' b b' : List Value × Group R) (ha : List.Forall₂ Value.Rescaled a.1 a'.1 ∧ a.2 = a'.2)
      (hb : List.Forall₂ Value.Rescaled b.1 b'.1 ∧ b.2 = b'.2) :
      (compareKeys orderBy a.1 b.1 == .lt) = (compareKeys orderBy' a'.1 b'.1 == .lt) := by
    rw [compareKeys_akin h ha.1 hb.1]
  -- the groups beside the keys are the same
  rw [← List.forall₂_eq_eq_eq]
  exact List.rel_map (fun a b hab => hab.2) (Sorting.sort_related hless (forall₂_zip_same hkeys groups))

theorem window_akin {q q' : Query} (h : q.Akin q') (groups : List (Group R)) :
    window q groups = window q' groups := by
  rw [window, window, h.start?, h.limit?]

theorem project_akin {fields fields' : List SelectField}
    (h : List.Forall₂ SelectField.Akin fields fields') (group : Group R) :
    BothGive ResultRow.Rescaled (project c fields group) (project c fields' group) := by
  have hcolumns : List.Forall₂ (fun f f' => BothGive (List.Forall₂ fun column column' =>
      column.1 = column'.1 ∧ column.2.Rescaled column'.2) (columns c group f) (columns c group f'))
      fields fields' := by
    refine h.imp fun f f' hf => ?_
    unfold columns
    rw [hf.expr.isWildcard, hf.name]
    split
    · exact .refl (fun columns => List.forall₂_same.mpr fun column _ => ⟨rfl, .refl _⟩) _
    · exact (hf.expr.eval _).bind fun v v' hv => .ok (.cons ⟨rfl, hv⟩ .nil)
  exact (BothGive.mapM hcolumns).bind fun _ _ hall => .ok (List.rel_flatten hall)

theorem resultOf_akin {q q' : Query} (h : q.Akin q') (rows : List (CompositeRow R)) :
    BothGive (List.Forall₂ ResultRow.Rescaled) (resultOf c q rows) (resultOf c q' rows) := by
  simp only [resultOf, groups_akin c h, ordered_akin c h.orderBy, window_akin h]
  refine .bind_same _ fun groups => .bind_same _ fun groups => .mapError _ ?_
  exact .mapM (List.forall₂_same.mpr fun group _ => project_akin c h.fields group)

end Execute

open Execute in
/-- Queries that are akin give the same rows, up to the scale of the decimals in them, or the same error. -/
theorem Query.Akin.run {q q' : Query} (h : q.Akin q') (source : Source R) (accessor : Accessor R)
    (params : List Value) (settings : Settings) :
    BothGive (List.Forall₂ ResultRow.Rescaled) (q.run source accessor params settings)
      (q'.run source accessor params settings) := by
  let c : Conditions R := ⟨accessor, settings, params⟩
  unfold Query.run
  rw [h.placeholders]
  split
  · exact .error _
  · show BothGive _ (Execute.rows c source q >>= resultOf c q) (Execute.rows c source q' >>= resultOf c q')
    rw [rows_akin c h]
    exact .bind_same _ (resultOf_akin c h)

end RecordQuery
