import RecordQuery.Proofs.Parameters.Occurrences
import RecordQuery.Proofs.MemoTransparency
import RecordQuery.Proofs.Results
/-!
# What an evaluation depends on

An evaluation reads the fields that the expression names, in each row, and the parameters that it
numbers. Two contexts may otherwise be as different as they like, down to the type of their records: when
they agree on those fields row by row, and on those parameters (`Context.Agree`), both give the same value
or fail with the same error. So it is with a memo that is empty at first, and a constant, which names
nothing, has one result in all contexts (`evaluation_reads_only_what_is_named`).
-/

namespace RecordQuery

variable {R S : Type}

/-! ## Contexts -/

/-- `Agree fields params ctx ctx'` holds for contexts with equally many rows that read the fields alike,
row by row, and that have the same parameters under the numbers. -/
structure Context.Agree (fields : List FieldRef) (params : List Nat) (ctx : Context R)
    (ctx' : Context S) : Prop where
  rows : List.Forall₂ (fun row row' => ∀ f ∈ fields,
    ctx.accessor.get row f.qualifiedName = ctx'.accessor.get row' f.qualifiedName) ctx.rows ctx'.rows
  params : ∀ i ∈ params, ctx.params[i]? = ctx'.params[i]?

namespace Context.Agree

variable {fields fields' : List FieldRef} {params params' : List Nat} {ctx : Context R}
  {ctx' : Context S}

theorem mono (h : Agree fields params ctx ctx') (hfields : fields' ⊆ fields)
    (hparams : params' ⊆ params) : Agree fields' params' ctx ctx' where
  rows := h.rows.imp fun _ _ hread f hf => hread f (hfields hf)
  params i hi := h.params i (hparams hi)

theorem left (h : Agree (fields ++ fields') (params ++ params') ctx ctx') :
    Agree fields params ctx ctx' :=
  h.mono (List.subset_append_left _ _) (List.subset_append_left _ _)

theorem right (h : Agree (fields ++ fields') (params ++ params') ctx ctx') :
    Agree fields' params' ctx ctx' :=
  h.mono (List.subset_append_right _ _) (List.subset_append_right _ _)

theorem readField {f : FieldRef} (h : Agree [f] params ctx ctx') :
    ctx.readField f = ctx'.readField f := by
  obtain ⟨rows, accessor, given⟩ := ctx
  obtain ⟨rows', accessor', given'⟩ := ctx'
  cases h.rows with
  | nil => rfl
  | cons hrow _ => exact hrow f (List.mem_singleton_self f)

theorem readParam {i : Nat} (h : Agree fields [i] ctx ctx') : ctx.readParam i = ctx'.readParam i := by
  rw [Context.readParam, Context.readParam, h.params i (List.mem_singleton_self i)]

/-- What has the same result on any two rows that agree is collected alike. -/
theorem collect (h : Agree fields params ctx ctx') {f : R → Except EvalError Value}
    {g : S → Except EvalError Value}
    (hfg : ∀ row row', Agree fields params (ctx.onRow row) (ctx'.onRow row') → f row = g row') :
    ctx.collect f = ctx'.collect g := by
  have hmapM : ctx.rows.mapM f = ctx'.rows.mapM g :=
    mapM_eq_mapM (h.rows.imp fun row row' hread => hfg row row' ⟨.cons hread .nil, h.params⟩)
  rw [Context.collect, Context.collect, hmapM]

end Context.Agree

open Context (Agree)

/-! ## Expressions -/

namespace Expr

mutual

/-- An expression has one result in contexts that agree on its fields and its parameters. -/
theorem eval_of_agree {ctx : Context R} {ctx' : Context S} : (e : Expr) →
    Agree e.fields e.parameters ctx ctx' → e.eval ctx = e.eval ctx'
  | .literal _, _ => rfl
  | .field _, h => h.readField
  | .placeholder _, h => h.readParam
  | .list items, h => by rw [eval, eval, evalAll_of_agree items h]
  | .wildcard, _ => rfl
  | .arith _ left right, h => by
      rw [eval, eval, eval_of_agree left h.left, eval_of_agree right h.right]
  | .call name args, h => by
      cases ha : Aggregate.ofName? name with
      | none => rw [eval_scalar ha, eval_scalar ha, evalAll_of_agree args h]
      | some a =>
          obtain ⟨arg, rfl, star⟩ | hargs := evaluates_argument_or args
          · -- on every row the argument is evaluated in a context of its own
            rw [eval_aggregate ha star, eval_aggregate ha star,
              h.left.collect fun _ _ hrow => eval_of_agree arg hrow]
          · rw [eval_aggregate_of_args ha hargs, eval_aggregate_of_args ha hargs, h.rows.length_eq]

theorem evalAll_of_agree {ctx : Context R} {ctx' : Context S} : (es : List Expr) →
    Agree (fieldsOfAll es) (parametersOfAll es) ctx ctx' → evalAll ctx es = evalAll ctx' es
  | [], _ => rfl
  | e :: rest, h => by
      rw [evalAll, evalAll, eval_of_agree e h.left, evalAll_of_agree rest h.right]

end

end Expr

/-! ## Comparisons and predicates -/

theorem Comparison.eval_of_agree {c : Comparison} {ctx : Context R} {ctx' : Context S}
    (h : Agree c.fields c.parameters ctx ctx') : c.eval ctx = c.eval ctx' := by
  rw [eval, eval, c.left.eval_of_agree h.left, c.right.eval_of_agree h.right]

namespace Predicate

@[simp]
theorem fields_comparison (c : Comparison) : (comparison c).fields = c.fields := by
  simp [fields, comparisons]

@[simp]
theorem fields_logic (op : LogicOp) (left right : Predicate) :
    (logic op left right).fields = left.fields ++ right.fields :=
  List.flatMap_append

/-- A predicate has one result in contexts that agree on its fields and its parameters. -/
theorem eval_of_agree {p : Predicate} {ctx : Context R} {ctx' : Context S}
    (h : Agree p.fields p.parameters ctx ctx') : p.eval ctx = p.eval ctx' := by
  induction p with
  | always => rfl
  | comparison c =>
      rw [fields_comparison, parameters_comparison] at h
      exact c.eval_of_agree h
  | logic op left right ihl ihr =>
      rw [fields_logic, parameters_logic] at h
      cases op with
      | and => rw [eval, eval, ihl h.left, ihr h.right]
      | or => rw [eval, eval, ihl h.left, ihr h.right]

end Predicate

/-! ## With a memo -/

theorem Expr.apart_evalMemo (e : Expr) (ctx : Context R) : Memo.apart (e.evalMemo ctx []) = e.eval ctx :=
  Memo.apart_eq (e.transparent_evalMemo ctx e.places [] e.standsAt_places)

theorem Predicate.apart_evalMemo (p : Predicate) (ctx : Context R) :
    Memo.apart (p.evalMemo ctx []) = p.eval ctx :=
  Memo.apart_eq (p.transparent_evalMemo ctx p.places [] p.standsAt_places)

/-- **Evaluation reads only what is named.** With and without a memo, an expression and a predicate have
one result, a value or an error, in two contexts that agree on the fields and the parameters in them; a
constant has one result in any two contexts. -/
theorem evaluation_reads_only_what_is_named (ctx : Context R) (ctx' : Context S) :
    (∀ e : Expr, Agree e.fields e.parameters ctx ctx' →
      Memo.apart (e.evalMemo ctx []) = Memo.apart (e.evalMemo ctx' []) ∧ e.eval ctx = e.eval ctx') ∧
    (∀ p : Predicate, Agree p.fields p.parameters ctx ctx' →
      Memo.apart (p.evalMemo ctx []) = Memo.apart (p.evalMemo ctx' []) ∧ p.eval ctx = p.eval ctx') ∧
    ∀ e : Expr, e.isConstant = true →
      Memo.apart (e.evalMemo ctx []) = Memo.apart (e.evalMemo ctx' []) ∧ e.eval ctx = e.eval ctx' := by
  refine ⟨fun e h => ?_, fun p h => ?_, fun e h => ?_⟩
  · rw [e.apart_evalMemo, e.apart_evalMemo, Expr.eval_of_agree e h]
    exact ⟨rfl, rfl⟩
  · rw [p.apart_evalMemo, p.apart_evalMemo, Predicate.eval_of_agree h]
    exact ⟨rfl, rfl⟩
  · rw [e.apart_evalMemo, e.apart_evalMemo, e.eval_of_isConstant ctx ctx' h]
    exact ⟨rfl, rfl⟩

/-- Records of two types with one field in common, other parameters, and no row at all for a constant. -/
theorem evaluation_reads_only_what_is_named_of_sum :
    let ctx : Context Nat := ⟨[3, 4],
      ⟨fun n name => if name = "a" then .ok (.integer (Int64.ofNat n)) else .error .divisionByZero,
        fun _ => []⟩, [.null, .integer 5]⟩
    let ctx' : Context Value := ⟨[.object [("a", .integer 3), ("b", .null)], .object [("a", .integer 4)]],
      .ofObjects, [.boolean true, .integer 5]⟩
    let sum : Expr := .arith .add (.call "sum" [.field ⟨none, "a"⟩]) (.placeholder 1)
    let less : Predicate := .comparison ⟨.field ⟨none, "a"⟩, .less, .placeholder 1⟩
    let quotient : Expr := .arith .divide (.literal (.integer 1)) (.literal (.integer 0))
    Agree sum.fields sum.parameters ctx ctx' ∧ Agree less.fields less.parameters ctx ctx' ∧
      Memo.apart (sum.evalMemo ctx []) = Memo.apart (sum.evalMemo ctx' []) ∧
      (sum.eval ctx).toOption.map Value.display = some "12" ∧
      Memo.apart (less.evalMemo ctx []) = Memo.apart (less.evalMemo ctx' []) ∧
      quotient.eval ctx = quotient.eval { ctx' with rows := [] } := by
  intro ctx ctx' sum less quotient
  have hrows : ∀ fields ⊆ [FieldRef.mk none "a"], List.Forall₂ (fun n record => ∀ f ∈ fields,
      ctx.accessor.get n f.qualifiedName = ctx'.accessor.get record f.qualifiedName)
      ctx.rows ctx'.rows := by
    intro fields hfields
    refine .cons ?_ (.cons ?_ .nil) <;>
    · intro f hf
      obtain rfl := List.mem_singleton.mp (hfields hf)
      rfl
  have hparams : ∀ i ∈ ([1] : List Nat), ctx.params[i]? = ctx'.params[i]? := by
    intro i hi
    obtain rfl := List.mem_singleton.mp hi
    rfl
  have hsum : Agree sum.fields sum.parameters ctx ctx' := ⟨hrows _ (List.Subset.refl _), hparams⟩
  have hless : Agree less.fields less.parameters ctx ctx' := ⟨hrows _ (List.Subset.refl _), hparams⟩
  exact ⟨hsum, hless, ((evaluation_reads_only_what_is_named ctx ctx').1 sum hsum).1, by decide +kernel,
    ((evaluation_reads_only_what_is_named ctx ctx').2.1 less hless).1,
    ((evaluation_reads_only_what_is_named ctx { ctx' with rows := [] }).2.2 quotient rfl).2⟩

end RecordQuery
