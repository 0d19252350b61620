import RecordQuery.Parse.Condition
/-!
# Folding a predicate keeps what it decides

`Predicate.fold` is what a predicate becomes while it is read: every comparison of constants that
holds is dropped for the predicate that always holds, and the connectives are put together again from
the leaves up by `combine`.

A comparison is decided once and for all in the empty context, so the first half is that a constant
has one value in every context, with one kind of records or another (`Expr.eval_of_isConstant`). The
second half is what `combine` does to a decision (`Predicate.eval_combine`). Only decisions are kept:
a side that is dropped may have failed, and then the folded predicate decides where the written one
does not.
-/

namespace RecordQuery

variable {R S : Type}

/-! ## Constants have one value in every context -/

namespace Expr

mutual

/-- A constant has one value, or fails in one way, in all contexts. -/
theorem eval_of_isConstant (ctx : Context R) (ctx' : Context S) :
    (e : Expr) → e.isConstant = true → e.eval ctx = e.eval ctx'
  | .literal _, _ => rfl
  | .field _, h => by simp [isConstant] at h
  | .placeholder _, h => by simp [isConstant] at h
  | .wildcard, h => by simp [isConstant] at h
  | .list items, h => by
      rw [isConstant] at h
      rw [eval, eval, evalAll_of_areConstant ctx ctx' items h]
  | .call name args, h => by
      simp only [isConstant, Bool.and_eq_true, Bool.not_eq_true', isAggregate,
        Option.isSome_eq_false_iff, Option.isNone_iff_eq_none] at h
      obtain ⟨scalar, constant⟩ := h
      simp only [eval, scalar, evalAll_of_areConstant ctx ctx' args constant]
  | .arith op left right, h => by
      simp only [isConstant, Bool.and_eq_true] at h
      obtain ⟨hl, hr⟩ := h
      rw [eval, eval, eval_of_isConstant ctx ctx' left hl, eval_of_isConstant ctx ctx' right hr]

/-- So do the items of a list of constants. -/
theorem evalAll_of_areConstant (ctx : Context R) (ctx' : Context S) :
    (es : List Expr) → areConstant es = true → evalAll ctx es = evalAll ctx' es
  | [], _ => rfl
  | e :: rest, h => by
      simp only [areConstant, Bool.and_eq_true] at h
      obtain ⟨he, hrest⟩ := h
      rw [evalAll, evalAll, eval_of_isConstant ctx ctx' e he,
        evalAll_of_areConstant ctx ctx' rest hrest]

end

end Expr

namespace Comparison

/-- A comparison of constants is decided in one way in all contexts. -/
theorem eval_of_isConstant {c : Comparison} (h : c.isConstant = true) (ctx : Context R)
    (ctx' : Context S) : c.eval ctx = c.eval ctx' := by
  simp only [isConstant, Bool.and_eq_true] at h
  obtain ⟨hl, hr⟩ := h
  simp only [eval, Expr.eval_of_isConstant ctx ctx' c.left hl,
    Expr.eval_of_isConstant ctx ctx' c.right hr]

/-- What folds away holds in every context. -/
theorem eval_of_constantTruth {c : Comparison} (hc : c.isConstant = true) {b : Bool}
    (ht : c.constantTruth? = some b) (ctx : Context R) : c.eval ctx = .ok b := by
  rw [eval_of_isConstant hc ctx Context.empty]
  unfold constantTruth? at ht
  cases h : c.eval Context.empty with
  | error e => simp [h, Except.toOption] at ht
  | ok b' =>
      rw [h] at ht
      simp only [Except.toOption, Option.some.injEq] at ht
      rw [ht]

end Comparison

namespace Predicate

/-- Reading a comparison changes nothing about its decision. -/
theorem eval_predicateOf (ctx : Context R) (c : Comparison) :
    (Reader.predicateOf c).eval ctx = c.eval ctx := by
  unfold Reader.predicateOf
  split
  next h =>
    simp only [Bool.and_eq_true, beq_iff_eq] at h
    obtain ⟨hc, ht⟩ := h
    rw [Comparison.eval_of_constantTruth hc ht ctx]
    rfl
  next => rfl

/-! ## Connectives -/

/-- The predicate with everything folded away that is folded away when it is read. -/
def fold : Predicate → Predicate
  | .always => .always
  | .comparison c => Reader.predicateOf c
  | .logic op left right => combine op left.fold right.fold

theorem eval_and_eq_ok_iff {ctx : Context R} {p q : Predicate} {b : Bool} :
    (logic .and p q).eval ctx = .ok b ↔
      p.eval ctx = .ok false ∧ b = false ∨ p.eval ctx = .ok true ∧ q.eval ctx = .ok b := by
  cases h : p.eval ctx with
  | error e => simp [eval, h, bind, Except.bind]
  | ok d => cases d <;> simp [eval, h, bind, Except.bind, pure, Except.pure, eq_comm]

theorem eval_or_eq_ok_iff {ctx : Context R} {p q : Predicate} {b : Bool} :
    (logic .or p q).eval ctx = .ok b ↔
      p.eval ctx = .ok true ∧ b = true ∨ p.eval ctx = .ok false ∧ q.eval ctx = .ok b := by
  cases h : p.eval ctx with
  | error e => simp [eval, h, bind, Except.bind]
  | ok d => cases d <;> simp [eval, h, bind, Except.bind, pure, Except.pure, eq_comm]

theorem eq_always_of_isAlways {p : Predicate} (h : p.isAlways = true) : p = .always := by
  cases p with
  | always => rfl
  | comparison c => simp [isAlways] at h
  | logic op l r => simp [isAlways] at h

/-- `combine` keeps every decision of the connective. -/
theorem eval_combine {ctx : Context R} {op : LogicOp} {p q : Predicate} {b : Bool}
    (h : (logic op p q).eval ctx = .ok b) : (combine op p q).eval ctx = .ok b := by
  fun_cases combine op p q with
  | case1 =>
      rcases eval_and_eq_ok_iff.mp h with ⟨hp, -⟩ | ⟨-, hq⟩
      · simp [eval] at hp
      · exact hq
  | case2 =>
      rcases eval_and_eq_ok_iff.mp h with ⟨hp, rfl⟩ | ⟨hp, hq⟩
      · exact hp
      · rw [hp]
        exact hq
  | case3 =>
      rename_i hdrop
      -- the left side always holds, so the right one is not looked at
      rw [Bool.and_eq_true] at hdrop
      obtain rfl := eq_always_of_isAlways hdrop.1
      rcases eval_or_eq_ok_iff.mp h with ⟨-, rfl⟩ | ⟨hp, -⟩
      · rfl
      · simp [eval] at hp
  | case4 =>
      rename_i hdrop
      rw [Bool.and_eq_true] at hdrop
      obtain rfl := eq_always_of_isAlways hdrop.1
      rcases eval_or_eq_ok_iff.mp h with ⟨-, rfl⟩ | ⟨-, hq⟩
      · rfl
      · exact hq
  | case5 => exact h
  | case6 => exact h

/-- A connective decides at least as much when its sides do. -/
theorem eval_logic_mono {ctx : Context R} {op : LogicOp} {p p' q q' : Predicate} {b : Bool}
    (hp : ∀ b, p.eval ctx = .ok b → p'.eval ctx = .ok b)
    (hq : ∀ b, q.eval ctx = .ok b → q'.eval ctx = .ok b)
    (h : (logic op p q).eval ctx = .ok b) : (logic op p' q').eval ctx = .ok b := by
  cases op with
  | and =>
      rcases eval_and_eq_ok_iff.mp h with ⟨h', hb⟩ | ⟨h', h''⟩
      · exact eval_and_eq_ok_iff.mpr (.inl ⟨hp _ h', hb⟩)
      · exact eval_and_eq_ok_iff.mpr (.inr ⟨hp _ h', hq _ h''⟩)
  | or =>
      rcases eval_or_eq_ok_iff.mp h with ⟨h', hb⟩ | ⟨h', h''⟩
      · exact eval_or_eq_ok_iff.mpr (.inl ⟨hp _ h', hb⟩)
      · exact eval_or_eq_ok_iff.mpr (.inr ⟨hp _ h', hq _ h''⟩)

/-- The folded predicate makes every decision that the written one makes. -/
theorem eval_fold_of_eval {ctx : Context R} (t : Predicate) :
    ∀ b, t.eval ctx = .ok b → t.fold.eval ctx = .ok b := by
  induction t with
  | always => exact fun b h => h
  | comparison c =>
      intro b h
      rw [fold, eval_predicateOf]
      exact h
  | logic op left right ihl ihr =>
      intro b h
      exact eval_combine (eval_logic_mono ihl ihr h)

/-- **Folding keeps meaning.** On any rows, under any accessor and with any parameters, the folded
predicate decides as the written one wherever that decides at all, and so it fails only where the
written one fails. -/
theorem fold_preserves_decision (ctx : Context R) (t : Predicate) :
    (∀ b, t.eval ctx = .ok b → t.fold.eval ctx = .ok b) ∧
      (∀ e, t.fold.eval ctx = .error e → ∃ e', t.eval ctx = .error e') := by
  refine ⟨eval_fold_of_eval t, ?_⟩
  intro e he
  cases h : t.eval ctx with
  | ok b =>
      rw [eval_fold_of_eval t b h] at he
      cases he
  | error e' => exact ⟨e', rfl⟩

end Predicate

end RecordQuery
