import RecordQuery.Predicate.Eval
/-!
# Calls and failures

How a call is evaluated, in one equation for each of its three kinds, and which errors an evaluation may
end with. `FailsOnly P r` says that `r` has a result or fails with an error that `P` allows; it passes
through sequencing, so the errors of a computation are those of its parts. Functions, operators and
aggregates fail only with errors that lie in the values they are given (`EvalError.OfValues`).
-/

namespace RecordQuery

/-! ## The kinds of calls -/

namespace Expr

variable {R : Type} {name : String} {a : Aggregate}

theorem eval_scalar (h : Aggregate.ofName? name = none) (ctx : Context R) (args : List Expr) :
    (call name args).eval ctx = evalAll ctx args >>= callScalar name := by
  rw [eval, h]

theorem eval_aggregate (ha : Aggregate.ofName? name = some a) {arg : Expr} (star : arg ≠ .wildcard)
    (ctx : Context R) :
    (call name [arg]).eval ctx = (ctx.collect fun row => arg.eval (ctx.onRow row)) >>= a.apply := by
  rw [eval, ha]
  cases arg <;> first | exact absurd rfl star | rfl

/-- An aggregate that has no argument to evaluate looks at nothing but numbers: how many arguments and
how many rows there are. -/
theorem eval_aggregate_of_args (ha : Aggregate.ofName? name = some a) {args : List Expr}
    (hargs : ∀ arg, args = [arg] → arg = .wildcard) (ctx : Context R) :
    (call name args).eval ctx =
      if args.length = 1 then aggregateOfAll a ctx.rows.length
      else .error (.type (.aggregateArgumentCount name args.length)) := by
  rw [eval, ha]
  match args, hargs with
  | [], _ => rfl
  | [arg], hargs =>
      obtain rfl := hargs arg rfl
      rfl
  | first :: _ :: _, _ => cases first <;> rfl

/-- The two ways in which an aggregate is called. -/
theorem evaluates_argument_or (args : List Expr) :
    (∃ arg, args = [arg] ∧ arg ≠ .wildcard) ∨ ∀ arg, args = [arg] → arg = .wildcard := by
  by_cases one : ∃ arg, args = [arg] ∧ arg ≠ .wildcard
  · exact .inl one
  · refine .inr fun arg harg => ?_
    exact Classical.byContradiction fun star => one ⟨arg, harg, star⟩

end Expr

/-! ## Failing for no other reason -/

section Failures

variable {ε ε' α β : Type} {P Q : ε → Prop}

/-- `FailsOnly P r` holds for a computation that has a result, or fails with an error that `P` allows. -/
def FailsOnly (P : ε → Prop) (r : Except ε α) : Prop :=
  ∀ e, r = .error e → P e

@[simp]
theorem failsOnly_ok (a : α) : FailsOnly P (.ok a) := by
  intro e h
  cases h

@[simp]
theorem failsOnly_pure (a : α) : FailsOnly P (pure a) :=
  failsOnly_ok a

@[simp]
theorem failsOnly_error {e : ε} : FailsOnly P (.error e : Except ε α) ↔ P e := by
  refine ⟨fun h => h e rfl, ?_⟩
  rintro h _ ⟨⟩
  exact h

namespace FailsOnly

theorem mono {r : Except ε α} (h : FailsOnly P r) (hpq : ∀ e, P e → Q e) : FailsOnly Q r :=
  fun e he => hpq e (h e he)

theorem bind {r : Except ε α} {f : α → Except ε β} (h : FailsOnly P r)
    (hf : ∀ a, FailsOnly P (f a)) : FailsOnly P (r >>= f) := by
  cases r with
  | error e => exact failsOnly_error.mpr (failsOnly_error.mp h)
  | ok a => exact hf a

theorem ite {c : Prop} [Decidable c] {r r' : Except ε α} (h : FailsOnly P r) (h' : FailsOnly P r') :
    FailsOnly P (if c then r else r') := by
  split
  · exact h
  · exact h'

theorem map {r : Except ε α} (f : α → β) (h : FailsOnly P r) : FailsOnly P (r.map f) := by
  cases r with
  | error e => exact failsOnly_error.mpr (failsOnly_error.mp h)
  | ok a => exact failsOnly_ok _

theorem mapError {r : Except ε α} {g : ε → ε'} {P' : ε' → Prop} (h : FailsOnly P r)
    (hg : ∀ e, P e → P' (g e)) : FailsOnly P' (r.mapError g) := by
  cases r with
  | error e => exact failsOnly_error.mpr (hg e (failsOnly_error.mp h))
  | ok a => exact failsOnly_ok a

theorem mapM {f : α → Except ε β} {as : List α} (h : ∀ a ∈ as, FailsOnly P (f a)) :
    FailsOnly P (as.mapM f) := by
  induction as with
  | nil => exact failsOnly_pure _
  | cons a as ih =>
      rw [List.mapM_cons]
      refine (h a List.mem_cons_self).bind fun b => ?_
      refine (ih fun x hx => h x (List.mem_cons_of_mem a hx)).bind fun bs => ?_
      exact failsOnly_pure _

theorem foldlM {f : β → α → Except ε β} (h : ∀ b a, FailsOnly P (f b a)) (b : β) (as : List α) :
    FailsOnly P (as.foldlM f b) := by
  induction as generalizing b with
  | nil => exact failsOnly_pure _
  | cons a as ih =>
      rw [List.foldlM_cons]
      exact (h b a).bind ih

end FailsOnly

end Failures

/-! ## Errors that lie in values -/

/-- The errors of functions and operators: what they are given is of the wrong kind, there is no such
function, or the divisor is zero. -/
inductive EvalError.OfValues : EvalError → Prop
  | type (fault : TypeFault) : OfValues (.type fault)
  | unknownFunction (name : String) : OfValues (.unknownFunction name)
  | divisionByZero : OfValues .divisionByZero

open EvalError (OfValues)

attribute [simp] OfValues.type OfValues.unknownFunction OfValues.divisionByZero

theorem floatArithmetic_failsOnly (op : ArithOp) (x y : Float) :
    FailsOnly OfValues (floatArithmetic op x y) := by
  unfold floatArithmetic
  split
  exact .ite (failsOnly_error.mpr .divisionByZero)
    (.ite (failsOnly_ok _) (failsOnly_error.mpr (.type _)))

theorem numberArithmetic_failsOnly (op : ArithOp) (left right : Value) (x y : Float) :
    FailsOnly OfValues (numberArithmetic op left right x y) := by
  unfold numberArithmetic
  split
  · simp
  · split
    · simp
    · exact floatArithmetic_failsOnly op x y

theorem arithmetic_failsOnly (op : ArithOp) (left right : Value) :
    FailsOnly OfValues (arithmetic op left right) := by
  unfold arithmetic
  split
  · simp
  · split
    · simp
    · split
      · exact numberArithmetic_failsOnly _ _ _ _ _
      · simp

namespace ScalarFunction

theorem exactNumber_failsOnly (f : ScalarFunction) (v : Value) :
    FailsOnly OfValues (exactNumber f v) := by
  unfold exactNumber
  split <;> simp

theorem anyNumber_failsOnly (f : ScalarFunction) (v : Value) :
    FailsOnly OfValues (anyNumber f v) := by
  unfold anyNumber
  split <;> simp

theorem ofFloatFunction_failsOnly (f : ScalarFunction) (g : Float → Float) (v : Value) :
    FailsOnly OfValues (ofFloatFunction f g v) :=
  (anyNumber_failsOnly f v).map _

theorem toWhole_failsOnly (f : ScalarFunction) (ofFloat : Float → Float)
    (ofDecimal : Decimal → Decimal) (v : Value) :
    FailsOnly OfValues (toWhole f ofFloat ofDecimal v) := by
  unfold toWhole
  split
  · simp
  · exact (exactNumber_failsOnly f _).map _

theorem magnitude_failsOnly (v : Value) : FailsOnly OfValues (magnitude v) := by
  fun_cases magnitude v with
  | case1 => exact failsOnly_ok _
  | case2 => exact failsOnly_ok _
  | case3 => exact failsOnly_ok _
  | case4 => exact (exactNumber_failsOnly abs _).map _

theorem roundPlaces_failsOnly (v? : Option Value) : FailsOnly OfValues (roundPlaces v?) := by
  unfold roundPlaces
  split
  · simp
  · exact .ite (failsOnly_ok _) (failsOnly_error.mpr (.type _))
  · simp

theorem roundTo_failsOnly (places : Nat) (v : Value) : FailsOnly OfValues (roundTo places v) := by
  unfold roundTo
  split
  · simp
  · exact (exactNumber_failsOnly round _).map _

theorem power_failsOnly (base exponent : Value) : FailsOnly OfValues (power base exponent) := by
  unfold power
  dsimp only
  split
  · simp
  · refine (anyNumber_failsOnly pow base).bind fun x => ?_
    refine (anyNumber_failsOnly pow exponent).bind fun y => ?_
    exact failsOnly_pure _

theorem lengthOf_failsOnly (v : Value) : FailsOnly OfValues (lengthOf v) := by
  unfold lengthOf
  split <;> simp

theorem apply_failsOnly (f : ScalarFunction) (args : List Value) :
    FailsOnly OfValues (f.apply args) := by
  cases f with
  | coalesce => exact failsOnly_ok _
  | abs => exact magnitude_failsOnly _
  | ceil => exact toWhole_failsOnly _ _ _ _
  | floor => exact toWhole_failsOnly _ _ _ _
  | round => exact (roundPlaces_failsOnly _).bind fun places => roundTo_failsOnly places _
  | sqrt => exact ofFloatFunction_failsOnly _ _ _
  | log => exact ofFloatFunction_failsOnly _ _ _
  | log10 => exact ofFloatFunction_failsOnly _ _ _
  | exp => exact ofFloatFunction_failsOnly _ _ _
  | pow => exact power_failsOnly _ _
  | upper => exact failsOnly_ok _
  | lower => exact failsOnly_ok _
  | length => exact lengthOf_failsOnly _
  | concat => exact failsOnly_ok _

theorem call_failsOnly (f : ScalarFunction) (args : List Value) :
    FailsOnly OfValues (f.call args) := by
  unfold call
  split
  · simp
  · split
    · simp
    · split
      · simp
      · exact apply_failsOnly f args

end ScalarFunction

theorem callScalar_failsOnly (name : String) (args : List Value) :
    FailsOnly OfValues (callScalar name args) := by
  unfold callScalar
  split
  · exact ScalarFunction.call_failsOnly _ args
  · simp

namespace Aggregate

theorem addTo_failsOnly (a : Aggregate) (sum value : Value) :
    FailsOnly OfValues (a.addTo sum value) := by
  unfold addTo
  split
  · exact arithmetic_failsOnly .add sum value
  · simp

theorem apply_failsOnly (a : Aggregate) (values : List Value) :
    FailsOnly OfValues (a.apply values) := by
  have total : ∀ a, FailsOnly OfValues (Aggregate.total a values) := fun a =>
    FailsOnly.foldlM (addTo_failsOnly a) _ _
  unfold apply
  split
  · simp
  · simp
  · simp
  · split
    · simp
    · exact total .sum
  · split
    · simp
    · exact (total .avg).bind fun sum => arithmetic_failsOnly .divide sum _

end Aggregate

theorem aggregateOfAll_failsOnly (a : Aggregate) (rows : Nat) :
    FailsOnly OfValues (aggregateOfAll a rows) := by
  unfold aggregateOfAll
  split <;> simp

theorem matchLike_failsOnly (left right : Value) : FailsOnly OfValues (matchLike left right) := by
  unfold matchLike
  split
  · simp
  · split <;> simp

end RecordQuery
