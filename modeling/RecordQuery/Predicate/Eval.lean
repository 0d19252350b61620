import RecordQuery.Predicate.Compare
import RecordQuery.Expr.Eval
/-!
# Whether a record satisfies a predicate

A comparison evaluates its left side and then its right side; a `LIKE` whose left side is null is
false without looking at the right one, and a pattern that is a literal is not evaluated again. `AND`
and `OR` look at their right side only when the left one does not decide.
-/

namespace RecordQuery

variable {R : Type}

/-- Matches a value against the value of a pattern expression. -/
def matchLike (left right : Value) : Except EvalError Bool :=
  if right.isNull then .ok false
  else
    match Pattern.ofText? right.display with
    | some p => .ok (p.isMatch left.display)
    | none => .error (.type (.pattern right.display))

/-- Decides a comparison. -/
def Comparison.eval (ctx : Context R) (c : Comparison) : Except EvalError Bool := do
  let left ← c.left.eval ctx
  if c.op = .like then
    if left.isNull then return false
    else
      match c.pattern? with
      | some p => return p.isMatch left.display
      | none => matchLike left (← c.right.eval ctx)
  else return compareValues c.op left (← c.right.eval ctx)

/-- Decides a predicate. -/
def Predicate.eval (ctx : Context R) : Predicate → Except EvalError Bool
  | .always => .ok true
  | .comparison c => c.eval ctx
  | .logic .and left right => do
    if ← left.eval ctx then right.eval ctx else return false
  | .logic .or left right => do
    if ← left.eval ctx then return true else right.eval ctx

/-- Decides a predicate on one record. -/
def Predicate.holds (p : Predicate) (accessor : Accessor R) (params : List Value) (record : R) :
    Except EvalError Bool :=
  p.eval ⟨[record], accessor, params⟩

/-- The records that satisfy a predicate, in their order. The first error ends the search. -/
def Predicate.filter (p : Predicate) (accessor : Accessor R) (params : List Value)
    (records : List R) : Except EvalError (List R) :=
  match records with
  | [] => .ok []
  | record :: rest => do
    let satisfied ← p.holds accessor params record
    let others ← p.filter accessor params rest
    return if satisfied then record :: others else others

/-! ## Comparisons of constants -/

/-- A context without rows and parameters, in which constants are evaluated. -/
def Context.empty : Context Unit where
  rows := []
  accessor := ⟨fun _ _ => .ok .null, fun _ => []⟩
  params := []

/-- The truth of a comparison that depends on no record and no parameter; there is none when its
evaluation fails. -/
def Comparison.constantTruth? (c : Comparison) : Option Bool :=
  (c.eval Context.empty).toOption

end RecordQuery
