import RecordQuery.Expr.Basic
import RecordQuery.Record.Accessor
import RecordQuery.Function.Aggregate
/-!
# The value of an expression

An expression is evaluated over a list of rows: the one record in question, or the group that
aggregates consume. A field is read off the first row, and an aggregate evaluates its argument once
for each row, over that row alone. Parts are evaluated from left to right, and the first error ends
the evaluation.
-/

namespace RecordQuery

/-- What an expression is evaluated over. -/
structure Context (R : Type) where
  rows : List R
  accessor : Accessor R
  params : List Value

namespace Context

variable {R : Type}

/-- The same context with one row. -/
def onRow (ctx : Context R) (row : R) : Context R :=
  { ctx with rows := [row] }

/-- The value of a field: that of the first row, or null where there is no row. -/
def readField (ctx : Context R) (f : FieldRef) : Except EvalError Value :=
  match ctx.rows with
  | row :: _ => ctx.accessor.get row f.qualifiedName
  | [] => .ok .null

/-- The value of a parameter. -/
def readParam (ctx : Context R) (index : Nat) : Except EvalError Value :=
  match ctx.params[index]? with
  | some v => .ok v
  | none => .error (.missingParameter index)

/-- The values that are not null among the results of a function on every row. -/
def collect (ctx : Context R) (f : R → Except EvalError Value) : Except EvalError (List Value) :=
  (ctx.rows.mapM f).map fun values => values.filter fun v => !v.isNull

end Context

/-- Calls a function by name on the values of its arguments. -/
def callScalar (name : String) (args : List Value) : Except EvalError Value :=
  match ScalarFunction.ofName? name with
  | some f => f.call args
  | none => .error (.unknownFunction name)

/-- Calls an aggregate whose one argument is a star: only `count` has a value, the number of rows. -/
def aggregateOfAll (a : Aggregate) (rows : Nat) : Except EvalError Value :=
  if a = .count then .ok (.integer (Int64.ofNat rows)) else .error (.type (.aggregateOfAll a.name))

namespace Expr

variable {R : Type}

mutual

/-- The value of an expression. -/
def eval (ctx : Context R) : Expr → Except EvalError Value
  | .literal l => .ok (.ofLiteral l)
  | .field f => ctx.readField f
  | .placeholder index => ctx.readParam index
  | .list items => (evalAll ctx items).map .array
  | .wildcard => .error (.type .wildcard)
  | .call name args =>
    match Aggregate.ofName? name with
    | some a =>
      match args with
      | [.wildcard] => aggregateOfAll a ctx.rows.length
      | [arg] => do a.apply (← ctx.collect fun row => eval (ctx.onRow row) arg)
      | args => .error (.type (.aggregateArgumentCount name args.length))
    | none => do callScalar name (← evalAll ctx args)
  | .arith op left right => do
    let l ← eval ctx left
    let r ← eval ctx right
    arithmetic op l r
termination_by structural e => e

/-- The values of a list of expressions. -/
def evalAll (ctx : Context R) : List Expr → Except EvalError (List Value)
  | [] => .ok []
  | e :: rest => do
    let v ← eval ctx e
    let vs ← evalAll ctx rest
    return v :: vs
termination_by structural es => es

end

end Expr

end RecordQuery
