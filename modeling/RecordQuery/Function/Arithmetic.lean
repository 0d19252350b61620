import RecordQuery.EvalError
import RecordQuery.Value.Order
/-!
# Arithmetic on values

Exact operands give an exact result as long as the decimal range holds it: integers stay integers
until 64 bits do not hold the result, and a quotient is always a decimal. Past the decimal range the
operation is done in the binary format. A null operand gives null, and a plus between two texts puts
them together.
-/

namespace RecordQuery

/-- The result of an operation on two integers, if it fits 64 bits. Division is left to decimals. -/
def integerArithmetic? : ArithOp → Int → Int → Option Int64
  | .add, a, b => integer64? (a + b)
  | .subtract, a, b => integer64? (a - b)
  | .multiply, a, b => integer64? (a * b)
  | .divide, _, _ => none

/-- The result of an operation on two decimals, if the decimal range holds it. -/
def decimalArithmetic? : ArithOp → Decimal → Decimal → Option Value
  | .add, a, b => (a.add? b).map Value.ofDecimal
  | .subtract, a, b => (a.sub? b).map Value.ofDecimal
  | .multiply, a, b => (a.mul? b).map Value.ofDecimal
  | .divide, a, b => (a.div? b).map fun d => .decimal d.normalize

/-- The result of an operation in the binary format. -/
def floatArithmetic : ArithOp → Float → Float → Except EvalError Value
  | op, x, y =>
    if op = .divide ∧ Binary64.isZero y then .error .divisionByZero
    else
      let result :=
        match op with
        | .add => x + y
        | .subtract => x - y
        | .multiply => x * y
        | .divide => x / y
      if Binary64.isFinite result then .ok (.ofFloat result) else .error (.type (.overflow op))

/-- The exact result of an operation, if there is one. -/
def exactArithmetic? (op : ArithOp) (left right : Value) : Option Value :=
  let ofIntegers :=
    match left, right with
    | .integer a, .integer b => integerArithmetic? op a.toInt b.toInt
    | _, _ => none
  match ofIntegers with
  | some n => some (.integer n)
  | none =>
    match left.toDecimal?, right.toDecimal? with
    | some a, some b => decimalArithmetic? op a b
    | _, _ => none

/-- `exactZero v` holds when `v` is exact and zero. -/
def exactZero (v : Value) : Bool :=
  v.toDecimal?.any Decimal.isZero

/-- The result of an operation on two numbers, whose binary forms are given as well. -/
def numberArithmetic (op : ArithOp) (left right : Value) (x y : Float) : Except EvalError Value :=
  if op = .divide ∧ left.toDecimal?.isSome ∧ exactZero right then .error .divisionByZero
  else
    match exactArithmetic? op left right with
    | some exact => .ok exact
    | none => floatArithmetic op x y

/-- Applies an operator to two values. -/
def arithmetic (op : ArithOp) (left right : Value) : Except EvalError Value :=
  if left.isNull || right.isNull then .ok .null
  else
    match op, left, right with
    | .add, .string a, .string b => .ok (.string (a ++ b))
    | op, left, right =>
      match left.toFloat?, right.toFloat? with
      | some x, some y => numberArithmetic op left right x y
      | _, _ => .error (.type (.operands op left.typeName right.typeName))

end RecordQuery
