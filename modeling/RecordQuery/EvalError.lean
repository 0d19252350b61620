import RecordQuery.Expr.Basic
/-!
# Why an evaluation fails

Each failure is a cause; `message` gives its wording. The causes that come from a value of the wrong
type are kept apart as `TypeFault`.
-/

namespace RecordQuery

/-- A value or a call of the wrong kind. -/
inductive TypeFault where
  /-- a star where a value is asked for -/
  | wildcard
  /-- a function called with a wrong number of arguments -/
  | argumentCount (name : String) (fewest most got : Nat)
  /-- an aggregate called with another number of arguments than one -/
  | aggregateArgumentCount (name : String) (got : Nat)
  /-- an aggregate other than `count` called with a star -/
  | aggregateOfAll (name : String)
  /-- an argument that is no number -/
  | notANumber (name typeName : String)
  /-- an argument without a length -/
  | noLength (typeName : String)
  /-- a digit count that is none; the value is given by its text -/
  | digitCount (value : String)
  /-- operands that an operator is not defined for -/
  | operands (op : ArithOp) (left right : String)
  /-- a result past the largest number -/
  | overflow (op : ArithOp)
  /-- a pattern that is refused -/
  | pattern (source : String)
deriving DecidableEq, Repr

/-- The wording of a type fault. -/
def TypeFault.message : TypeFault → String
  | .wildcard => "'*' is only valid in the select list or inside count(*)"
  | .argumentCount name fewest most got =>
    let expected := if fewest = most then toString fewest else toString fewest ++ " to " ++ toString most
    name ++ "() expects " ++ expected ++ " argument(s), got " ++ toString got
  | .aggregateArgumentCount name got => name ++ "() expects 1 argument, got " ++ toString got
  | .aggregateOfAll name => name ++ "(*) is not supported"
  | .notANumber name typeName => name ++ "() expects a number, got " ++ typeName
  | .noLength typeName => "length() expects a string, array or object, got " ++ typeName
  | .digitCount value => "round() expects a digit count between 0 and 4294967295, got " ++ value
  | .operands op left right => "Cannot apply '" ++ op.text ++ "' to " ++ left ++ " and " ++ right
  | .overflow op => "Numeric overflow in '" ++ op.text ++ "'"
  | .pattern source => "Invalid LIKE pattern '" ++ source ++ "'"

/-- Why an expression or a predicate has no value. -/
inductive EvalError where
  /-- the record could not be read -/
  | access (field message : String)
  /-- a field without resource that several resources have -/
  | ambiguousField (field : String) (resources : List String)
  | type (fault : TypeFault)
  | unknownFunction (name : String)
  /-- a parameter that was not given -/
  | missingParameter (index : Nat)
  | divisionByZero
deriving DecidableEq, Repr

/-- The wording of an error. -/
def EvalError.message : EvalError → String
  | .access field message => "Access error on field '" ++ field ++ "': " ++ message
  | .ambiguousField field resources =>
    "Ambiguous field '" ++ field ++ "': present in " ++ String.intercalate ", " resources
  | .type fault => "Type error: " ++ fault.message
  | .unknownFunction name => "Unknown function: " ++ name
  | .missingParameter index => "Missing runtime parameter #" ++ toString index
  | .divisionByZero => "Division by zero"

end RecordQuery
