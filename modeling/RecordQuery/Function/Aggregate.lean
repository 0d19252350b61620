import RecordQuery.Function.Scalar
/-!
# Functions of groups

What an aggregate makes of the values it collects over a group, from which the nulls are already left
out. Sums are taken from the left in `arithmetic`, so they are exact as long as the decimal range
holds them. Of values that sort equally, `min` takes the first and `max` the last.
-/

namespace RecordQuery.Aggregate

/-- The smaller of two values, the first if they sort equally. -/
def smaller (a b : Value) : Value :=
  if a.sortCompare b = .gt then b else a

/-- The larger of two values, the second if they sort equally. -/
def larger (a b : Value) : Value :=
  if a.sortCompare b = .gt then a else b

/-- Puts the values together with a choice between two; of no values there is none to choose. -/
def choose (better : Value → Value → Value) : List Value → Value
  | [] => .null
  | first :: rest => rest.foldl better first

/-- Adds a value to a sum; what is no number is refused under the name of the aggregate. -/
def addTo (a : Aggregate) (sum value : Value) : Except EvalError Value :=
  if value.isNumber then arithmetic .add sum value
  else .error (.type (.notANumber a.name value.typeName))

/-- The sum of values, from zero. -/
def total (a : Aggregate) (values : List Value) : Except EvalError Value :=
  values.foldlM (addTo a) (.integer 0)

/-- What the aggregate makes of the values. -/
def apply (a : Aggregate) (values : List Value) : Except EvalError Value :=
  match a with
  | .count => .ok (.integer (Int64.ofNat values.length))
  | .min => .ok (choose smaller values)
  | .max => .ok (choose larger values)
  | .sum => if values.isEmpty then .ok .null else total .sum values
  | .avg =>
    if values.isEmpty then .ok .null
    else do arithmetic .divide (← total .avg values) (.integer (Int64.ofNat values.length))

end RecordQuery.Aggregate
