import RecordQuery.Function.Arithmetic
import RecordQuery.Unicode.Casing
/-!
# Functions of values

The functions that see the values of their arguments. Except for `coalesce`, which gives the first
argument that is not null, a null argument gives null; that is decided after the number of arguments
is checked and before their types are.
-/

namespace RecordQuery

/-- The functions of values. -/
inductive ScalarFunction where
  | coalesce
  | abs | ceil | floor | round
  | sqrt | log | log10 | exp | pow
  | upper | lower | length | concat
deriving DecidableEq, Repr

namespace ScalarFunction

/-- The name of a function. -/
def name : ScalarFunction → String
  | coalesce => "coalesce"
  | abs => "abs"
  | ceil => "ceil"
  | floor => "floor"
  | round => "round"
  | sqrt => "sqrt"
  | log => "log"
  | log10 => "log10"
  | exp => "exp"
  | pow => "pow"
  | upper => "upper"
  | lower => "lower"
  | length => "length"
  | concat => "concat"

/-- The function with a name. -/
def ofName? : String → Option ScalarFunction
  | "coalesce" => some coalesce
  | "abs" => some abs
  | "ceil" => some ceil
  | "floor" => some floor
  | "round" => some round
  | "sqrt" => some sqrt
  | "log" => some log
  | "log10" => some log10
  | "exp" => some exp
  | "pow" => some pow
  | "upper" => some upper
  | "lower" => some lower
  | "length" => some length
  | "concat" => some concat
  | _ => none

@[simp]
theorem ofName?_name (f : ScalarFunction) : ofName? f.name = some f := by
  cases f <;> rfl

/-- The fewest and the most arguments a function takes; `none` when every number will do. -/
def arity? : ScalarFunction → Option (Nat × Nat)
  | coalesce => none
  | round => some (1, 2)
  | pow => some (2, 2)
  | concat => some (1, 18446744073709551615)
  | _ => some (1, 1)

/-! ## Numbers as arguments -/

/-- An argument that has to be an exact number. -/
def exactNumber (f : ScalarFunction) (v : Value) : Except EvalError Decimal :=
  match v.toDecimal? with
  | some d => .ok d
  | none => .error (.type (.notANumber f.name v.typeName))

/-- An argument that has to be a number. -/
def anyNumber (f : ScalarFunction) (v : Value) : Except EvalError Float :=
  match v.toFloat? with
  | some x => .ok x
  | none => .error (.type (.notANumber f.name v.typeName))

/-- A function of the binary format applied to an argument. -/
def ofFloatFunction (f : ScalarFunction) (g : Float → Float) (v : Value) : Except EvalError Value :=
  (anyNumber f v).map fun x => .ofFloat (g x)

/-- Rounding to a whole number, where binary and exact numbers have a rule each. -/
def toWhole (f : ScalarFunction) (ofFloat : Float → Float) (ofDecimal : Decimal → Decimal) :
    Value → Except EvalError Value
  | .float x => .ok (.ofFloat (ofFloat x))
  | v => (exactNumber f v).map fun d => .ofDecimal (ofDecimal d)

/-- The magnitude of a number. The one integer whose magnitude does not fit 64 bits becomes a
decimal. -/
def magnitude : Value → Except EvalError Value
  | .integer n =>
    match integer64? n.toInt.natAbs with
    | some m => .ok (.integer m)
    | none => .ok (.decimal (Decimal.ofInt64 n).abs)
  | .float x => .ok (.float x.abs)
  | v => (exactNumber abs v).map fun d => .ofDecimal d.abs

/-! ## Rounding -/

/-- The number of decimal places that `round` is asked for; none is zero. -/
def roundPlaces : Option Value → Except EvalError Nat
  | none => .ok 0
  | some (.integer n) =>
    if 0 ≤ n.toInt ∧ n.toInt < 4294967296 then .ok n.toInt.toNat
    else .error (.type (.digitCount (Value.integer n).display))
  | some v => .error (.type (.digitCount v.display))

/-- Rounds to decimal places, half away from zero. With no places asked for, the result is an integer
where it fits one. A number outside the decimal range has no fraction left or is nearly zero. -/
def roundTo (places : Nat) : Value → Except EvalError Value
  | .float x => .ok (if 1.0 ≤ x.abs then .float x else .integer 0)
  | v =>
    (exactNumber round v).map fun d =>
      if places = 0 then .ofDecimal (d.round 0) else .decimal (d.round places)

/-! ## Powers -/

/-- A whole power of an integer, if it fits 64 bits. The powers of -1, 0 and 1 depend on the exponent
only by whether it is zero or odd, and for any other base an exponent from 64 on is too large. -/
def integerPower? (base : Int) (exponent : Nat) : Option Int64 :=
  if 4294967296 ≤ exponent then none
  else if base.natAbs ≤ 1 then
    integer64? (base.pow (if exponent < 2 then exponent else 2 + exponent % 2))
  else if exponent < 64 then integer64? (base.pow exponent)
  else none

/-- A power: exact for integers where it fits, and otherwise in the binary format. -/
def power (base exponent : Value) : Except EvalError Value :=
  let exact :=
    match base, exponent with
    | .integer b, .integer e => if 0 ≤ e.toInt then integerPower? b.toInt e.toInt.toNat else none
    | _, _ => none
  match exact with
  | some n => .ok (.integer n)
  | none => do
    let x ← anyNumber pow base
    let y ← anyNumber pow exponent
    return .ofFloat (x.pow y)

/-! ## Lengths -/

/-- How many characters, items or fields a value has. -/
def lengthOf : Value → Except EvalError Value
  | .string s => .ok (.integer (Int64.ofNat s.toList.length))
  | .array items => .ok (.integer (Int64.ofNat items.length))
  | .object fields => .ok (.integer (Int64.ofNat fields.length))
  | v => .error (.type (.noLength v.typeName))

/-! ## Calls -/

/-- Applies a function to arguments of which none is null and whose number is right. -/
def apply (f : ScalarFunction) (args : List Value) : Except EvalError Value :=
  let first := args.headD .null
  match f with
  | coalesce => .ok first
  | abs => magnitude first
  | ceil => toWhole ceil Float.ceil Decimal.ceil first
  | floor => toWhole floor Float.floor Decimal.floor first
  | round => do roundTo (← roundPlaces args[1]?) first
  | sqrt => ofFloatFunction sqrt Float.sqrt first
  | log => ofFloatFunction log Float.log first
  | log10 => ofFloatFunction log10 Float.log10 first
  | exp => ofFloatFunction exp Float.exp first
  | pow => power first (args[1]?.getD .null)
  | upper => .ok (.string (Unicode.upper first.display))
  | lower => .ok (.string (Unicode.lower first.display))
  | length => lengthOf first
  | concat => .ok (.string (String.join (args.map Value.display)))

/-- The first value that is not null. -/
def firstPresent (args : List Value) : Value :=
  (args.find? fun v => !v.isNull).getD .null

/-- Calls a function. -/
def call (f : ScalarFunction) (args : List Value) : Except EvalError Value :=
  match f.arity? with
  | none => .ok (firstPresent args)
  | some (fewest, most) =>
    if args.length < fewest ∨ most < args.length then
      .error (.type (.argumentCount f.name fewest most args.length))
    else if args.any Value.isNull then .ok .null
    else f.apply args

end ScalarFunction

end RecordQuery
