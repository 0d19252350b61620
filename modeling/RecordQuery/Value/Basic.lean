import RecordQuery.Literal.Reading
import RecordQuery.Decimal.Binary
/-!
# Values

What a record holds and what an expression produces: every literal type, and the shapes that only
records bring (booleans, arrays, objects). An object is the list of its fields in the order of their
keys, each key once; `ofFields` builds one from any list of fields.

A number has up to three forms. Integers and decimals are exact and share the view `toDecimal?`;
every number has the view `toFloat?`. `ofDecimal` and `ofFloat` go back and prefer an integer where
the value is whole.
-/

namespace RecordQuery

/-- A value at run time. -/
inductive Value where
  | null
  | boolean (b : Bool)
  | integer (n : Int64)
  | decimal (d : Decimal)
  /-- a number outside the decimal range -/
  | float (x : Float)
  | uuid (u : Uuid)
  | date (t : Timestamp)
  | point (p : Point)
  | string (s : String)
  | array (items : List Value)
  | object (fields : List (String × Value))

namespace Value

instance : Inhabited Value := ⟨.null⟩

/-- The value of a literal. -/
def ofLiteral : Literal → Value
  | .null => .null
  | .integer n => .integer n
  | .decimal d => .decimal d
  | .float x => .float x
  | .uuid u => .uuid u
  | .date t => .date t
  | .point p => .point p
  | .string s => .string s

/-- The name of the type of a value. -/
def typeName : Value → String
  | .null => "null"
  | .boolean _ => "boolean"
  | .integer _ => "integer"
  | .decimal _ => "decimal"
  | .float _ => "float"
  | .uuid _ => "uuid"
  | .date _ => "date"
  | .point _ => "point"
  | .string _ => "string"
  | .array _ => "array"
  | .object _ => "object"

/-- `v.isNull` holds for the absent value. -/
def isNull : Value → Bool
  | .null => true
  | _ => false

/-- `v.isNumber` holds for the three forms of numbers. -/
def isNumber : Value → Bool
  | .integer _ => true
  | .decimal _ => true
  | .float _ => true
  | _ => false

/-! ## Numbers -/

/-- The exact number that a value is, if it is one. -/
def toDecimal? : Value → Option Decimal
  | .integer n => some (.ofInt64 n)
  | .decimal d => some d
  | _ => none

/-- The binary number nearest to a value that is a number. -/
def toFloat? : Value → Option Float
  | .float x => some x
  | v => v.toDecimal?.map Decimal.toFloat

/-- A decimal as a value: an integer if it is whole and fits one. -/
def ofDecimal (d : Decimal) : Value :=
  if d.isInteger then
    match d.toInt64? with
    | some n => .integer n
    | none => .decimal d
  else .decimal d

/-- A binary number as a value: a decimal or an integer where the decimal range holds it. What is
not finite is no value. -/
def ofFloat (x : Float) : Value :=
  if !Binary64.isFinite x then .null
  else if Literal.exceedsDecimal x then .float x
  else
    match Decimal.ofFloat? x with
    | some d => ofDecimal d
    | none => .float x

/-! ## Objects -/

/-- The fields with one field set: in its place among the keys, in the place of the old one if there
is one. -/
def setField (key : String) (value : Value) : List (String × Value) → List (String × Value)
  | [] => [(key, value)]
  | (k, v) :: rest =>
    if key < k then (key, value) :: (k, v) :: rest
    else if key = k then (key, value) :: rest
    else (k, v) :: setField key value rest

/-- The object with the given fields. Of two fields with one key the later one counts. -/
def ofFields (fields : List (String × Value)) : Value :=
  .object (fields.foldl (fun object (key, value) => setField key value object) [])

/-- The value of a field. -/
def field? (fields : List (String × Value)) (key : String) : Option Value :=
  fields.lookup key

end Value

end RecordQuery
