import RecordQuery.Value.Text
import RecordQuery.Json.Basic
/-!
# Values and JSON

`ofJson` reads a document as a value: an integer stays one, another number is a decimal where the
decimal range holds it, and a text stays a text. `toJson` writes a value as a document: a decimal
goes through the binary format, and identifiers, timestamps and points become their texts.
-/

namespace RecordQuery.Value

/-- A number of a document that is no 64-bit integer. -/
def ofJsonNumber (x : Float) : Value :=
  if Literal.exceedsDecimal x then .float x
  else
    match Decimal.ofFloat? x with
    | some d => .decimal d
    | none => .float x

/-- A binary number as a document; what is not finite has none and becomes null. -/
def floatToJson (x : Float) : Json :=
  if Binary64.isFinite x then .float x else .null

mutual

/-- The value that a document stands for. -/
def ofJson : Json → Value
  | .null => .null
  | .boolean b => .boolean b
  | .integer n => .integer n
  | .float x => ofJsonNumber x
  | .string s => .string s
  | .array items => .array (ofJsonItems items)
  | .object fields => ofFields (ofJsonFields fields)
termination_by structural j => j

/-- The values of the items of an array. -/
def ofJsonItems : List Json → List Value
  | [] => []
  | j :: rest => ofJson j :: ofJsonItems rest
termination_by structural js => js

/-- The values of the fields of an object. -/
def ofJsonFields : List (String × Json) → List (String × Value)
  | [] => []
  | (k, j) :: rest => (k, ofJson j) :: ofJsonFields rest
termination_by structural fs => fs

end

mutual

/-- The document for a value. -/
def toJson : Value → Json
  | .null => .null
  | .boolean b => .boolean b
  | .integer n => .integer n
  | .decimal d => floatToJson d.toFloat
  | .float x => floatToJson x
  | .uuid u => .string u.render
  | .date t => .string t.render
  | .point p => .string p.render
  | .string s => .string s
  | .array items => .array (toJsonItems items)
  | .object fields => .object (toJsonFields fields)
termination_by structural v => v

/-- The documents for the items of an array. -/
def toJsonItems : List Value → List Json
  | [] => []
  | v :: rest => toJson v :: toJsonItems rest
termination_by structural vs => vs

/-- The documents for the fields of an object. -/
def toJsonFields : List (String × Value) → List (String × Json)
  | [] => []
  | (k, v) :: rest => (k, toJson v) :: toJsonFields rest
termination_by structural fs => fs

end

end RecordQuery.Value
