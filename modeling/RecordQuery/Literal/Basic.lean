import RecordQuery.Decimal.Basic
import RecordQuery.Binary64.Text
import RecordQuery.Literal.Timestamp
import RecordQuery.Literal.Uuid
import RecordQuery.Literal.Point
/-!
# Literals

The typed constants of a query, and their canonical text. The text of each literal keeps its type
when it is read again: a decimal always shows a point, and timestamps, points and strings stand in
quotes.
-/

namespace RecordQuery

/-- A typed constant of a query. -/
inductive Literal where
  | null
  | integer (n : Int64)
  | decimal (d : Decimal)
  /-- a number outside the decimal range -/
  | float (x : Float)
  | uuid (u : Uuid)
  | date (t : Timestamp)
  | point (p : Point)
  | string (s : String)

namespace Literal

/-- The name of the type of a literal. -/
def typeName : Literal → String
  | .null => "null"
  | .integer _ => "integer"
  | .decimal _ => "decimal"
  | .float _ => "float"
  | .uuid _ => "uuid"
  | .date _ => "date"
  | .point _ => "point"
  | .string _ => "string"

/-- Literals are equal when they have one type and one value; the scale of a decimal does not
count, and what is not a number equals nothing. -/
def beq : Literal → Literal → Bool
  | .null, .null => true
  | .integer a, .integer b => a == b
  | .decimal a, .decimal b => a.sameValue b
  | .float a, .float b => Binary64.sameValue a b
  | .uuid a, .uuid b => a == b
  | .date a, .date b => a == b
  | .point a, .point b => a.sameValue b
  | .string a, .string b => a == b
  | _, _ => false

instance : BEq Literal := ⟨beq⟩

/-- Writes every quote twice. -/
def doubleQuotes : List Char → List Char
  | [] => []
  | c :: rest => if c = '\'' then '\'' :: '\'' :: doubleQuotes rest else c :: doubleQuotes rest

/-- A text in single quotes. -/
def quoted (text : String) : String :=
  "'" ++ String.ofList (doubleQuotes text.toList) ++ "'"

/-- The text of a decimal as a literal: a whole number shows one decimal place. -/
def decimalText (d : Decimal) : String :=
  if d.scale = 0 then d.render ++ ".0" else d.render

/-- The text of a binary number as a literal. An infinity is written as a numeral that is too
large for the format, so that it reads back as itself. -/
def floatText (x : Float) : String :=
  if Binary64.isInfinite x then
    if Binary64.isNegative x then "-1E999" else "1E999"
  else Binary64.scientific x

/-- The canonical text of a literal. -/
def render : Literal → String
  | .null => "NULL"
  | .integer n => toString n
  | .decimal d => decimalText d
  | .float x => floatText x
  | .uuid u => u.render
  | .date t => "'" ++ t.render ++ "'"
  | .point p => "'" ++ p.render ++ "'"
  | .string s => quoted s

end Literal

end RecordQuery
