import RecordQuery.Json.Basic
/-!
# Writing JSON

`compact` writes a document on one line without spaces, `indented` with one item a line and two
spaces a level. Text outside ASCII is written as it is.
-/

namespace RecordQuery.Json

/-- A hexadecimal digit. -/
def hexDigit (n : Nat) : Char :=
  Nat.digitChar (n % 16)

/-- A character inside quotes. -/
def escape (c : Char) : List Char :=
  if c = '"' then ['\\', '"']
  else if c = '\\' then ['\\', '\\']
  else if c = '\n' then ['\\', 'n']
  else if c = '\r' then ['\\', 'r']
  else if c = '\t' then ['\\', 't']
  else if c = '\x08' then ['\\', 'b']
  else if c = '\x0c' then ['\\', 'f']
  else if c.toNat < 32 then ['\\', 'u', '0', '0', hexDigit (c.toNat / 16), hexDigit c.toNat]
  else [c]

/-- A text in quotes. -/
def quoted (s : String) : String :=
  "\"" ++ String.ofList (s.toList.flatMap escape) ++ "\""

/-- A number of the binary format. What JSON has no number for is null. -/
def floatText (x : Float) : String :=
  if Binary64.isFinite x then Binary64.plain (-5) x else "null"

mutual

/-- The document on one line. -/
def compact : Json → String
  | .null => "null"
  | .boolean b => if b then "true" else "false"
  | .integer n => toString n
  | .float x => floatText x
  | .string s => quoted s
  | .array items => "[" ++ String.intercalate "," (compactItems items) ++ "]"
  | .object fields => "\x7b" ++ String.intercalate "," (compactFields fields) ++ "\x7d"
termination_by structural j => j

/-- The items of an array, each on one line. -/
def compactItems : List Json → List String
  | [] => []
  | j :: rest => compact j :: compactItems rest
termination_by structural js => js

/-- The fields of an object, each on one line. -/
def compactFields : List (String × Json) → List String
  | [] => []
  | (k, j) :: rest => (quoted k ++ ":" ++ compact j) :: compactFields rest
termination_by structural fs => fs

end

/-- Items between two signs, one a line and indented below `margin`. -/
def block (margin opening closing : String) (items : List String) : String :=
  if items.isEmpty then opening ++ closing
  else
    opening ++ "\n" ++ String.intercalate ",\n" (items.map ((margin ++ "  ") ++ ·)) ++ "\n" ++
      margin ++ closing

mutual

/-- The document over several lines; lines after the first start with `margin`. -/
def indented (margin : String) : Json → String
  | .null => "null"
  | .boolean b => if b then "true" else "false"
  | .integer n => toString n
  | .float x => floatText x
  | .string s => quoted s
  | .array items => block margin "[" "]" (indentedItems (margin ++ "  ") items)
  | .object fields => block margin "\x7b" "\x7d" (indentedFields (margin ++ "  ") fields)
termination_by structural j => j

/-- The items of an array over several lines. -/
def indentedItems (margin : String) : List Json → List String
  | [] => []
  | j :: rest => indented margin j :: indentedItems margin rest
termination_by structural js => js

/-- The fields of an object over several lines. -/
def indentedFields (margin : String) : List (String × Json) → List String
  | [] => []
  | (k, j) :: rest => (quoted k ++ ": " ++ indented margin j) :: indentedFields margin rest
termination_by structural fs => fs

end

end RecordQuery.Json
