import RecordQuery.Value.Basic
/-!
# Text of values

`display` is the text of a value wherever one is shown or concatenated. `groupKey` is the text by
which rows are put into groups: it carries the type, except that numbers of one value share a key
whatever their form and scale.
-/

namespace RecordQuery.Value

/-- The text of a list: its items between brackets. -/
def bracketed (items : List String) : String :=
  "[" ++ String.intercalate ", " items ++ "]"

/-- The text of an object: its fields between braces. -/
def braced (fields : List String) : String :=
  "\x7b" ++ String.intercalate ", " fields ++ "\x7d"

mutual

/-- The text of a value. -/
def display : Value → String
  | .null => "null"
  | .boolean b => if b then "true" else "false"
  | .integer n => toString n
  | .decimal d => d.render
  | .float x => Binary64.scientific x
  | .uuid u => u.render
  | .date t => t.render
  | .point p => p.render
  | .string s => s
  | .array items => bracketed (displayItems items)
  | .object fields => braced (displayFields fields)
termination_by structural v => v

/-- The texts of the items of an array. -/
def displayItems : List Value → List String
  | [] => []
  | v :: rest => display v :: displayItems rest
termination_by structural vs => vs

/-- The texts of the fields of an object. -/
def displayFields : List (String × Value) → List String
  | [] => []
  | (k, v) :: rest => (k ++ ": " ++ display v) :: displayFields rest
termination_by structural fs => fs

end

/-- The key of a number with the given text. -/
def numberKey (text : String) : String :=
  "n:" ++ text

mutual

/-- The text that equal values have in common when rows are put into groups. -/
def groupKey : Value → String
  | .integer n => numberKey (Decimal.ofInt64 n).normalize.render
  | .decimal d => numberKey d.normalize.render
  | .float x => numberKey (Binary64.scientific x)
  | .array items => "a:[" ++ String.intercalate "," (groupKeyItems items) ++ "]"
  | .object fields => "o:\x7b" ++ String.intercalate "," (groupKeyFields fields) ++ "\x7d"
  | .null => "null:null"
  | .boolean b => "boolean:" ++ if b then "true" else "false"
  | .uuid u => "uuid:" ++ u.render
  | .date t => "date:" ++ t.render
  | .point p => "point:" ++ p.render
  | .string s => "string:" ++ s
termination_by structural v => v

/-- The keys of the items of an array. -/
def groupKeyItems : List Value → List String
  | [] => []
  | v :: rest => groupKey v :: groupKeyItems rest
termination_by structural vs => vs

/-- The keys of the fields of an object. -/
def groupKeyFields : List (String × Value) → List String
  | [] => []
  | (k, v) :: rest => (k ++ "=" ++ groupKey v) :: groupKeyFields rest
termination_by structural fs => fs

end

/-- Outside numbers and collections, the key is the type and the text. -/
theorem groupKey_eq_of_scalar {v : Value} (number : v.isNumber = false)
    (array : ∀ items, v ≠ .array items) (object : ∀ fields, v ≠ .object fields) :
    groupKey v = v.typeName ++ ":" ++ display v := by
  cases v with
  | null => decide
  | boolean b => cases b <;> decide
  | integer => simp [isNumber] at number
  | decimal => simp [isNumber] at number
  | float => simp [isNumber] at number
  | array items => exact absurd rfl (array items)
  | object fields => exact absurd rfl (object fields)
  | uuid u => simp [groupKey, typeName, display]
  | date t => simp [groupKey, typeName, display]
  | point p => simp [groupKey, typeName, display]
  | string s => simp [groupKey, typeName, display]

end RecordQuery.Value
