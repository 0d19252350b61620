import RecordQuery.EvalError
import RecordQuery.Value.Basic
import RecordQuery.Name
/-!
# Reading records

The engine never looks into a record: it asks an `Accessor` for a field by name and for the names of
all fields. A field that a record does not have is null; an error means that the record could not be
read.

Two accessors are given here. `ofObjects` reads records that are values, mostly decoded documents.
`GetterTable.accessor` reads records of any type through a table of named getters.
-/

namespace RecordQuery

/-- How records of type `R` are read. -/
structure Accessor (R : Type) where
  /-- the value of a field, whose name may be qualified or a path -/
  get : R → String → Except EvalError Value
  /-- the names of the fields that a record has -/
  fieldNames : R → List String

/-! ## Records that are values -/

namespace Value

/-- One step into a value: a field of an object, or an item of an array by its number. -/
def step? (v : Value) (segment : String) : Option Value :=
  match v with
  | .object fields => field? fields segment
  | .array items => (Digits.unsigned? segment.toList).bind fun n => items[n]?
  | _ => none

/-- Follows a path into a value. -/
def walk? (v : Value) (path : List String) : Option Value :=
  path.foldlM step? v

/-- Looks a name up in an object, first as a key and then as a path. -/
def lookup? (record : Value) (name : String) : Option Value :=
  match record with
  | .object fields =>
    match field? fields name with
    | some v => some v
    | none => if Name.hasDot name then record.walk? (Name.segments name) else none
  | _ => none

/-- Looks a name up as it is and then without the part before its first dot; a name that is not
found is null. -/
def readField (record : Value) (name : String) : Value :=
  match record.lookup? name with
  | some v => v
  | none =>
    match Name.splitQualifier? name with
    | some (_, rest) => (record.lookup? rest).getD .null
    | none => .null

/-- The keys of an object, in order; other values have none. -/
def fieldNames : Value → List String
  | .object fields => fields.map Prod.fst
  | _ => []

end Value

/-- Reads records that are values. It never fails. -/
def Accessor.ofObjects : Accessor Value where
  get record name := .ok (record.readField name)
  fieldNames := Value.fieldNames

/-! ## Records with named getters -/

/-- The fields that a type of records publishes, each with the function that reads it. -/
abbrev GetterTable (R : Type) := List (String × (R → Value))

namespace GetterTable

variable {R : Type}

/-- The getter of a name: the first that is named exactly so, and otherwise the first that is named so
but for the case of letters. -/
def find? (table : GetterTable R) (name : String) : Option (R → Value) :=
  match List.find? (fun (n, _) => n == name) table with
  | some (_, getter) => some getter
  | none => (List.find? (fun (n, _) => Name.same n name) table).map Prod.snd

/-- Reads a field through the table; a qualified name falls back to the part behind its first dot, and
a name that is not found is null. -/
def read (table : GetterTable R) (record : R) (name : String) : Value :=
  match table.find? name with
  | some getter => getter record
  | none =>
    match Name.splitQualifier? name with
    | some (_, rest) =>
      match table.find? rest with
      | some getter => getter record
      | none => .null
    | none => .null

/-- Reads records through a table. It never fails, and the names are those of the table. -/
def accessor (table : GetterTable R) : Accessor R where
  get record name := .ok (table.read record name)
  fieldNames _ := table.map Prod.fst

end GetterTable

end RecordQuery
