import RecordQuery.Record.Accessor
/-!
# Rows over several resources

While a query runs, a row has one slot for each resource that has entered it, in that order. A slot
holds a record of its resource, or nothing on the absent side of an outer join.

A field that is qualified by one of the resources is read from its slot. Any other field is read from
the one slot if there is only one; among several, it belongs to the resource in which it is not null,
and what happens when there is more than one of those is the caller's choice.
-/

namespace RecordQuery

/-- A resource in a row, with its record if there is one. -/
structure Slot (R : Type) where
  resource : String
  record? : Option R

/-- A row over several resources. -/
abbrev CompositeRow (R : Type) := List (Slot R)

/-- How a field without resource is resolved where several resources have it. -/
inductive FieldResolution where
  /-- the row is refused -/
  | reject
  /-- the resource that entered first has it -/
  | firstResource
deriving DecidableEq, Repr

namespace CompositeRow

variable {R : Type}

/-- The row with one more slot. -/
def extend (row : CompositeRow R) (resource : String) (record? : Option R) : CompositeRow R :=
  row ++ [⟨resource, record?⟩]

/-- The slot of a resource. -/
def slot? (row : CompositeRow R) (resource : String) : Option (Slot R) :=
  row.find? fun s => Name.same s.resource resource

/-- The slot that qualifies a field, and the field's name within it. -/
def qualifiedSlot? (row : CompositeRow R) (field : String) : Option (Slot R × String) :=
  match Name.splitQualifier? field with
  | some (qualifier, rest) => (row.slot? qualifier).map fun s => (s, rest)
  | none => none

end CompositeRow

namespace Slot

variable {R : Type}

/-- Reads a field of the slot's record; where there is no record every field is null. -/
def read (accessor : Accessor R) (slot : Slot R) (field : String) : Except EvalError Value :=
  match slot.record? with
  | some record => accessor.get record field
  | none => .ok .null

/-- The field names of the slot's record. -/
def fieldNames (accessor : Accessor R) (slot : Slot R) : List String :=
  match slot.record? with
  | some record => accessor.fieldNames record
  | none => []

end Slot

namespace CompositeRow

variable {R : Type}

/-- The resources in which a field is not null, with its values. -/
def present (accessor : Accessor R) (field : String) :
    CompositeRow R → Except EvalError (List (String × Value))
  | [] => .ok []
  | slot :: rest => do
    let v ← slot.read accessor field
    let others ← present accessor field rest
    return if v.isNull then others else (slot.resource, v) :: others

/-- The value of a field in the first resource in which it is not null; those behind it are not
read. -/
def firstPresent (accessor : Accessor R) (field : String) : CompositeRow R → Except EvalError Value
  | [] => .ok .null
  | slot :: rest => do
    let v ← slot.read accessor field
    if v.isNull then firstPresent accessor field rest else return v

/-- The value of a field that only one resource may have. -/
def onlyPresent (accessor : Accessor R) (field : String) (row : CompositeRow R) :
    Except EvalError Value := do
  match ← present accessor field row with
  | [] => return .null
  | [(_, v)] => return v
  | several => throw (.ambiguousField field (several.map Prod.fst))

/-- The value of a field without resource in a row of several slots. -/
def readUnqualified (accessor : Accessor R) (resolution : FieldResolution) (field : String)
    (row : CompositeRow R) : Except EvalError Value :=
  match resolution with
  | .reject => row.onlyPresent accessor field
  | .firstResource => row.firstPresent accessor field

/-- The value of a field. -/
def read (accessor : Accessor R) (resolution : FieldResolution) (row : CompositeRow R)
    (field : String) : Except EvalError Value :=
  match row.qualifiedSlot? field with
  | some (slot, rest) => slot.read accessor rest
  | none =>
    match row with
    | [slot] => slot.read accessor field
    | row => row.readUnqualified accessor resolution field

/-- The field names of a row. Those of a row of several slots are qualified. -/
def fieldNames (accessor : Accessor R) : CompositeRow R → List String
  | [slot] => slot.fieldNames accessor
  | row => row.flatMap fun slot => (slot.fieldNames accessor).map ((slot.resource ++ ".") ++ ·)

end CompositeRow

/-- Reads rows over several resources by means of an accessor for their records. -/
def Accessor.composite {R : Type} (accessor : Accessor R) (resolution : FieldResolution) :
    Accessor (CompositeRow R) where
  get := CompositeRow.read accessor resolution
  fieldNames := CompositeRow.fieldNames accessor

end RecordQuery
