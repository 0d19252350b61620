import RecordQuery.Record.Composite
import RecordQuery.Predicate.Eval
import RecordQuery.Query.Basic
/-!
# The rows that a query is about

From the resources of a query to the rows that its condition keeps: the cross product of the resources
first, then one join after the other, then the condition. Records and rows keep their order throughout.
Where a predicate cannot be evaluated, the error either ends the run or counts as not satisfied.
-/

namespace RecordQuery

/-- What happens when a predicate cannot be evaluated on a row. -/
inductive ErrorPolicy where
  /-- the run ends with the error -/
  | abort
  /-- the row does not satisfy the predicate -/
  | skipRecord
deriving DecidableEq, Repr

/-- The choices that a caller makes for a run. -/
structure Settings where
  resolution : FieldResolution
  onError : ErrorPolicy
deriving DecidableEq, Repr

/-- Fields that several resources have are refused, and errors end the run. -/
def Settings.default : Settings :=
  ⟨.reject, .abort⟩

/-- The records of each resource that there is. -/
abbrev Source (R : Type) := String → Option (List R)

/-- Why a query has no result. -/
inductive RunError where
  | evaluation (e : EvalError)
  | unknownResource (name : String)
deriving DecidableEq, Repr

/-- The wording of an error. -/
def RunError.message : RunError → String
  | .evaluation e => e.message
  | .unknownResource name => "Unknown resource: " ++ name

namespace Execute

variable {R : Type}

/-- Makes an error of evaluation one of the run. -/
def ofEval {α : Type} (result : Except EvalError α) : Except RunError α :=
  result.mapError .evaluation

/-- The records of a resource, which has to exist. -/
def records (source : Source R) (resource : String) : Except RunError (List R) :=
  match source resource with
  | some records => .ok records
  | none => .error (.unknownResource resource)

/-- Every row with every record. -/
def cross (rows : List (CompositeRow R)) (resource : String) (records : List R) :
    List (CompositeRow R) :=
  rows.flatMap fun row => records.map fun record => row.extend resource (some record)

/-- The cross product of resources, the last of which varies fastest. -/
def crossProduct (source : Source R) (resources : List String) :
    Except RunError (List (CompositeRow R)) :=
  resources.foldlM (fun rows resource => do return cross rows resource (← records source resource))
    [[]]

/-- What the conditions of a query are evaluated with. -/
structure Conditions (R : Type) where
  accessor : Accessor R
  settings : Settings
  params : List Value

/-- The accessor for rows. -/
def Conditions.rowAccessor (c : Conditions R) : Accessor (CompositeRow R) :=
  c.accessor.composite c.settings.resolution

/-- `c.satisfied p row` decides a predicate on a row, under the policy for errors. -/
def Conditions.satisfied (c : Conditions R) (p : Predicate) (row : CompositeRow R) :
    Except EvalError Bool :=
  match p.holds c.rowAccessor c.params row with
  | .ok b => .ok b
  | .error e => if c.settings.onError = .skipRecord then .ok false else .error e

/-! ## Joins -/

/-- For each record, whether it matches a row. -/
def matchesOf (c : Conditions R) (j : Join) (records : List R) (row : CompositeRow R) :
    Except EvalError (List Bool) :=
  records.mapM fun record => c.satisfied j.condition (row.extend j.resource (some record))

/-- The items of a list whose flag is set. -/
def selected {α : Type} (items : List α) (flags : List Bool) : List α :=
  ((items.zip flags).filter Prod.snd).map Prod.fst

/-- The rows that come of one row: one for each match, and for a left join without a match the row with
the right side absent. -/
def joinedRows (j : Join) (records : List R) (row : CompositeRow R) (flags : List Bool) :
    List (CompositeRow R) :=
  if j.kind = .left ∧ flags.all (!·) then [row.extend j.resource none]
  else (selected records flags).map fun record => row.extend j.resource (some record)

/-- For each record, whether it matches no row. -/
def unmatched (records : List R) (flags : List (List Bool)) : List Bool :=
  (flags.foldl (List.zipWith (· || ·)) (records.map fun _ => false)).map (!·)

/-- The rows that a right join adds: the records without a match, with the left side absent. -/
def rightRows (j : Join) (joined : List String) (records : List R) (flags : List (List Bool)) :
    List (CompositeRow R) :=
  (selected records (unmatched records flags)).map fun record =>
    CompositeRow.extend (joined.map fun name => ⟨name, none⟩) j.resource (some record)

/-- Joins rows over the resources `joined` with the records of one more. -/
def joinRows (c : Conditions R) (j : Join) (joined : List String) (records : List R)
    (rows : List (CompositeRow R)) : Except EvalError (List (CompositeRow R)) := do
  let flags ← rows.mapM (matchesOf c j records)
  let pairs := (rows.zip flags).flatMap fun (row, flags) => joinedRows j records row flags
  return if j.kind = .right then pairs ++ rightRows j joined records flags else pairs

/-- Makes the joins, one after the other. -/
def joinAll (c : Conditions R) (source : Source R) :
    (joined : List String) → List Join → List (CompositeRow R) →
      Except RunError (List (CompositeRow R))
  | _, [], rows => .ok rows
  | joined, j :: others, rows => do
    let records ← records source j.resource
    let rows ← ofEval (joinRows c j joined records rows)
    joinAll c source (joined ++ [j.resource]) others rows

/-! ## The condition -/

/-- The rows that satisfy a predicate. -/
def keep (c : Conditions R) (p : Predicate) :
    List (CompositeRow R) → Except EvalError (List (CompositeRow R))
  | [] => .ok []
  | row :: rest => do
    let satisfied ← c.satisfied p row
    let others ← keep c p rest
    return if satisfied then row :: others else others

/-- The rows that a query is about. -/
def rows (c : Conditions R) (source : Source R) (q : Query) :
    Except RunError (List (CompositeRow R)) := do
  let start ← crossProduct source q.resources
  let joined ← joinAll c source q.resources q.joins start
  match q.filter? with
  | some p => ofEval (keep c p joined)
  | none => return joined

end Execute

end RecordQuery
