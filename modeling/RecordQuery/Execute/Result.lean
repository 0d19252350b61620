import RecordQuery.Execute.Rows
import RecordQuery.Execute.Sorting
import RecordQuery.Expr.Text
/-!
# The result of a query

From the rows that a query is about to the rows that it gives. Rows are put into groups: by the group
expressions if there are any, all into one group if the query calls an aggregate, and otherwise each
into its own. The groups are ordered, a window is cut out of them, and each group in it gives one row of
named columns.
-/

namespace RecordQuery

/-- A row of a result: named columns in the order of the select list. A name may occur twice. -/
structure ResultRow where
  columns : List (String × Value)

namespace ResultRow

/-- The value of the first column with a name. -/
def get? (row : ResultRow) (name : String) : Option Value :=
  row.columns.lookup name

/-- The names of the columns. -/
def names (row : ResultRow) : List String :=
  row.columns.map Prod.fst

/-- The values of the columns. -/
def values (row : ResultRow) : List Value :=
  row.columns.map Prod.snd

end ResultRow

/-- The rows that are treated as one. -/
abbrev Group (R : Type) := List (CompositeRow R)

namespace Execute

variable {R : Type}

/-- What a group's expressions are evaluated over. -/
def Conditions.contextOf (c : Conditions R) (group : Group R) : Context (CompositeRow R) :=
  ⟨group, c.rowAccessor, c.params⟩

/-! ## Groups -/

/-- The key by which a row is put into a group. -/
def groupKeys (c : Conditions R) (groupBy : List Expr) (row : CompositeRow R) :
    Except EvalError (List String) := do
  return (← Expr.evalAll (c.contextOf [row]) groupBy).map Value.groupKey

/-- Puts a row into the group with its key, or into a new one at the end. -/
def addToGroup (key : List String) (row : CompositeRow R) :
    List (List String × Group R) → List (List String × Group R)
  | [] => [(key, [row])]
  | (k, group) :: rest =>
    if k = key then (k, group ++ [row]) :: rest else (k, group) :: addToGroup key row rest

/-- Rows with equal keys together, the groups in the order of their first rows. -/
def partition (keyed : List (List String × CompositeRow R)) : List (Group R) :=
  (keyed.foldl (fun groups (key, row) => addToGroup key row groups) []).map Prod.snd

/-- The groups of a query. -/
def groups (c : Conditions R) (q : Query) (rows : List (CompositeRow R)) :
    Except EvalError (List (Group R)) :=
  if q.isGrouped then do
    let keys ← rows.mapM (groupKeys c q.groupBy)
    return partition (keys.zip rows)
  else if q.hasAggregates then .ok [rows]
  else .ok (rows.map fun row => [row])

/-! ## Order -/

/-- Compares the keys of two groups: the first pair that differs decides, downwards where its order
field says so. -/
def compareKeys : List OrderField → List Value → List Value → Ordering
  | field :: fields, x :: xs, y :: ys =>
    let ordering := x.sortCompare y
    let ordering := if field.descending then ordering.swap else ordering
    if ordering = .eq then compareKeys fields xs ys else ordering
  | _, _, _ => .eq

/-- The keys by which a group is ordered. -/
def orderKeys (c : Conditions R) (orderBy : List OrderField) (group : Group R) :
    Except EvalError (List Value) :=
  Expr.evalAll (c.contextOf group) (orderBy.map OrderField.expr)

/-- The groups in the order of a query; groups with equal keys keep theirs. -/
def ordered (c : Conditions R) (orderBy : List OrderField) (groups : List (Group R)) :
    Except EvalError (List (Group R)) :=
  if orderBy.isEmpty then .ok groups
  else do
    let keys ← groups.mapM (orderKeys c orderBy)
    let less (a b : List Value × Group R) : Bool := compareKeys orderBy a.1 b.1 == .lt
    return (Sorting.sort less (keys.zip groups)).map Prod.snd

/-- The groups of a query's window. -/
def window (q : Query) (groups : List (Group R)) : List (Group R) :=
  let behind := groups.drop (q.start?.getD 0)
  match q.limit? with
  | some n => behind.take n
  | none => behind

/-! ## Columns -/

/-- Every field of a row, with the row's names for them. -/
def allColumns (c : Conditions R) (row : CompositeRow R) : Except EvalError (List (String × Value)) :=
  (c.rowAccessor.fieldNames row).mapM fun name => do
    return (name, ← c.rowAccessor.get row name)

/-- The columns that an entry of the select list gives. A star stands for every field of the group's
first row; any other entry is one column, named as told or else by its text. -/
def columns (c : Conditions R) (group : Group R) (field : SelectField) :
    Except EvalError (List (String × Value)) :=
  if field.expr.isWildcard then
    match group with
    | row :: _ => allColumns c row
    | [] => .ok []
  else do
    let v ← field.expr.eval (c.contextOf group)
    return [(field.alias?.getD field.expr.render, v)]

/-- The row of a result that a group gives. -/
def project (c : Conditions R) (fields : List SelectField) (group : Group R) :
    Except EvalError ResultRow := do
  return ⟨(← fields.mapM (columns c group)).flatten⟩

end Execute

open Execute in
/-- Runs a query. It needs as many parameters as it names. -/
def Query.run {R : Type} (q : Query) (source : Source R) (accessor : Accessor R)
    (params : List Value) (settings : Settings) : Except RunError (List ResultRow) :=
  if params.length < q.placeholders then .error (.evaluation (.missingParameter params.length))
  else do
    let c : Conditions R := ⟨accessor, settings, params⟩
    let rows ← rows c source q
    let groups ← ofEval (groups c q rows)
    let groups ← ofEval (ordered c q.orderBy groups)
    ofEval ((window q groups).mapM (project c q.fields))

end RecordQuery
