import RecordQuery.Parse.Query
import RecordQuery.Query.Text
import RecordQuery.Outline.Query
import RecordQuery.Execute.Result
import RecordQuery.Json.Reading
import RecordQuery.Value.Json
/-!
# The commands

The two commands that a user has: `compile` shows a query in its canonical form or as an outline, and
`run` runs one over records and parameters given as JSON documents. Faults are looked for in a fixed
order: first the query, then the records, then the parameters, then the run.
-/

namespace RecordQuery

/-- A well-formed document of the wrong shape. -/
inductive InputFault where
  | notAnObject
  /-- a resource whose records are no array -/
  | recordsNotAnArray (resource : String)
  | paramsNotAnArray
deriving DecidableEq, Repr

/-- The wording of a fault. -/
def InputFault.message : InputFault → String
  | .notAnObject => "expected an object mapping resource names to arrays of records"
  | .recordsNotAnArray resource => "resource '" ++ resource ++ "' must be an array of records"
  | .paramsNotAnArray => "parameters must be a JSON array"

/-- Why a command fails. -/
inductive CommandError where
  | query (e : SyntaxError)
  | run (e : RunError)
  /-- a text that is no JSON document -/
  | malformedJson
  | invalidInput (fault : InputFault)
  | noInput
deriving DecidableEq, Repr

/-- The wording of an error. -/
def CommandError.message : CommandError → String
  | .query e => e.message
  | .run e => e.message
  | .malformedJson => "Invalid JSON"
  | .invalidInput fault => "Invalid input: " ++ fault.message
  | .noInput => "No input provided. Use --input or pipe JSON to stdin."

namespace Command

/-- Shows a query: its canonical text, or its outline. -/
def compile (query : String) (tree : Bool) : Except CommandError String := do
  let q ← (Query.compile query).mapError .query
  return if tree then q.outline.render else q.render

/-- What `run` is given. -/
structure RunOptions where
  query : String
  /-- an object that maps resource names to arrays of records -/
  input? : Option String
  /-- an array of parameters -/
  params? : Option String
  settings : Settings

/-- Reads a text as a document. -/
def document (text : String) : Except CommandError Json :=
  match Json.read? text with
  | some j => .ok j
  | none => .error .malformedJson

/-- The records of each resource that a document gives. -/
def resources : List (String × Json) → Except CommandError (List (String × List Value))
  | [] => .ok []
  | (name, .array items) :: rest => do return (name, Value.ofJsonItems items) :: (← resources rest)
  | (name, _) :: _ => .error (.invalidInput (.recordsNotAnArray name))

/-- The source that a document gives. -/
def source : Json → Except CommandError (Source Value)
  | .object fields => do
    let resources ← resources fields
    return fun name => resources.lookup name
  | _ => .error (.invalidInput .notAnObject)

/-- The parameters that a document gives. -/
def params : Json → Except CommandError (List Value)
  | .array items => .ok (Value.ofJsonItems items)
  | _ => .error (.invalidInput .paramsNotAnArray)

/-- A row of a result as a document. Of two columns with one name, the later value stands in the place
of the earlier one. -/
def rowToJson (row : ResultRow) : Json :=
  .ofFields (Value.toJsonFields row.columns)

/-- The rows of a result as a document. -/
def rowsToJson (rows : List ResultRow) : Json :=
  .array (rows.map rowToJson)

/-- Runs a query over the records of a document. -/
def run (options : RunOptions) : Except CommandError (List ResultRow) := do
  let q ← (Query.compile options.query).mapError .query
  match options.input? with
  | none => throw .noInput
  | some input =>
    let source ← source (← document input)
    let params ←
      match options.params? with
      | some text => params (← document text)
      | none => pure []
    (q.run source .ofObjects params options.settings).mapError .run

end Command

end RecordQuery
