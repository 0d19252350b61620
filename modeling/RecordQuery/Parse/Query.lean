import RecordQuery.Parse.Condition
import RecordQuery.Query.Basic
/-!
# Reading queries

The clauses of a query in their fixed order. `Query.compile` reads a whole text; the first error ends
the reading.
-/

namespace RecordQuery

namespace Reader

/-- Items with commas between, at least one. -/
def commaList {α : Type} (item : Reader α) : (fuel : Nat) → Reader (List α)
  | 0 => return [← item]
  | fuel + 1 => do
    let first ← item
    if ← accept (.symbol .comma) then
      let others ← commaList item fuel
      return first :: others
    else return [first]

/-- Items with commas between, as many as there are tokens for. -/
def commaSeparated {α : Type} (item : Reader α) : Reader (List α) := do
  commaList item (← get).rest.length

/-- The name given to a column, if there is one. -/
def columnAlias : Reader (Option String) := do
  if ← accept (.keyword .AS) then return some (← name .aliasName) else return none

/-- An entry of the select list. -/
def selectField : Reader SelectField := do
  if ← accept (.symbol .star) then return ⟨.wildcard, none⟩
  else
    let e ← expression
    return ⟨e, ← columnAlias⟩

/-- An entry of the order list. -/
def orderField : Reader OrderField := do
  let e ← expression
  if ← accept (.keyword .DESC) then return ⟨e, true⟩
  else if ← accept (.keyword .ASC) then return ⟨e, false⟩
  else return ⟨e, false⟩

/-- The words that open a join, if there is one. -/
def joinKind : Reader (Option JoinKind) := do
  match ← token with
  | .keyword .JOIN =>
    advance
    return some .inner
  | .keyword .INNER =>
    advance
    expect (.keyword .JOIN)
    return some .inner
  | .keyword .LEFT =>
    advance
    expect (.keyword .JOIN)
    return some .left
  | .keyword .RIGHT =>
    advance
    expect (.keyword .JOIN)
    return some .right
  | _ => return none

/-- The resource that a condition relates to the joined one: the first other resource it names, or
else the given one. -/
def relatedResource (condition : Predicate) (joined first : String) : String :=
  ((condition.fields.filterMap FieldRef.resource).find? (· != joined)).getD first

/-- A join behind its opening words. -/
def join (kind : JoinKind) (first : String) : Reader Join := do
  let resource ← name .joinedResourceName
  expect (.keyword .ON)
  let condition ← clausePredicate .join
  return ⟨kind, relatedResource condition resource first, resource, condition⟩

/-- The joins of a query. -/
def joins (first : String) : (fuel : Nat) → Reader (List Join)
  | 0 => return []
  | fuel + 1 => do
    match ← joinKind with
    | some kind =>
      let j ← join kind first
      let others ← joins first fuel
      return j :: others
    | none => return []

/-- A number of rows: a span of digits that fits 64 bits and that the clause admits. -/
def count (clause : CountClause) : Reader Nat := do
  let c ← get
  let invalid := SyntaxError.invalidNumber clause c.current.token.text c.current.position
  match c.current.token with
  | .span raw =>
    match Digits.natural? raw.toList with
    | some n =>
      if n < 18446744073709551616 && clause.admits n then
        advance
        return n
      else throw invalid
    | none => throw invalid
  | _ => throw invalid

/-- A clause that opens with a keyword and may be missing. -/
def optional {α : Type} (opening : Keyword) (absent : α) (body : Reader α) : Reader α := do
  if ← accept (.keyword opening) then body else return absent

/-- The condition of a query; one that always holds is none. -/
def filterClause : Reader (Option Predicate) := do
  let p ← clausePredicate .filter
  return if p.isAlways then none else some p

/-- A query with nothing behind it. -/
def query : Reader Query := do
  expect (.keyword .SELECT)
  let fields ← commaSeparated selectField
  expect (.keyword .FROM)
  let resources ← commaSeparated (name .resourceName)
  let joins ← joins (resources.headD "") (← get).rest.length
  let filter ← optional .WHERE none filterClause
  let groupBy ← optional .GROUP [] do
    expect (.keyword .BY)
    commaSeparated expression
  let orderBy ← optional .ORDER [] do
    expect (.keyword .BY)
    commaSeparated orderField
  let start ← optional .START none (return some (← count .start))
  let limit ← optional .LIMIT none (return some (← count .limit))
  if ← isAt .endOfInput then
    return {
      fields, resources, joins, groupBy, orderBy
      filter? := filter
      start? := start
      limit? := limit
      placeholders := (← get).placeholders }
  else fail .endOfQuery

end Reader

/-- Compiles the text of a query. -/
def Query.compile (text : String) : Except SyntaxError Query :=
  match Cursor.ofText text with
  | .ok c => (Reader.query.runFrom c).1
  | .error e => .error e

end RecordQuery
