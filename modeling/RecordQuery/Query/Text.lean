import RecordQuery.Query.Basic
import RecordQuery.Predicate.Text
/-!
# Text of queries

The canonical text of a query: its clauses in their fixed order, keywords in upper case, one space
between words. Clauses that a query does not have are left out, and so is a condition that always
holds.
-/

namespace RecordQuery

/-- The canonical text of an entry of the select list. -/
def SelectField.render (f : SelectField) : String :=
  match f.alias? with
  | some name => f.expr.render ++ " AS " ++ name
  | none => f.expr.render

/-- The canonical text of an entry of the order list. -/
def OrderField.render (f : OrderField) : String :=
  if f.descending then f.expr.render ++ " DESC" else f.expr.render

/-- The canonical text of a join. -/
def Join.render (j : Join) : String :=
  j.kind.text ++ " JOIN " ++ j.resource ++ " ON " ++ j.condition.render

namespace Query

/-- A clause made of a list, which is left out when the list is empty. -/
def listClause (words : String) (items : List String) : String :=
  if items.isEmpty then "" else words ++ Expr.commaSeparated items

/-- The condition of a query, if it has one that does not always hold. -/
def filterClause (q : Query) : String :=
  if q.predicate.isAlways then "" else " WHERE " ++ q.predicate.render

/-- A clause made of a number. -/
def countClause (words : String) : Option Nat → String
  | some n => words ++ toString n
  | none => ""

/-- The canonical text of a query. -/
def render (q : Query) : String :=
  "SELECT " ++ Expr.commaSeparated (q.fields.map SelectField.render) ++
    " FROM " ++ Expr.commaSeparated q.resources ++
    String.join (q.joins.map fun j => " " ++ j.render) ++
    q.filterClause ++
    listClause " GROUP BY " (q.groupBy.map Expr.render) ++
    listClause " ORDER BY " (q.orderBy.map OrderField.render) ++
    countClause " START " q.start? ++
    countClause " LIMIT " q.limit?

end Query

end RecordQuery
