import RecordQuery.Predicate.Basic
/-!
# Queries

A compiled query: what is selected, from which resources, how these are joined, which rows are kept,
how they are grouped and ordered, and which part of the result is wanted.
-/

namespace RecordQuery

/-- An entry of the select list, with the column name given to it if there is one. -/
structure SelectField where
  expr : Expr
  alias? : Option String

/-- An entry of the order list. -/
structure OrderField where
  expr : Expr
  descending : Bool

/-- The kinds of joins. -/
inductive JoinKind where
  /-- pairs without a match are dropped -/
  | inner
  /-- rows on the left without a match are kept, with the right side absent -/
  | left
  /-- records on the right without a match are kept, with the left side absent -/
  | right
deriving DecidableEq, Repr

/-- The word for a kind of join. -/
def JoinKind.text : JoinKind → String
  | .inner => "INNER"
  | .left => "LEFT"
  | .right => "RIGHT"

/-- A join: the resource that is added, the resource that the condition relates it to, and the
condition. -/
structure Join where
  kind : JoinKind
  left : String
  resource : String
  condition : Predicate

/-- A compiled query. -/
structure Query where
  fields : List SelectField
  /-- the resources whose cross product the rows start from -/
  resources : List String
  joins : List Join
  /-- the condition on rows; without one every row is kept -/
  filter? : Option Predicate
  groupBy : List Expr
  orderBy : List OrderField
  /-- how many rows are skipped -/
  start? : Option Nat
  /-- how many rows are wanted at most -/
  limit? : Option Nat
  /-- how many parameters the query has -/
  placeholders : Nat

namespace SelectField

instance : BEq SelectField := ⟨fun a b => a.expr == b.expr && a.alias? == b.alias?⟩

end SelectField

namespace OrderField

instance : BEq OrderField := ⟨fun a b => a.expr == b.expr && a.descending == b.descending⟩

end OrderField

namespace Join

instance : BEq Join :=
  ⟨fun a b => a.kind == b.kind && a.left == b.left && a.resource == b.resource &&
    a.condition == b.condition⟩

end Join

namespace Query

/-- The resource that comes first. -/
def resource (q : Query) : String :=
  q.resources.headD ""

/-- Every resource that is read, in the order in which they enter the rows. -/
def allResources (q : Query) : List String :=
  q.resources ++ q.joins.map Join.resource

/-- The condition on rows. -/
def predicate (q : Query) : Predicate :=
  q.filter?.getD .always

/-- `q.isGrouped` holds when rows are grouped by expressions. -/
def isGrouped (q : Query) : Bool :=
  !q.groupBy.isEmpty

/-- `q.hasAggregates` holds when the select list or the order calls an aggregate. -/
def hasAggregates (q : Query) : Bool :=
  q.fields.any (·.expr.hasAggregate) || q.orderBy.any (·.expr.hasAggregate)

/-- Equality of queries up to the values of their literals. -/
def beq (a b : Query) : Bool :=
  a.fields == b.fields && a.resources == b.resources && a.joins == b.joins &&
    a.filter? == b.filter? && a.groupBy == b.groupBy && a.orderBy == b.orderBy &&
    a.start? == b.start? && a.limit? == b.limit? && a.placeholders == b.placeholders

instance : BEq Query := ⟨beq⟩

end Query

end RecordQuery
