import RecordQuery.Outline.Basic
import RecordQuery.Query.Basic
/-!
# The outline of a query

How the parts of a compiled query are named and arranged when its structure is shown.
-/

namespace RecordQuery

/-- The outline of a literal. Numbers of the binary format are written without an exponent from
`1e-4` up to `1e16`. -/
def Literal.outline : Literal → Outline
  | .null => .leaf "Null"
  | .integer n => .wrapped "Integer" (.leaf (toString n))
  | .decimal d => .wrapped "Decimal" (.leaf d.render)
  | .float x => .wrapped "Float" (.leaf (Binary64.plain (-4) x))
  | .uuid u => .wrapped "Uuid" (.leaf u.render)
  | .date t => .wrapped "Date" (.leaf t.renderFully)
  | .point p =>
    .wrapped "Point" (.record "Point" [("x", .leaf p.x.render), ("y", .leaf p.y.render)])
  | .string s => .wrapped "String" (.quoted s)

/-- The name of an arithmetic operator. -/
def ArithOp.outline : ArithOp → Outline
  | .add => .leaf "Add"
  | .subtract => .leaf "Subtract"
  | .multiply => .leaf "Multiply"
  | .divide => .leaf "Divide"

/-- The name of a comparison operator. -/
def CompareOp.outline : CompareOp → Outline
  | .equal => .leaf "Equal"
  | .notEqual => .leaf "NotEqual"
  | .distinct => .leaf "Distinct"
  | .greater => .leaf "GreaterThan"
  | .greaterEqual => .leaf "GreaterEqual"
  | .less => .leaf "LessThan"
  | .lessEqual => .leaf "LessEqual"
  | .like => .leaf "Like"
  | .isIn => .leaf "In"

/-- The name of a connective. -/
def LogicOp.outline : LogicOp → Outline
  | .and => .leaf "And"
  | .or => .leaf "Or"

/-- The name of a kind of join. -/
def JoinKind.outline : JoinKind → Outline
  | .inner => .leaf "Inner"
  | .left => .leaf "Left"
  | .right => .leaf "Right"

/-- The outline of a field. -/
def FieldRef.outline (f : FieldRef) : Outline :=
  .record "FieldRef"
    [("resource", Outline.ofOption Outline.quoted f.resource), ("name", Outline.quoted f.name)]

namespace Expr

mutual

/-- The outline of an expression. -/
def outline : Expr → Outline
  | .literal l => .wrapped "Literal" l.outline
  | .field f => .wrapped "Field" f.outline
  | .placeholder index => .wrapped "Placeholder" (.number index)
  | .list items => .wrapped "List" (.list (outlines items))
  | .wildcard => .leaf "Wildcard"
  | .call name args =>
    .record "Function" [("name", Outline.quoted name), ("args", .list (outlines args))]
  | .arith op left right =>
    .record "BinaryOp" [("op", op.outline), ("left", outline left), ("right", outline right)]
termination_by structural e => e

/-- The outlines of a list of expressions. -/
def outlines : List Expr → List Outline
  | [] => []
  | e :: rest => outline e :: outlines rest
termination_by structural es => es

end

end Expr

/-- The outline of a pattern. -/
def Pattern.outline (p : Pattern) : Outline :=
  .wrapped "LikePattern" (Outline.quoted p.source)

/-- The outline of a comparison. -/
def Comparison.outline (c : Comparison) : Outline :=
  .record "Comparator"
    [("left", c.left.outline), ("op", c.op.outline), ("right", c.right.outline),
      ("pattern", Outline.ofOption Pattern.outline c.pattern?)]

/-- The outline of a predicate. -/
def Predicate.outline : Predicate → Outline
  | .always => .leaf "True"
  | .comparison c => .wrapped "Comparator" c.outline
  | .logic op left right =>
    .record "Logical" [("op", op.outline), ("left", left.outline), ("right", right.outline)]

/-- The outline of an entry of the select list. -/
def SelectField.outline (f : SelectField) : Outline :=
  .record "QueryField"
    [("expr", f.expr.outline), ("alias", Outline.ofOption Outline.quoted f.alias?)]

/-- The outline of an entry of the order list. -/
def OrderField.outline (f : OrderField) : Outline :=
  .record "OrderField"
    [("expr", f.expr.outline), ("descending", .leaf (if f.descending then "true" else "false"))]

/-- The outline of a join. -/
def Join.outline (j : Join) : Outline :=
  .record "Join"
    [("kind", j.kind.outline), ("left", Outline.quoted j.left),
      ("resource", Outline.quoted j.resource), ("on", j.condition.outline)]

/-- The outline of a query. -/
def Query.outline (q : Query) : Outline :=
  .record "Query"
    [("fields", .list (q.fields.map SelectField.outline)),
      ("resources", .list (q.resources.map Outline.quoted)),
      ("joins", .list (q.joins.map Join.outline)),
      ("evaluator", Outline.ofOption Predicate.outline q.filter?),
      ("group_by", .list (q.groupBy.map Expr.outline)),
      ("order_by", .list (q.orderBy.map OrderField.outline)),
      ("start", Outline.ofOption Outline.number q.start?),
      ("limit", Outline.ofOption Outline.number q.limit?),
      ("placeholders", .number q.placeholders)]

end RecordQuery
