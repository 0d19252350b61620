import RecordQuery.Predicate.Basic
import RecordQuery.Expr.Text
/-!
# Text of predicates

The canonical text of a predicate. A chain of connectives folds from the left, whichever connectives
they are, so only a connective on the right of another one stands in parentheses.
-/

namespace RecordQuery

/-- The canonical text of a comparison. -/
def Comparison.render (c : Comparison) : String :=
  c.left.render ++ " " ++ c.op.text ++ " " ++ c.right.render

/-- The canonical text of a predicate. What always holds is written as a comparison that does. -/
def Predicate.render : Predicate → String
  | .always => "1 = 1"
  | .comparison c => c.render
  | .logic op left right =>
    left.render ++ " " ++ op.text ++ " " ++ Expr.parenthesized right.isLogic right.render

end RecordQuery
