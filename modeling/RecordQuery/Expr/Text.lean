import RecordQuery.Expr.Basic
/-!
# Text of expressions

The canonical text of an expression. Reading it gives the same tree, with no more parentheses than
that takes: arithmetic stands in parentheses where it binds looser than the operator around it, and on
the right side also where it binds equally.
-/

namespace RecordQuery.Expr

/-- Puts a text in parentheses if asked to. -/
def parenthesized (needed : Bool) (text : String) : String :=
  if needed then "(" ++ text ++ ")" else text

/-- `e.bindsLooser than` holds for arithmetic whose operator binds less tightly than `than`. -/
def bindsLooser (than : Nat) : Expr → Bool
  | .arith op _ _ => op.precedence < than
  | _ => false

/-- Texts with a comma between. -/
def commaSeparated (texts : List String) : String :=
  String.intercalate ", " texts

mutual

/-- The canonical text of an expression. -/
def render : Expr → String
  | .literal l => l.render
  | .field f => f.qualifiedName
  | .placeholder _ => "?"
  | .list items => "(" ++ commaSeparated (renderAll items) ++ ")"
  | .wildcard => "*"
  | .call name args => name ++ "(" ++ commaSeparated (renderAll args) ++ ")"
  | .arith op left right =>
    parenthesized (left.bindsLooser op.precedence) (render left) ++ " " ++ op.text ++ " " ++
      parenthesized (right.bindsLooser (op.precedence + 1)) (render right)
termination_by structural e => e

/-- The canonical texts of a list of expressions. -/
def renderAll : List Expr → List String
  | [] => []
  | e :: rest => render e :: renderAll rest
termination_by structural es => es

end

end RecordQuery.Expr
