import RecordQuery.Expr.Basic
import RecordQuery.Value.Text
import RecordQuery.Pattern
/-!
# Predicates

A predicate is a tree of comparisons under `AND` and `OR`, or the predicate that always holds.
`combine` puts two together and folds away what always holds, but never drops a part with a
parameter in it: then the parameters would no longer be numbered in the order of the text.
-/

namespace RecordQuery

/-- The comparison operators. The two spellings of "not equal" are kept apart, so that a query is
written with the one its author chose. -/
inductive CompareOp where
  | equal | notEqual | distinct | greater | greaterEqual | less | lessEqual | like | isIn
deriving DecidableEq, Repr

namespace CompareOp

/-- The spelling of an operator. -/
def text : CompareOp → String
  | .equal => "="
  | .notEqual => "!="
  | .distinct => "<>"
  | .greater => ">"
  | .greaterEqual => ">="
  | .less => "<"
  | .lessEqual => "<="
  | .like => "LIKE"
  | .isIn => "IN"

/-- Every operator. -/
def all : List CompareOp :=
  [equal, notEqual, distinct, greater, greaterEqual, less, lessEqual, like, isIn]

theorem mem_all (op : CompareOp) : op ∈ all := by
  cases op <;> decide

end CompareOp

/-- The connectives. -/
inductive LogicOp where
  | and
  | or
deriving DecidableEq, Repr

/-- The spelling of a connective. -/
def LogicOp.text : LogicOp → String
  | .and => "AND"
  | .or => "OR"

/-- Two expressions and what is claimed of them. -/
structure Comparison where
  left : Expr
  op : CompareOp
  right : Expr

namespace Comparison

/-- The pattern of a `LIKE` against a literal, which does not wait for a record. -/
def pattern? (c : Comparison) : Option Pattern :=
  match c.op, c.right with
  | .like, .literal l => Pattern.ofText? (Value.ofLiteral l).display
  | _, _ => none

/-- The fields on both sides, from left to right. -/
def fields (c : Comparison) : List FieldRef :=
  c.left.fields ++ c.right.fields

/-- `c.isConstant` holds when neither side depends on a record or a parameter. -/
def isConstant (c : Comparison) : Bool :=
  c.left.isConstant && c.right.isConstant

/-- `c.hasPlaceholder` holds when a parameter occurs on one side. -/
def hasPlaceholder (c : Comparison) : Bool :=
  c.left.hasPlaceholder || c.right.hasPlaceholder

/-- Comparisons are equal when their sides are and their patterns have one text. -/
def beq (a b : Comparison) : Bool :=
  a.left == b.left && a.op == b.op && a.right == b.right &&
    a.pattern?.map (·.source) == b.pattern?.map (·.source)

instance : BEq Comparison := ⟨beq⟩

end Comparison

/-- A condition on records. -/
inductive Predicate where
  /-- the condition that always holds -/
  | always
  | comparison (c : Comparison)
  | logic (op : LogicOp) (left right : Predicate)

namespace Predicate

instance : Inhabited Predicate := ⟨.always⟩

/-- The comparisons of a predicate, from left to right. -/
def comparisons : Predicate → List Comparison
  | .always => []
  | .comparison c => [c]
  | .logic _ left right => left.comparisons ++ right.comparisons

/-- `p.hasPlaceholders` holds when a parameter occurs in `p`. -/
def hasPlaceholders (p : Predicate) : Bool :=
  p.comparisons.any Comparison.hasPlaceholder

/-- The fields of a predicate, from left to right. -/
def fields (p : Predicate) : List FieldRef :=
  p.comparisons.flatMap Comparison.fields

/-- `p.isAlways` holds for the predicate that always holds. -/
def isAlways : Predicate → Bool
  | .always => true
  | _ => false

/-- `p.isLogic` holds for a conjunction or a disjunction. -/
def isLogic : Predicate → Bool
  | .logic .. => true
  | _ => false

/-- Puts two predicates together. What always holds is dropped from a conjunction, and takes the place
of a disjunction whose other side has no parameters. -/
def combine : LogicOp → Predicate → Predicate → Predicate
  | .and, .always, other => other
  | .and, other, .always => other
  | .or, left, right =>
    if left.isAlways && !right.hasPlaceholders then .always
    else if right.isAlways && !left.hasPlaceholders then .always
    else .logic .or left right
  | .and, left, right => .logic .and left right

/-- Equality of predicates up to the values of their literals. -/
def beq : Predicate → Predicate → Bool
  | .always, .always => true
  | .comparison a, .comparison b => a == b
  | .logic op l r, .logic op' l' r' => op == op' && beq l l' && beq r r'
  | _, _ => false

instance : BEq Predicate := ⟨beq⟩

end Predicate

end RecordQuery
