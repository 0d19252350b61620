import RecordQuery.Literal.Basic
/-!
# Expressions

Whatever produces a value: literals, fields, parameters, lists, function calls and arithmetic.
Parameters are numbered from zero in the order in which the text names them. A function is held by
the name it is called with; the names of the aggregates are known here, because a call of one is never
constant and turns a query into one about groups.

Two expressions are equal (`==`) when they are the same tree and their literals have equal values.
-/

namespace RecordQuery

/-- A field name, with the resource it is looked up in if one is written. The name may be a path with
dots. -/
structure FieldRef where
  resource : Option String
  name : String
deriving DecidableEq, Repr

/-- The name by which the record is asked for the field. -/
def FieldRef.qualifiedName (f : FieldRef) : String :=
  match f.resource with
  | some resource => resource ++ "." ++ f.name
  | none => f.name

/-- The arithmetic operators. -/
inductive ArithOp where
  /-- addition of numbers, concatenation of texts -/
  | add
  | subtract
  | multiply
  | divide
deriving DecidableEq, Repr

namespace ArithOp

/-- How tightly an operator binds. -/
def precedence : ArithOp → Nat
  | .add => 1
  | .subtract => 1
  | .multiply => 2
  | .divide => 2

/-- The sign of an operator. -/
def text : ArithOp → String
  | .add => "+"
  | .subtract => "-"
  | .multiply => "*"
  | .divide => "/"

end ArithOp

/-- The functions that consume a whole group of records. -/
inductive Aggregate where
  | count | sum | avg | min | max
deriving DecidableEq, Repr

namespace Aggregate

/-- The name of an aggregate. -/
def name : Aggregate → String
  | .count => "count"
  | .sum => "sum"
  | .avg => "avg"
  | .min => "min"
  | .max => "max"

/-- The aggregate with a name. -/
def ofName? : String → Option Aggregate
  | "count" => some .count
  | "sum" => some .sum
  | "avg" => some .avg
  | "min" => some .min
  | "max" => some .max
  | _ => none

@[simp]
theorem ofName?_name (a : Aggregate) : ofName? a.name = some a := by
  cases a <;> rfl

end Aggregate

/-- `isAggregate name` holds for the names of aggregates. -/
def isAggregate (name : String) : Bool :=
  (Aggregate.ofName? name).isSome

/-- An expression. -/
inductive Expr where
  | literal (l : Literal)
  | field (f : FieldRef)
  /-- a parameter, by its number -/
  | placeholder (index : Nat)
  /-- a list in parentheses, as it stands behind `IN` -/
  | list (items : List Expr)
  /-- the star of the select list and of `count(*)` -/
  | wildcard
  | call (name : String) (args : List Expr)
  | arith (op : ArithOp) (left right : Expr)

namespace Expr

instance : Inhabited Expr := ⟨.wildcard⟩

/-- `e.isArith` holds for arithmetic. -/
def isArith : Expr → Bool
  | .arith .. => true
  | _ => false

/-- `e.isComputed` holds for calls and arithmetic, the nodes whose value is computed. -/
def isComputed : Expr → Bool
  | .call .. => true
  | .arith .. => true
  | _ => false

/-- `e.isWildcard` holds for the star alone. -/
def isWildcard : Expr → Bool
  | .wildcard => true
  | _ => false

mutual

/-- `e.isConstant` holds when the value of `e` depends on no record and no parameter. -/
def isConstant : Expr → Bool
  | .literal _ => true
  | .field _ => false
  | .placeholder _ => false
  | .wildcard => false
  | .list items => areConstant items
  | .call name args => !isAggregate name && areConstant args
  | .arith _ left right => isConstant left && isConstant right
termination_by structural e => e

/-- `areConstant es` holds when all of them are constant. -/
def areConstant : List Expr → Bool
  | [] => true
  | e :: rest => isConstant e && areConstant rest
termination_by structural es => es

end

mutual

/-- `e.hasPlaceholder` holds when a parameter occurs in `e`. -/
def hasPlaceholder : Expr → Bool
  | .placeholder _ => true
  | .literal _ => false
  | .field _ => false
  | .wildcard => false
  | .list items => anyPlaceholder items
  | .call _ args => anyPlaceholder args
  | .arith _ left right => hasPlaceholder left || hasPlaceholder right
termination_by structural e => e

/-- `anyPlaceholder es` holds when a parameter occurs in one of them. -/
def anyPlaceholder : List Expr → Bool
  | [] => false
  | e :: rest => hasPlaceholder e || anyPlaceholder rest
termination_by structural es => es

end

mutual

/-- `e.hasAggregate` holds when an aggregate is called in `e`. -/
def hasAggregate : Expr → Bool
  | .call name args => isAggregate name || anyAggregate args
  | .list items => anyAggregate items
  | .arith _ left right => hasAggregate left || hasAggregate right
  | .literal _ => false
  | .field _ => false
  | .placeholder _ => false
  | .wildcard => false
termination_by structural e => e

/-- `anyAggregate es` holds when an aggregate is called in one of them. -/
def anyAggregate : List Expr → Bool
  | [] => false
  | e :: rest => hasAggregate e || anyAggregate rest
termination_by structural es => es

end

mutual

/-- The fields that occur in an expression, from left to right. -/
def fields : Expr → List FieldRef
  | .field f => [f]
  | .list items => fieldsOfAll items
  | .call _ args => fieldsOfAll args
  | .arith _ left right => fields left ++ fields right
  | .literal _ => []
  | .placeholder _ => []
  | .wildcard => []
termination_by structural e => e

/-- The fields that occur in a list of expressions, from left to right. -/
def fieldsOfAll : List Expr → List FieldRef
  | [] => []
  | e :: rest => fields e ++ fieldsOfAll rest
termination_by structural es => es

end

mutual

/-- Equality of expressions up to the values of their literals. -/
def beq : Expr → Expr → Bool
  | .literal a, .literal b => a == b
  | .field a, .field b => a == b
  | .placeholder a, .placeholder b => a == b
  | .list a, .list b => beqAll a b
  | .wildcard, .wildcard => true
  | .call name args, .call name' args' => name == name' && beqAll args args'
  | .arith op l r, .arith op' l' r' => op == op' && beq l l' && beq r r'
  | _, _ => false
termination_by structural e => e

/-- Equality of lists of expressions, item by item. -/
def beqAll : List Expr → List Expr → Bool
  | [], [] => true
  | a :: as, b :: bs => beq a b && beqAll as bs
  | _, _ => false
termination_by structural es => es

end

instance : BEq Expr := ⟨beq⟩

end Expr

end RecordQuery
