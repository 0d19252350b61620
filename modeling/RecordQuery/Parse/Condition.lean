import RecordQuery.Parse.Expression
import RecordQuery.Predicate.Eval
/-!
# Reading predicates

A predicate is a chain of terms under `AND` and `OR`, which have one precedence and fold from the left.
A term is a comparison or a predicate in parentheses. What an opening parenthesis begins shows only
later: it may be a predicate, or the first operand of a comparison; so a reader of terms gives either.

A comparison of constants that holds is dropped for the predicate that always holds.
-/

namespace RecordQuery

/-- What stands in parentheses where a predicate may stand. -/
inductive PredicateOrExpr where
  | predicate (p : Predicate)
  | expr (e : Expr)

namespace Reader

/-- The comparison operator of a token. -/
def comparisonOperator? : Token → Option CompareOp
  | .symbol .equal => some .equal
  | .symbol .notEqual => some .notEqual
  | .symbol .distinct => some .distinct
  | .symbol .greater => some .greater
  | .symbol .greaterEqual => some .greaterEqual
  | .symbol .less => some .less
  | .symbol .lessEqual => some .lessEqual
  | .keyword .LIKE => some .like
  | .keyword .IN => some .isIn
  | _ => none

/-- The connective of a token. -/
def connective? : Token → Option LogicOp
  | .keyword .AND => some .and
  | .keyword .OR => some .or
  | _ => none

/-- `endsClause t` holds for the tokens that end a predicate without beginning one. -/
def endsClause : Token → Bool
  | .endOfInput => true
  | .keyword k =>
    match k with
    | .GROUP => true
    | .ORDER => true
    | .START => true
    | .LIMIT => true
    | .WHERE => true
    | .JOIN => true
    | .INNER => true
    | .LEFT => true
    | .RIGHT => true
    | _ => false
  | _ => false

/-- The predicate of a comparison, folded away if it is a constant that holds. -/
def predicateOf (c : Comparison) : Predicate :=
  if c.isConstant && c.constantTruth? == some true then .always else .comparison c

/-- The right side of a comparison: behind `IN` a list may stand in parentheses. -/
def rightSide (fuel : Nat) (op : CompareOp) : Reader Expr := do
  if op == .isIn && (← isAt (.symbol .openParen)) then
    advance
    return .list (← listItems fuel)
  else sum fuel

/-- The rest of a term whose left operand is already there: without an operator, it is only that. -/
def comparisonFrom (fuel : Nat) (left : Expr) : Reader PredicateOrExpr := do
  match comparisonOperator? (← token) with
  | some op =>
    advance
    let right ← rightSide fuel op
    return .predicate (predicateOf ⟨left, op, right⟩)
  | none => return .expr left

/-- The predicate among the two, which is what the grammar asks for here. -/
def asPredicate : PredicateOrExpr → Reader Predicate
  | .predicate p => return p
  | .expr _ => fail .comparisonOperator

mutual

/-- A chain of terms, or an operand. -/
def chain : (fuel : Nat) → Reader PredicateOrExpr
  | 0 => fail .comparison
  | fuel + 1 => do
    match ← term fuel with
    | .predicate first => return .predicate (← chainTail fuel first)
    | .expr e => return .expr e
termination_by structural fuel => fuel

/-- What follows the term `left` in a chain. -/
def chainTail : (fuel : Nat) → (left : Predicate) → Reader Predicate
  | 0, _ => fail .comparison
  | fuel + 1, left => do
    match connective? (← token) with
    | some op =>
      advance
      let right ← asPredicate (← term fuel)
      chainTail fuel (.combine op left right)
    | none => return left
termination_by structural fuel => fuel

/-- A term, or an operand. -/
def term : (fuel : Nat) → Reader PredicateOrExpr
  | 0 => fail .comparison
  | fuel + 1 => do
    if ← accept (.symbol .openParen) then
      let inner ← chain fuel
      expect (.symbol .closeParen)
      match inner with
      | .predicate p => return .predicate p
      | .expr e => comparisonFrom fuel (← sumFrom fuel e)
    else
      let t ← token
      if endsClause t || t == .symbol .closeParen then fail .comparison
      else comparisonFrom fuel (← sum fuel)
termination_by structural fuel => fuel

end

/-- The predicate of a clause, which must not be empty. -/
def clausePredicate (clause : PredicateClause) : Reader Predicate := do
  let c ← get
  if endsClause c.current.token then throw (.emptyPredicate clause c.current.position)
  else asPredicate (← chain c.fuel)

/-- A predicate with nothing behind it. -/
def condition : Reader Predicate := do
  let p ← clausePredicate .condition
  if ← isAt .endOfInput then return p else fail .endOfCondition

end Reader

/-- Compiles a predicate that stands alone. -/
def Predicate.compile (text : String) : Except SyntaxError Predicate :=
  match Cursor.ofText text with
  | .ok c => (Reader.condition.runFrom c).1
  | .error e => .error e

end RecordQuery
