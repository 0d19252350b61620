import RecordQuery.Parse.Cursor
import RecordQuery.Expr.Basic
import RecordQuery.Literal.Reading
import RecordQuery.Name
/-!
# Reading expressions

The grammar, loosest level first:

* a sum is a product, then any number of `+` or `-` with a product behind each;
* a product is a factor, then any number of `*` or `/` with a factor behind each;
* a factor is a primary with any number of minus signs in front, each of which subtracts from zero;
* a primary is a literal, a parameter, an expression in parentheses, a field, a call or a point.

Both chains fold from the left. A chain can also be continued from a first operand that is already
there (`sumFrom`), which is what a predicate in parentheses needs when it turns out to be an operand.
-/

namespace RecordQuery.Reader

/-- The arithmetic operator of a token on the level of sums. -/
def sumOperator? : Token → Option ArithOp
  | .symbol .plus => some .add
  | .symbol .minus => some .subtract
  | _ => none

/-- The arithmetic operator of a token on the level of products. -/
def productOperator? : Token → Option ArithOp
  | .symbol .star => some .multiply
  | .symbol .slash => some .divide
  | _ => none

/-- The names behind dots. -/
def dottedNames : (fuel : Nat) → Reader (List String)
  | 0 => fail .fieldName
  | fuel + 1 => do
    if ← accept (.symbol .dot) then
      let segment ← name .fieldName
      let others ← dottedNames fuel
      return segment :: others
    else return []

/-- The field with the given names: the first of several is the resource. -/
def fieldOfNames (first : String) (others : List String) : FieldRef :=
  if others.isEmpty then ⟨none, first⟩ else ⟨some first, String.intercalate "." others⟩

/-- A coordinate of a point: a literal span, with an optional minus sign in front. -/
def coordinate : Reader String := do
  let negative ← accept (.symbol .minus)
  match ← token with
  | .span raw =>
    advance
    return if negative then "-" ++ raw else raw
  | _ => fail .coordinate

/-- A point behind its word, which is written without quotes. The coordinates are read as text, and
whether they are numbers is decided by typing the whole. -/
def point : Reader Expr := do
  let place := (← get).current.position
  expect (.symbol .openParen)
  let x ← coordinate
  let y ← coordinate
  expect (.symbol .closeParen)
  match Literal.ofText ("POINT (" ++ x ++ " " ++ y ++ ")") with
  | .point p => return .literal (.point p)
  | _ => throw (.unexpected .numericCoordinates (x ++ " " ++ y) place)

mutual

/-- A sum. -/
def sum : (fuel : Nat) → Reader Expr
  | 0 => fail .expression
  | fuel + 1 => do
    let first ← product fuel
    sumTail fuel first
termination_by structural fuel => fuel

/-- What follows the operand `left` on the level of sums. -/
def sumTail : (fuel : Nat) → (left : Expr) → Reader Expr
  | 0, _ => fail .expression
  | fuel + 1, left => do
    match sumOperator? (← token) with
    | some op =>
      advance
      let right ← product fuel
      sumTail fuel (.arith op left right)
    | none => return left
termination_by structural fuel => fuel

/-- A product. -/
def product : (fuel : Nat) → Reader Expr
  | 0 => fail .expression
  | fuel + 1 => do
    let first ← factor fuel
    productTail fuel first
termination_by structural fuel => fuel

/-- What follows the operand `left` on the level of products. -/
def productTail : (fuel : Nat) → (left : Expr) → Reader Expr
  | 0, _ => fail .expression
  | fuel + 1, left => do
    match productOperator? (← token) with
    | some op =>
      advance
      let right ← factor fuel
      productTail fuel (.arith op left right)
    | none => return left
termination_by structural fuel => fuel

/-- A primary with minus signs in front. -/
def factor : (fuel : Nat) → Reader Expr
  | 0 => fail .expression
  | fuel + 1 => do
    if ← accept (.symbol .minus) then
      let operand ← factor fuel
      return .arith .subtract (.literal (.integer 0)) operand
    else primary fuel
termination_by structural fuel => fuel

/-- A primary. -/
def primary : (fuel : Nat) → Reader Expr
  | 0 => fail .expression
  | fuel + 1 => do
    match ← takeToken with
    | .span raw =>
      advance
      return .literal (.ofText raw)
    | .quoted text =>
      advance
      return .literal (.ofQuoted text)
    | .keyword .NULL =>
      advance
      return .literal .null
    | .placeholder =>
      advance
      return .placeholder (← newPlaceholder)
    | .symbol .openParen =>
      advance
      let inner ← sum fuel
      expect (.symbol .closeParen)
      return inner
    | .identifier first =>
      advance
      if ← isAt (.symbol .openParen) then
        if Name.same first "point" then point
        else
          advance
          let args ← arguments fuel
          return .call (Name.lower first) args
      else return .field (fieldOfNames first (← dottedNames fuel))
    | t =>
      putBack t
      fail .expression
termination_by structural fuel => fuel

/-- The arguments of a call up to the closing parenthesis. A comma may stand behind the last one. -/
def arguments : (fuel : Nat) → Reader (List Expr)
  | 0 => fail .expression
  | fuel + 1 => do
    if ← accept (.symbol .closeParen) then return []
    else
      let first ← argument fuel
      if !(← isAt (.symbol .closeParen)) then expect (.symbol .comma)
      let others ← arguments fuel
      return first :: others
termination_by structural fuel => fuel

/-- An argument of a call: a star or an expression. -/
def argument : (fuel : Nat) → Reader Expr
  | 0 => fail .expression
  | fuel + 1 => do
    if ← accept (.symbol .star) then return .wildcard else sum fuel
termination_by structural fuel => fuel

end

/-- The rest of an expression whose first operand is already there. -/
def sumFrom (fuel : Nat) (first : Expr) : Reader Expr := do
  let left ← productTail fuel first
  sumTail fuel left

/-- The items of a list up to the closing parenthesis. A comma may stand behind the last one. -/
def listItems : (fuel : Nat) → Reader (List Expr)
  | 0 => fail .expression
  | fuel + 1 => do
    if ← accept (.symbol .closeParen) then return []
    else
      let first ← sum fuel
      if !(← isAt (.symbol .closeParen)) then expect (.symbol .comma)
      let others ← listItems fuel
      return first :: others

/-- An expression. -/
def expression : Reader Expr := do
  sum (← get).fuel

end RecordQuery.Reader
