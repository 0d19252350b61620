import RecordQuery.Proofs.Folding
/-!
# The grammar of predicates

The grammar that a predicate is written in, as the type of its derivations. A derivation has a text,
the list of its `tokens`, and a meaning: `expr` for the derivations of expressions, and `written` and
`predicate` for those of predicates. Parameters are numbered in the order of the text, so a meaning
depends on the number of parameters in front of it, and `placeholders` counts those inside.

    chain   = term {("AND" | "OR") term}
    term    = "(" chain ")" | sum operator sum | sum "IN" "(" items ")"
    sum     = product {("+" | "-") product}
    product = factor {("*" | "/") factor}
    factor  = "-" factor | primary
    primary = span | quoted | "NULL" | "?" | "(" sum ")" | name {"." name}
            | name "(" arguments ")" | "POINT" "(" coordinate coordinate ")"

Nothing here looks at how predicates are read. The chains fold to the left, a minus sign in front is a
subtraction from zero, and what a chain of terms becomes is the fold of the predicate that is written.
-/

namespace RecordQuery.Grammar

/-- The operators of sums. -/
inductive SumOp where
  | plus
  | minus
deriving DecidableEq

/-- What an operator of sums does. -/
def SumOp.arith : SumOp → ArithOp
  | .plus => .add
  | .minus => .subtract

/-- The token of an operator of sums. -/
def SumOp.token : SumOp → Token
  | .plus => .symbol .plus
  | .minus => .symbol .minus

/-- The operators of products. -/
inductive ProductOp where
  | star
  | slash
deriving DecidableEq

/-- What an operator of products does. -/
def ProductOp.arith : ProductOp → ArithOp
  | .star => .multiply
  | .slash => .divide

/-- The token of an operator of products. -/
def ProductOp.token : ProductOp → Token
  | .star => .symbol .star
  | .slash => .symbol .slash

/-- The token of a comparison operator. -/
def operatorToken : CompareOp → Token
  | .equal => .symbol .equal
  | .notEqual => .symbol .notEqual
  | .distinct => .symbol .distinct
  | .greater => .symbol .greater
  | .greaterEqual => .symbol .greaterEqual
  | .less => .symbol .less
  | .lessEqual => .symbol .lessEqual
  | .like => .keyword .LIKE
  | .isIn => .keyword .IN

/-- The token of a connective. -/
def connectiveToken : LogicOp → Token
  | .and => .keyword .AND
  | .or => .keyword .OR

/-- A coordinate of a point: a literal span, with an optional minus sign in front. -/
structure Coordinate where
  negative : Bool
  raw : String

namespace Coordinate

def tokens (c : Coordinate) : List Token :=
  if c.negative then [.symbol .minus, .span c.raw] else [.span c.raw]

/-- The coordinate as it is typed. -/
def text (c : Coordinate) : String :=
  if c.negative then "-" ++ c.raw else c.raw

end Coordinate

/-- The literal that a point written without quotes stands for. -/
def pointLiteral (x y : Coordinate) : Literal :=
  Literal.ofText ("POINT (" ++ x.text ++ " " ++ y.text ++ ")")

/-- The tokens of names with a dot in front of each. -/
def dotted : List String → List Token
  | [] => []
  | name :: rest => .symbol .dot :: .identifier name :: dotted rest

/-! ## Expressions -/

mutual

inductive Sum where
  | mk (first : Product) (tail : SumTail)

/-- What follows the first product of a sum. -/
inductive SumTail where
  | done
  | more (op : SumOp) (right : Product) (tail : SumTail)

inductive Product where
  | mk (first : Factor) (tail : ProductTail)

/-- What follows the first factor of a product. -/
inductive ProductTail where
  | done
  | more (op : ProductOp) (right : Factor) (tail : ProductTail)

inductive Factor where
  | negated (operand : Factor)
  | primary (p : Primary)

inductive Primary where
  | span (raw : String)
  | quoted (content : String)
  | null
  | placeholder
  | group (inner : Sum)
  | field (first : String) (others : List String)
  | call (name : String) (hname : Name.same name "point" = false) (args : Arguments)
  | point (word : String) (hword : Name.same word "point" = true) (x y : Coordinate) (p : Point)
      (hpoint : pointLiteral x y = .point p)

/-- The arguments of a call. A comma may stand behind the last one. -/
inductive Arguments where
  | done
  | last (a : Argument)
  | more (a : Argument) (rest : Arguments)

inductive Argument where
  | star
  | sum (s : Sum)

end

mutual

/-- The tokens of a derivation. -/
def Sum.tokens : Sum → List Token
  | .mk first tail => first.tokens ++ tail.tokens

def SumTail.tokens : SumTail → List Token
  | .done => []
  | .more op right tail => op.token :: (right.tokens ++ tail.tokens)

def Product.tokens : Product → List Token
  | .mk first tail => first.tokens ++ tail.tokens

def ProductTail.tokens : ProductTail → List Token
  | .done => []
  | .more op right tail => op.token :: (right.tokens ++ tail.tokens)

def Factor.tokens : Factor → List Token
  | .negated operand => .symbol .minus :: operand.tokens
  | .primary p => p.tokens

def Primary.tokens : Primary → List Token
  | .span raw => [.span raw]
  | .quoted content => [.quoted content]
  | .null => [.keyword .NULL]
  | .placeholder => [.placeholder]
  | .group inner => .symbol .openParen :: (inner.tokens ++ [.symbol .closeParen])
  | .field first others => .identifier first :: dotted others
  | .call name _ args =>
    .identifier name :: .symbol .openParen :: (args.tokens ++ [.symbol .closeParen])
  | .point word _ x y _ _ =>
    .identifier word :: .symbol .openParen :: (x.tokens ++ (y.tokens ++ [.symbol .closeParen]))

def Arguments.tokens : Arguments → List Token
  | .done => []
  | .last a => a.tokens
  | .more a rest => a.tokens ++ .symbol .comma :: rest.tokens

def Argument.tokens : Argument → List Token
  | .star => [.symbol .star]
  | .sum s => s.tokens

end

mutual

/-- How many parameters there are in a derivation. -/
def Sum.placeholders : Sum → Nat
  | .mk first tail => first.placeholders + tail.placeholders

def SumTail.placeholders : SumTail → Nat
  | .done => 0
  | .more _ right tail => right.placeholders + tail.placeholders

def Product.placeholders : Product → Nat
  | .mk first tail => first.placeholders + tail.placeholders

def ProductTail.placeholders : ProductTail → Nat
  | .done => 0
  | .more _ right tail => right.placeholders + tail.placeholders

def Factor.placeholders : Factor → Nat
  | .negated operand => operand.placeholders
  | .primary p => p.placeholders

def Primary.placeholders : Primary → Nat
  | .placeholder => 1
  | .group inner => inner.placeholders
  | .call _ _ args => args.placeholders
  | _ => 0

def Arguments.placeholders : Arguments → Nat
  | .done => 0
  | .last a => a.placeholders
  | .more a rest => a.placeholders + rest.placeholders

def Argument.placeholders : Argument → Nat
  | .star => 0
  | .sum s => s.placeholders

end

mutual

/-- The expression of a derivation with `n` parameters in front of it. -/
def Sum.expr (n : Nat) : Sum → Expr
  | .mk first tail => tail.expr (n + first.placeholders) (first.expr n)

/-- The expression of a sum whose first operands make up `left`. -/
def SumTail.expr (n : Nat) (left : Expr) : SumTail → Expr
  | .done => left
  | .more op right tail => tail.expr (n + right.placeholders) (.arith op.arith left (right.expr n))

def Product.expr (n : Nat) : Product → Expr
  | .mk first tail => tail.expr (n + first.placeholders) (first.expr n)

def ProductTail.expr (n : Nat) (left : Expr) : ProductTail → Expr
  | .done => left
  | .more op right tail => tail.expr (n + right.placeholders) (.arith op.arith left (right.expr n))

def Factor.expr (n : Nat) : Factor → Expr
  | .negated operand => .arith .subtract (.literal (.integer 0)) (operand.expr n)
  | .primary p => p.expr n

def Primary.expr (n : Nat) : Primary → Expr
  | .span raw => .literal (.ofText raw)
  | .quoted content => .literal (.ofQuoted content)
  | .null => .literal .null
  | .placeholder => .placeholder n
  | .group inner => inner.expr n
  | .field first others => .field (Reader.fieldOfNames first others)
  | .call name _ args => .call (Name.lower name) (args.exprs n)
  | .point _ _ _ _ p _ => .literal (.point p)

def Arguments.exprs (n : Nat) : Arguments → List Expr
  | .done => []
  | .last a => [a.expr n]
  | .more a rest => a.expr n :: rest.exprs (n + a.placeholders)

def Argument.expr (n : Nat) : Argument → Expr
  | .star => .wildcard
  | .sum s => s.expr n

end

/-- The items of a list. A comma may stand behind the last one. -/
inductive Items where
  | done
  | last (s : Sum)
  | more (s : Sum) (rest : Items)

namespace Items

def tokens : Items → List Token
  | .done => []
  | .last s => s.tokens
  | .more s rest => s.tokens ++ .symbol .comma :: rest.tokens

def placeholders : Items → Nat
  | .done => 0
  | .last s => s.placeholders
  | .more s rest => s.placeholders + rest.placeholders

def exprs (n : Nat) : Items → List Expr
  | .done => []
  | .last s => [s.expr n]
  | .more s rest => s.expr n :: rest.exprs (n + s.placeholders)

end Items

/-! ## Predicates -/

mutual

inductive Chain where
  | mk (first : Term) (tail : ChainTail)

/-- What follows the first term of a chain. -/
inductive ChainTail where
  | done
  | more (op : LogicOp) (right : Term) (tail : ChainTail)

/-- A term. Behind `IN` an opening parenthesis always starts a list. -/
inductive Term where
  | group (inner : Chain)
  | compare (left : Sum) (op : CompareOp) (right : Sum)
      (hright : op = .isIn → right.tokens.head? ≠ some (.symbol .openParen))
  | isIn (left : Sum) (items : Items)

end

mutual

/-- The tokens of a derivation. -/
def Chain.tokens : Chain → List Token
  | .mk first tail => first.tokens ++ tail.tokens

def ChainTail.tokens : ChainTail → List Token
  | .done => []
  | .more op right tail => connectiveToken op :: (right.tokens ++ tail.tokens)

def Term.tokens : Term → List Token
  | .group inner => .symbol .openParen :: (inner.tokens ++ [.symbol .closeParen])
  | .compare left op right _ => left.tokens ++ operatorToken op :: right.tokens
  | .isIn left items =>
    left.tokens ++ .keyword .IN :: .symbol .openParen :: (items.tokens ++ [.symbol .closeParen])

end

mutual

/-- How many parameters there are in a derivation. -/
def Chain.placeholders : Chain → Nat
  | .mk first tail => first.placeholders + tail.placeholders

def ChainTail.placeholders : ChainTail → Nat
  | .done => 0
  | .more _ right tail => right.placeholders + tail.placeholders

def Term.placeholders : Term → Nat
  | .group inner => inner.placeholders
  | .compare left _ right _ => left.placeholders + right.placeholders
  | .isIn left items => left.placeholders + items.placeholders

end

mutual

/-- The predicate that is written, with nothing folded away and `n` parameters in front of it. -/
def Chain.written (n : Nat) : Chain → Predicate
  | .mk first tail => tail.written (n + first.placeholders) (first.written n)

/-- The predicate of a chain whose first terms make up `left`. -/
def ChainTail.written (n : Nat) (left : Predicate) : ChainTail → Predicate
  | .done => left
  | .more op right tail => tail.written (n + right.placeholders) (.logic op left (right.written n))

def Term.written (n : Nat) : Term → Predicate
  | .group inner => inner.written n
  | .compare left op right _ =>
    .comparison ⟨left.expr n, op, right.expr (n + left.placeholders)⟩
  | .isIn left items =>
    .comparison ⟨left.expr n, .isIn, .list (items.exprs (n + left.placeholders))⟩

end

/-- The predicate of a derivation with no parameters in front of it: what is written, with everything
folded away that is folded away in reading. -/
def Chain.predicate (c : Chain) : Predicate :=
  (c.written 0).fold

end RecordQuery.Grammar
