import RecordQuery.Token.Lexer
/-!
# Syntax errors

What can be wrong with the text of a query, and how it is said. Every error carries the position of
the token where the fault was found.
-/

namespace RecordQuery

/-- What a reader of queries was looking for. -/
inductive Expected where
  | token (t : Token)
  | resourceName
  | joinedResourceName
  | aliasName
  | fieldName
  | endOfQuery
  | endOfCondition
  | comparison
  | comparisonOperator
  | expression
  | coordinate
  | numericCoordinates
deriving DecidableEq, Repr

/-- How it is named in a message. -/
def Expected.text : Expected → String
  | .token t => "'" ++ t.text ++ "'"
  | .resourceName => "resource name"
  | .joinedResourceName => "joined resource name"
  | .aliasName => "alias after AS"
  | .fieldName => "field name after '.'"
  | .endOfQuery => "end of query"
  | .endOfCondition => "end of condition"
  | .comparison => "comparison"
  | .comparisonOperator => "comparison operator"
  | .expression => "expression"
  | .coordinate => "point coordinate"
  | .numericCoordinates => "numeric point coordinates"

/-- The places where a predicate is asked for. -/
inductive PredicateClause where
  | filter
  | join
  /-- a predicate that stands alone -/
  | condition
deriving DecidableEq, Repr

/-- How it is named in a message. -/
def PredicateClause.text : PredicateClause → String
  | .filter => "WHERE"
  | .join => "ON"
  | .condition => "condition"

/-- The places where a number of rows is asked for. -/
inductive CountClause where
  | start
  | limit
deriving DecidableEq, Repr

namespace CountClause

/-- The word that opens the clause. -/
def text : CountClause → String
  | .start => "START"
  | .limit => "LIMIT"

/-- `clause.admits n` holds for the numbers that the clause may have: rows may be skipped without
number, but at least one must be wanted. -/
def admits : CountClause → Nat → Bool
  | .start, _ => true
  | .limit, n => 0 < n

/-- The word for the numbers that the clause may have. -/
def requirement : CountClause → String
  | .start => "non-negative"
  | .limit => "positive"

end CountClause

/-- Why a text is no query. -/
inductive SyntaxError where
  | lexical (e : LexicalError)
  | unexpected (expected : Expected) (found : String) (place : Position)
  | emptyPredicate (clause : PredicateClause) (place : Position)
  | invalidNumber (clause : CountClause) (found : String) (place : Position)
deriving DecidableEq, Repr

namespace SyntaxError

/-- Where the text is at fault. -/
def position : SyntaxError → Position
  | .lexical e => e.position
  | .unexpected _ _ p => p
  | .emptyPredicate _ p => p
  | .invalidNumber _ _ p => p

/-- The wording of an error, behind its heading. -/
def detail : SyntaxError → String
  | .lexical e => e.message
  | .unexpected expected found p =>
    "expected " ++ expected.text ++ ", found '" ++ found ++ "' at " ++ p.text
  | .emptyPredicate clause p => "empty predicate after " ++ clause.text ++ " at " ++ p.text
  | .invalidNumber clause found p =>
    clause.text ++ " expects a " ++ clause.requirement ++ " integer, found '" ++ found ++ "' at " ++
      p.text

/-- The wording of an error. -/
def message (e : SyntaxError) : String :=
  "Syntax error: " ++ e.detail

end SyntaxError

end RecordQuery
