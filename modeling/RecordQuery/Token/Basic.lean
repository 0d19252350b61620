/-!
# Tokens

The words and signs of a query: keywords, names, literal spans, quoted texts, placeholders and
symbols. Keywords are recognised in any case. A literal span keeps its raw text, so that it is typed
once, when the query is compiled.
-/

namespace RecordQuery

/-- The reserved words. -/
inductive Keyword where
  | SELECT | FROM | WHERE | JOIN | INNER | LEFT | RIGHT | ON | GROUP | ORDER | BY | ASC | DESC
  | START | LIMIT | AND | OR | IN | LIKE | AS | NULL
deriving DecidableEq, Repr

namespace Keyword

/-- The spelling of a keyword. -/
def text : Keyword → String
  | SELECT => "SELECT"
  | FROM => "FROM"
  | WHERE => "WHERE"
  | JOIN => "JOIN"
  | INNER => "INNER"
  | LEFT => "LEFT"
  | RIGHT => "RIGHT"
  | ON => "ON"
  | GROUP => "GROUP"
  | ORDER => "ORDER"
  | BY => "BY"
  | ASC => "ASC"
  | DESC => "DESC"
  | START => "START"
  | LIMIT => "LIMIT"
  | AND => "AND"
  | OR => "OR"
  | IN => "IN"
  | LIKE => "LIKE"
  | AS => "AS"
  | NULL => "NULL"

/-- Every keyword. -/
def all : List Keyword :=
  [SELECT, FROM, WHERE, JOIN, INNER, LEFT, RIGHT, ON, GROUP, ORDER, BY, ASC, DESC, START, LIMIT, AND,
    OR, IN, LIKE, AS, NULL]

/-- The keyword that a word spells in upper, lower or mixed case. -/
def ofWord? (word : String) : Option Keyword :=
  let upper := word.toList.map Char.toUpper
  all.find? fun k => k.text.toList == upper

theorem mem_all (k : Keyword) : k ∈ all := by
  cases k <;> decide

end Keyword

/-- The signs that stand for themselves. -/
inductive Symbol where
  | equal | notEqual | distinct | greater | greaterEqual | less | lessEqual
  | plus | minus | star | slash
  | comma | openParen | closeParen | dot
deriving DecidableEq, Repr

/-- The spelling of a symbol. -/
def Symbol.text : Symbol → String
  | .equal => "="
  | .notEqual => "!="
  | .distinct => "<>"
  | .greater => ">"
  | .greaterEqual => ">="
  | .less => "<"
  | .lessEqual => "<="
  | .plus => "+"
  | .minus => "-"
  | .star => "*"
  | .slash => "/"
  | .comma => ","
  | .openParen => "("
  | .closeParen => ")"
  | .dot => "."

/-- A word or sign of a query. -/
inductive Token where
  | keyword (k : Keyword)
  /-- the name of a field, a resource, an alias or a function -/
  | identifier (name : String)
  /-- a number or an identifier of 128 bits, as it is written -/
  | span (raw : String)
  /-- the content of a quoted text, doubled quotes read as one -/
  | quoted (text : String)
  /-- a parameter, written as a question mark -/
  | placeholder
  | symbol (s : Symbol)
  | endOfInput
deriving DecidableEq, Repr

namespace Token

/-- How a token is named in a message. -/
def text : Token → String
  | .keyword k => k.text
  | .identifier name => name
  | .span raw => raw
  | .quoted content => "'" ++ content ++ "'"
  | .placeholder => "?"
  | .symbol s => s.text
  | .endOfInput => "end of input"

/-- `t.endsOperand` holds for the tokens behind which a minus is an operator and no sign. -/
def endsOperand : Token → Bool
  | .identifier _ => true
  | .span _ => true
  | .quoted _ => true
  | .placeholder => true
  | .keyword .NULL => true
  | .symbol .closeParen => true
  | _ => false

end Token

end RecordQuery
