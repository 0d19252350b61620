import RecordQuery.Token.Basic
import RecordQuery.Token.Position
import RecordQuery.Unicode.Blank
import RecordQuery.Unicode.Alphanumeric
import RecordQuery.Literal.Uuid
/-!
# From text to tokens

`Lexer.next` takes one token off the text. What it does depends on the text ahead, on the token
before (a minus is a sign only where no operand has just ended, and a word behind a dot is always a
name) and on the parentheses that are open. It always answers with the state to go on from, also
after an error, so a caller may continue. `tokenize` runs it to the end of the text and stops at the
first error.
-/

namespace RecordQuery

/-- Why a text cannot be split into tokens. -/
inductive LexicalError where
  /-- a quoted text that starts here has no closing quote -/
  | unterminatedString (place : Position)
  /-- a closing parenthesis without an open one -/
  | unexpectedCloseParen (place : Position)
  /-- a parenthesis that is still open at the end -/
  | unclosedParen (place : Position)
  /-- a character that starts no token -/
  | unexpectedCharacter (c : Char) (place : Position)
deriving DecidableEq, Repr

namespace LexicalError

/-- Where the text is at fault. -/
def position : LexicalError → Position
  | .unterminatedString p => p
  | .unexpectedCloseParen p => p
  | .unclosedParen p => p
  | .unexpectedCharacter _ p => p

/-- The wording of an error. -/
def message : LexicalError → String
  | .unterminatedString p => "Unterminated string starting at " ++ p.text
  | .unexpectedCloseParen p => "Unbalanced parenthesis: unexpected ')' at " ++ p.text
  | .unclosedParen p => "Unbalanced parenthesis: '(' at " ++ p.text ++ " is never closed"
  | .unexpectedCharacter c p => "Unexpected character '" ++ String.ofList [c] ++ "' at " ++ p.text

end LexicalError

/-! ## The shapes of tokens -/

namespace Lexer

/-- `isWordChar c` holds for the characters a word is made of. -/
def isWordChar (c : Char) : Bool :=
  Unicode.isAlphanumeric c || c == '_'

/-- The word in front. -/
def word (text : List Char) : List Char :=
  text.takeWhile isWordChar

/-- The content of a quoted text behind its opening quote, and how many characters it takes with the
closing quote. A doubled quote stands for the quote itself. -/
def quotedContent? (quote : Char) : List Char → Option (List Char × Nat)
  | [] => none
  | [c] => if c = quote then some ([], 1) else none
  | c :: d :: rest =>
    if c = quote then
      if d = quote then (quotedContent? quote rest).map fun (cs, n) => (quote :: cs, n + 2)
      else some ([], 1)
    else (quotedContent? quote (d :: rest)).map fun (cs, n) => (c :: cs, n + 1)

/-- A fraction in front: a point with at least one digit behind it. -/
def fraction : List Char → List Char
  | '.' :: rest => if (rest.takeWhile Char.isDigit).isEmpty then [] else '.' :: rest.takeWhile Char.isDigit
  | _ => []

/-- An exponent in front: a mark, an optional sign and at least one digit. -/
def exponent : List Char → List Char
  | mark :: rest =>
    if mark = 'e' ∨ mark = 'E' then
      let sign := (rest.take 1).filter fun c => c == '+' || c == '-'
      let digits := (rest.drop sign.length).takeWhile Char.isDigit
      if digits.isEmpty then [] else mark :: (sign ++ digits)
    else []
  | [] => []

/-- The number in front, with its sign, fraction and exponent, and the word characters glued to
it. -/
def number (text : List Char) : List Char :=
  let sign := (text.take 1).filter (· == '-')
  let text := text.drop sign.length
  let whole := text.takeWhile Char.isDigit
  let text := text.drop whole.length
  let fraction := fraction text
  let text := text.drop fraction.length
  let exponent := exponent text
  let text := text.drop exponent.length
  sign ++ whole ++ fraction ++ exponent ++ word text

/-- `startsWithUuid text` holds when an identifier of 128 bits is in front and no word character is
glued to it. -/
def startsWithUuid (text : List Char) : Bool :=
  Uuid.isGrouped (text.take 36) && !(text.drop 36).head?.any isWordChar

/-- What the text starts with. -/
inductive Front where
  /-- a token of so many characters -/
  | token (t : Token) (length : Nat)
  /-- a quote that is never closed -/
  | unterminated
  /-- a character that starts no token -/
  | unknown (c : Char)
deriving DecidableEq, Repr

/-- A symbol in front, of as many characters as its spelling has. -/
def Front.symbol (s : Symbol) : Front :=
  .token (.symbol s) s.text.length

/-- A literal span in front. -/
def Front.span (raw : List Char) : Front :=
  .token (.span (String.ofList raw)) raw.length

/-- A quoted text in front, whose opening quote is already taken off. -/
def Front.quoted (quote : Char) (rest : List Char) : Front :=
  match quotedContent? quote rest with
  | some (content, length) => .token (.quoted (String.ofList content)) (length + 1)
  | none => .unterminated

/-- A word in front, which is a name or a keyword. -/
def Front.word (afterDot : Bool) (text : List Char) : Front :=
  let name := String.ofList (Lexer.word text)
  let token :=
    if afterDot then Token.identifier name
    else
      match Keyword.ofWord? name with
      | some k => .keyword k
      | none => .identifier name
  .token token (Lexer.word text).length

/-- A character in front that no symbol starts with: the first of a word, a number, an identifier of
128 bits, or none of these. -/
def Front.other (afterDot : Bool) (c : Char) (rest : List Char) : Front :=
  let text := c :: rest
  if isWordChar c then
    if afterDot then Front.word true text
    else if startsWithUuid text then Front.span (text.take 36)
    else if c.isDigit then Front.span (number text)
    else Front.word false text
  else .unknown c

/-- The token at the start of a text without white space in front. -/
def front (signAllowed afterDot : Bool) : List Char → Front
  | [] => .token .endOfInput 0
  | '\'' :: rest => Front.quoted '\'' rest
  | '"' :: rest => Front.quoted '"' rest
  | '(' :: _ => Front.symbol .openParen
  | ')' :: _ => Front.symbol .closeParen
  | ',' :: _ => Front.symbol .comma
  | '.' :: _ => Front.symbol .dot
  | '+' :: _ => Front.symbol .plus
  | '*' :: _ => Front.symbol .star
  | '/' :: _ => Front.symbol .slash
  | '?' :: _ => .token .placeholder 1
  | '=' :: _ => Front.symbol .equal
  | '-' :: rest =>
    if signAllowed && rest.head?.any Char.isDigit then Front.span (number ('-' :: rest))
    else Front.symbol .minus
  | '!' :: '=' :: _ => Front.symbol .notEqual
  | '!' :: _ => .unknown '!'
  | '<' :: '=' :: _ => Front.symbol .lessEqual
  | '<' :: '>' :: _ => Front.symbol .distinct
  | '<' :: _ => Front.symbol .less
  | '>' :: '=' :: _ => Front.symbol .greaterEqual
  | '>' :: _ => Front.symbol .greater
  | c :: rest => Front.other afterDot c rest

end Lexer

/-! ## The state between tokens -/

/-- The state between two tokens. -/
structure Lexer where
  /-- the text still ahead -/
  rest : List Char
  /-- the position of the text ahead -/
  position : Position
  /-- the last token that was read -/
  previous : Option Token
  /-- where the open parentheses are, the innermost first -/
  openParens : List Position
deriving DecidableEq, Repr

namespace Lexer

/-- The state in front of a text. -/
def ofText (text : String) : Lexer :=
  ⟨text.toList, Position.start, none, []⟩

/-- What one step gives: a token or an error, where it starts, and the state to go on from. -/
structure Step where
  result : Except LexicalError Token
  start : Position
  state : Lexer

/-- The state with the white space in front taken off. -/
def skipBlanks (l : Lexer) : Lexer :=
  { l with
    rest := l.rest.dropWhile Unicode.isBlank
    position := l.position.after (l.rest.takeWhile Unicode.isBlank) }

/-- The state with `length` characters taken off. -/
def advance (l : Lexer) (length : Nat) : Lexer :=
  { l with rest := l.rest.drop length, position := l.position.after (l.rest.take length) }

/-- A step that fails. -/
def fail (l : Lexer) (start : Position) (e : LexicalError) : Step :=
  ⟨.error e, start, l⟩

/-- A step that reads a token of `length` characters. -/
def accept (l : Lexer) (t : Token) (length : Nat) : Step :=
  ⟨.ok t, l.position, { l.advance length with previous := some t }⟩

/-- Reads a token in front, keeping count of the parentheses. -/
def take (l : Lexer) (t : Token) (length : Nat) : Step :=
  match t with
  | .endOfInput =>
    match l.openParens with
    | innermost :: _ => l.fail l.position (.unclosedParen innermost)
    | [] => l.accept t length
  | .symbol .openParen => { l with openParens := l.position :: l.openParens }.accept t length
  | .symbol .closeParen =>
    match l.openParens with
    | _ :: others => { l with openParens := others }.accept t length
    | [] => l.fail l.position (.unexpectedCloseParen l.position)
  | _ => l.accept t length

/-- Reads the next token. An unclosed quote takes the whole text with it; every other error leaves
the text where it is. -/
def next (lexer : Lexer) : Step :=
  let l := lexer.skipBlanks
  match front (!l.previous.any Token.endsOperand) (l.previous == some (.symbol .dot)) l.rest with
  | .token t length => l.take t length
  | .unterminated => (l.advance l.rest.length).fail l.position (.unterminatedString l.position)
  | .unknown c => l.fail l.position (.unexpectedCharacter c l.position)

end Lexer

/-! ## The tokens of a text -/

/-- A token and where it starts. -/
structure PlacedToken where
  token : Token
  position : Position
deriving DecidableEq, Repr

/-- Reads tokens to the end of the text, at most `fuel` of them. -/
def Lexer.run : (fuel : Nat) → Lexer → Except LexicalError (List PlacedToken)
  | 0, _ => .ok []
  | fuel + 1, l =>
    let step := l.next
    match step.result with
    | .error e => .error e
    | .ok t =>
      if t = .endOfInput then .ok [⟨t, step.start⟩]
      else (Lexer.run fuel step.state).map (⟨t, step.start⟩ :: ·)

/-- The tokens of a text; the last one is always the end of input. Every token but that one takes at
least one character, which bounds their number. -/
def tokenize (text : String) : Except LexicalError (List PlacedToken) :=
  Lexer.run (text.toList.length + 1) (Lexer.ofText text)

end RecordQuery
