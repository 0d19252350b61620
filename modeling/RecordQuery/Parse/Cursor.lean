import RecordQuery.Parse.Error
/-!
# Reading from a list of tokens

A `Cursor` is the place of a reader in the tokens of a text: the current token, those behind it, and
how many parameters were met so far. The current token never runs out: the last token is the end of
the input, and moving on from the last token stays there. A `Reader` moves a cursor and gives a result
or an error; after an error the cursor is where the fault was found.

A reader that needs the text of a token takes it out of the cursor (`takeToken`). Then the end of the input
stands in its place, until the reader moves on or puts the token back.
-/

namespace RecordQuery

/-- A place in a list of tokens. -/
structure Cursor where
  current : PlacedToken
  rest : List PlacedToken
  /-- the number of the next parameter -/
  placeholders : Nat
deriving DecidableEq, Repr

namespace Cursor

/-- The cursor at the start of a list of tokens. -/
def ofTokens : List PlacedToken → Cursor
  | t :: rest => ⟨t, rest, 0⟩
  | [] => ⟨⟨.endOfInput, Position.start⟩, [], 0⟩

/-- The cursor at the start of a text, if that can be split into tokens. -/
def ofText (text : String) : Except SyntaxError Cursor :=
  match tokenize text with
  | .ok tokens => .ok (ofTokens tokens)
  | .error e => .error (.lexical e)

/-- The cursor at the next token. -/
def next (c : Cursor) : Cursor :=
  match c.rest with
  | t :: rest => { c with current := t, rest := rest }
  | [] => c

/-- The cursor with `t` in the place of the current token. -/
def withToken (c : Cursor) (t : Token) : Cursor :=
  { c with current := { c.current with token := t } }

/-- The error that something else than the current token was expected. -/
def unexpected (c : Cursor) (expected : Expected) : SyntaxError :=
  .unexpected expected c.current.token.text c.current.position

/-- How many steps a reader may take: enough for all the levels of the grammar at every token. -/
def fuel (c : Cursor) : Nat :=
  8 * c.rest.length + 8

end Cursor

/-- A computation that reads tokens. -/
abbrev Reader := EStateM SyntaxError Cursor

namespace Reader

/-- The current token. -/
def token : Reader Token := do
  return (← get).current.token

/-- Moves to the next token. -/
def advance : Reader Unit :=
  modify Cursor.next

/-- The current token, which is taken out of the cursor. -/
def takeToken : Reader Token := do
  let t ← token
  modify fun c => c.withToken .endOfInput
  return t

/-- Puts a token back that was taken out. -/
def putBack (t : Token) : Reader Unit :=
  modify fun c => c.withToken t

/-- Fails at the current token. -/
def fail {α : Type} (expected : Expected) : Reader α := do
  throw ((← get).unexpected expected)

/-- `isAt t` tells whether the current token is `t`. -/
def isAt (t : Token) : Reader Bool := do
  return (← token) == t

/-- Moves over the current token if it is `t`, and tells whether it was. -/
def accept (t : Token) : Reader Bool := do
  if ← isAt t then
    advance
    return true
  else return false

/-- Moves over the current token, which has to be `t`. -/
def expect (t : Token) : Reader Unit := do
  if ← accept t then return () else fail (.token t)

/-- Moves over a name. -/
def name (expected : Expected) : Reader String := do
  match ← takeToken with
  | .identifier name =>
    advance
    return name
  | t =>
    putBack t
    fail expected

/-- The number of a parameter that has just been met. -/
def newPlaceholder : Reader Nat := do
  let index := (← get).placeholders
  modify fun c => { c with placeholders := c.placeholders + 1 }
  return index

/-- Runs a reader and keeps the cursor that it leaves behind. -/
def runFrom {α : Type} (r : Reader α) (c : Cursor) : Except SyntaxError α × Cursor :=
  match r.run c with
  | .ok a c => (.ok a, c)
  | .error e c => (.error e, c)

end Reader

end RecordQuery
