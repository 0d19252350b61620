import RecordQuery.Pattern
/-!
# Patterns as regular expressions

A pattern stands for a regular expression: `%` for any run of characters, `_` for any one character,
every other sign for itself, all of it anchored at both ends. The regular expression is a text, in which
some signs have a meaning of their own and stand for themselves only behind a backslash.

`Regex.read?` reads the part of that language that patterns are written in: signs, the point with and
without a star, and the two anchors. `Regex.FoundIn` says what is then found in a text.
-/

namespace RecordQuery

namespace Regex

/-- A part of a regular expression. -/
inductive Part where
  /-- `^`, the start of the text -/
  | start
  /-- `$`, the end of the text -/
  | stop
  /-- `.`, one character -/
  | any
  /-- `.*`, any number of characters -/
  | anyRun
  /-- a sign that stands for itself -/
  | char (c : Char)
deriving DecidableEq, Repr

/-- How a regular expression is matched. -/
structure Options where
  caseInsensitive : Bool
  dotMatchesNewline : Bool
deriving DecidableEq, Repr

/-- `o.sameChar c d` holds when the sign `c` stands for the character `d`. -/
def Options.sameChar (o : Options) (c d : Char) : Bool :=
  if o.caseInsensitive then Unicode.sameFolded c d else c == d

/-- `o.pointTakes c` holds when the point stands for the character `c`. -/
def Options.pointTakes (o : Options) (c : Char) : Bool :=
  o.dotMatchesNewline || c != '\n'

/-! ## Text -/

/-- `isMeta c` holds for the signs that may have a meaning of their own. -/
def isMeta (c : Char) : Bool :=
  ['\\', '.', '+', '*', '?', '(', ')', '|', '[', ']', '\x7b', '\x7d', '^', '$', '#', '&', '-', '~'].contains c

/-- A sign that stands for itself. -/
def escape (c : Char) : List Char :=
  if isMeta c then ['\\', c] else [c]

/-- Reads a regular expression. One that has a sign with another meaning is not read. -/
def read? : List Char → Option (List Part)
  | [] => some []
  | '^' :: rest => (read? rest).map (.start :: ·)
  | '$' :: rest => (read? rest).map (.stop :: ·)
  | '.' :: '*' :: rest => (read? rest).map (.anyRun :: ·)
  | '.' :: rest => (read? rest).map (.any :: ·)
  | '\\' :: c :: rest => if isMeta c then (read? rest).map (.char c :: ·) else none
  | c :: rest => if isMeta c then none else (read? rest).map (.char c :: ·)

/-! ## Matching -/

/-- `HoldsFrom o parts before behind` holds when the parts match, one after the other, from the place
between `before` and `behind` on. -/
def HoldsFrom (o : Options) : List Part → (before behind : List Char) → Prop
  | [], _, _ => True
  | .start :: parts, before, behind => before = [] ∧ HoldsFrom o parts before behind
  | .stop :: parts, before, behind => behind = [] ∧ HoldsFrom o parts before behind
  | .any :: parts, before, behind =>
    ∃ c rest, behind = c :: rest ∧ o.pointTakes c = true ∧ HoldsFrom o parts (before ++ [c]) rest
  | .anyRun :: parts, before, behind =>
    ∃ piece rest, behind = piece ++ rest ∧ (∀ c ∈ piece, o.pointTakes c = true) ∧
      HoldsFrom o parts (before ++ piece) rest
  | .char c :: parts, before, behind =>
    ∃ d rest, behind = d :: rest ∧ o.sameChar c d = true ∧ HoldsFrom o parts (before ++ [d]) rest

/-- `FoundIn o parts text` holds when the parts match from some place of the text on. -/
def FoundIn (o : Options) (parts : List Part) (text : List Char) : Prop :=
  ∃ before behind, text = before ++ behind ∧ HoldsFrom o parts before behind

end Regex

namespace Pattern

/-- The regular expression for one sign of a pattern. -/
def regexOf : Char → List Char
  | '%' => ['.', '*']
  | '_' => ['.']
  | c => Regex.escape c

/-- The regular expression for a pattern, sign by sign between the two anchors. -/
def regexText (source : List Char) : List Char :=
  '^' :: source.flatMap regexOf ++ ['$']

/-- Patterns are matched without regard to case, and their open positions take line ends too. -/
def regexOptions : Regex.Options :=
  ⟨true, true⟩

end Pattern

end RecordQuery
