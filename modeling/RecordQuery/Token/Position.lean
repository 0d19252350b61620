/-!
# Positions in query text

A position counts characters: the offset from the start, and the line and the column, both from one.
A line feed ends a line; every other character is one column wide.
-/

namespace RecordQuery

/-- A place in query text. -/
structure Position where
  offset : Nat
  line : Nat
  column : Nat
deriving DecidableEq, Repr

namespace Position

/-- The first character of a text. -/
def start : Position :=
  ⟨0, 1, 1⟩

/-- The position behind one character. -/
def next (p : Position) (c : Char) : Position :=
  if c = '\n' then ⟨p.offset + 1, p.line + 1, 1⟩ else ⟨p.offset + 1, p.line, p.column + 1⟩

/-- The position behind a text that starts at `p`. -/
def after (p : Position) (text : List Char) : Position :=
  text.foldl next p

/-- How a position is named in a message. -/
def text (p : Position) : String :=
  "line " ++ toString p.line ++ ", column " ++ toString p.column

@[simp]
theorem after_nil (p : Position) : p.after [] = p :=
  rfl

@[simp]
theorem after_cons (p : Position) (c : Char) (text : List Char) :
    p.after (c :: text) = (p.next c).after text :=
  rfl

/-- Going over a text in two parts is going over the whole. -/
theorem after_append (p : Position) (first second : List Char) :
    p.after (first ++ second) = (p.after first).after second := by
  simp [after]

/-- The offset grows by the length of the text. -/
theorem offset_after (p : Position) (text : List Char) :
    (p.after text).offset = p.offset + text.length := by
  induction text generalizing p with
  | nil => rfl
  | cons c rest ih =>
    rw [after_cons, ih]
    unfold next
    split <;> simp only [List.length_cons] <;> omega

end Position

end RecordQuery
