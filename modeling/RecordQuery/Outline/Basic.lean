import RecordQuery.Unicode.Graphic
/-!
# Outlines

An outline shows a tree of named parts over several lines, one part a line and four spaces a level. It
is how a compiled query is shown to someone who wants to see its structure.
-/

namespace RecordQuery

/-- A tree of named parts. -/
inductive Outline where
  /-- a leaf, shown as its text -/
  | leaf (text : String)
  /-- a part with named parts of its own -/
  | record (name : String) (fields : List (String × Outline))
  /-- a part that wraps another one -/
  | wrapped (name : String) (content : Outline)
  | list (items : List Outline)

namespace Outline

/-- The lowercase hexadecimal digits of a code point. -/
def codePoint (c : Char) : List Char :=
  Nat.toDigits 16 c.toNat

/-- A character between double quotes. -/
def escape (c : Char) : List Char :=
  if c = '"' then ['\\', '"']
  else if c = '\\' then ['\\', '\\']
  else if c = '\n' then ['\\', 'n']
  else if c = '\r' then ['\\', 'r']
  else if c = '\t' then ['\\', 't']
  else if c = '\x00' then ['\\', '0']
  else if Unicode.isGraphic c then [c]
  else '\\' :: 'u' :: '\x7b' :: codePoint c ++ ['\x7d']

/-- A text in double quotes. -/
def quoted (text : String) : Outline :=
  .leaf (String.ofList ('"' :: text.toList.flatMap escape ++ ['"']))

/-- A number. -/
def number (n : Nat) : Outline :=
  .leaf (toString n)

/-- A part that may be missing. -/
def ofOption {α : Type} (outline : α → Outline) : Option α → Outline
  | none => .leaf "None"
  | some a => .wrapped "Some" (outline a)

/-- Lines one level further in, with a comma behind the last one. -/
def item : List String → List String
  | [] => []
  | [last] => ["    " ++ last ++ ","]
  | line :: rest => ("    " ++ line) :: item rest

/-- Lines with a label in front of the first one. -/
def labelled (label : String) : List String → List String
  | [] => []
  | first :: rest => (label ++ ": " ++ first) :: rest

mutual

/-- The lines of an outline. -/
def lines : Outline → List String
  | .leaf text => [text]
  | .record name fields => (name ++ " \x7b") :: fieldLines fields ++ ["\x7d"]
  | .wrapped name content => (name ++ "(") :: item (lines content) ++ [")"]
  | .list [] => ["[]"]
  | .list (first :: rest) => "[" :: (item (lines first) ++ itemLines rest) ++ ["]"]
termination_by structural o => o

/-- The lines of the items of a list. -/
def itemLines : List Outline → List String
  | [] => []
  | o :: rest => item (lines o) ++ itemLines rest
termination_by structural os => os

/-- The lines of named parts. -/
def fieldLines : List (String × Outline) → List String
  | [] => []
  | (label, o) :: rest => item (labelled label (lines o)) ++ fieldLines rest
termination_by structural fs => fs

end

/-- The text of an outline. -/
def render (o : Outline) : String :=
  String.intercalate "\n" o.lines

end Outline

end RecordQuery
