import RecordQuery.Decimal.Text
import RecordQuery.Unicode.Blank
/-!
# Points

A point has two decimal coordinates and is written `POINT (x y)`, with the word in any case and white
space as one likes it. Points are equal when their coordinates have the same values.
-/

namespace RecordQuery

/-- A point of the plane. -/
structure Point where
  x : Decimal
  y : Decimal
deriving DecidableEq, Repr

namespace Point

/-- `a.sameValue b` holds when both coordinates have the same values. -/
def sameValue (a b : Point) : Bool :=
  a.x.sameValue b.x && a.y.sameValue b.y

/-- The text of a point, as a literal and as a value. -/
def render (p : Point) : String :=
  "POINT (" ++ p.x.render ++ " " ++ p.y.render ++ ")"

/-- A coordinate in front of the text, a positional numeral with digits on both sides of a point if
it has one, and the text behind it. -/
def coordinate? (text : List Char) : Option (Decimal × List Char) :=
  let sign := text.takeWhile (· == '-') |>.take 1
  let (whole, rest) := Digits.split (text.drop sign.length)
  let (fraction, behind) :=
    match rest with
    | '.' :: rest =>
      let (digits, behind) := Digits.split rest
      if digits.isEmpty then ([], '.' :: rest) else ('.' :: digits, behind)
    | rest => ([], rest)
  if whole.isEmpty then none
  else (Decimal.readPlain? (sign ++ whole ++ fraction)).map fun d => (d, behind)

/-- The text behind the word `POINT` in any case, if it starts with it. -/
def afterWord? (text : List Char) : Option (List Char) :=
  if (text.take 5).map Char.toLower = "point".toList then some (text.drop 5) else none

/-- Reads a point with nothing around it. -/
def readExact? (text : List Char) : Option Point := do
  let text ← afterWord? text
  match Unicode.trimStart text with
  | '(' :: text =>
    let (x, text) ← coordinate? (Unicode.trimStart text)
    if text.head?.any Unicode.isBlank then
      let (y, text) ← coordinate? (Unicode.trimStart text)
      if Unicode.trimStart text = [')'] then some ⟨x, y⟩ else none
    else none
  | _ => none

/-- Reads a point with white space around it. -/
def read? (text : String) : Option Point :=
  readExact? (Unicode.trim text.toList)

end Point

end RecordQuery
