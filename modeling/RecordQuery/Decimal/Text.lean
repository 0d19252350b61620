import RecordQuery.Decimal.Arithmetic
/-!
# Reading decimals

`readPlain?` reads a positional numeral and keeps its decimal places as written; where they are more
than a decimal holds, the first one too many rounds and the others are dropped. `readScientific?`
moves the point by an exponent and strips the zeros it brings.
-/

namespace RecordQuery.Decimal

/-- A numeral in the course of being read. -/
structure Progress where
  coefficient : Nat
  /-- decimal places read so far -/
  places : Nat
  pointSeen : Bool
  digitSeen : Bool

/-- The decimal read so far; a zero is written without sign. -/
def Progress.finish (p : Progress) (negative : Bool) : Option Decimal :=
  if p.digitSeen then ofParts? (negative && p.coefficient != 0) p.coefficient p.places else none

/-- Ends the numeral at a digit that does not fit any more: from five on it rounds up. A coefficient
that rounding takes out of range gives up its last place. -/
def Progress.roundOff (p : Progress) (negative : Bool) (digit : Nat) : Option Decimal :=
  if digit < 5 then p.finish negative
  else if p.coefficient + 1 < coefficientBound then
    Progress.finish { p with coefficient := p.coefficient + 1 } negative
  else if p.places = 0 then none
  else
    Progress.finish
      { p with coefficient := (p.coefficient + 5) / 10, places := p.places - 1 } negative

/-- A numeral is long when its digits but the last make this number or more: a tenth of what 64 bits
hold, less a margin of 255. -/
def longFrom : Nat :=
  1844674407370954906

/-- `p.isLong` holds when the last digit of `p` was read behind `longFrom` or more. -/
def Progress.isLong (p : Progress) : Bool :=
  longFrom ≤ p.coefficient / 10

/-- `isDigitOrGap c` holds for what may stand in a numeral behind its decimal places. -/
def isDigitOrGap (c : Char) : Bool :=
  c.isDigit || c == '_'

/-- Ends the numeral in front of characters it has no room for. They must all be digits and
underscores, and the first one rounds. A long numeral passes over underscores to the digit behind
them; in a shorter one an underscore counts as a zero. -/
def Progress.close (p : Progress) (negative : Bool) (text : List Char) : Option Decimal :=
  if text.all isDigitOrGap then
    match if p.isLong then text.dropWhile (· == '_') else text with
    | [] => p.finish negative
    | c :: _ => if c.isDigit then p.roundOff negative (Digits.digitValue c) else p.finish negative
  else none

/-- The numeral with one more digit, if its coefficient still fits. -/
def Progress.push? (p : Progress) (digit : Nat) : Option Progress :=
  let coefficient := 10 * p.coefficient + digit
  if coefficient < coefficientBound then
    some
      { coefficient := coefficient
        places := if p.pointSeen then p.places + 1 else 0
        pointSeen := p.pointSeen
        digitSeen := true }
  else none

/-- Reads the digits of a numeral. An underscore may stand behind any of them. -/
def readFrom? (negative : Bool) (p : Progress) : List Char → Option Decimal
  | [] => p.finish negative
  | c :: rest =>
    if p.places = maxScale then p.close negative (c :: rest)
    else if c.isDigit then
      match p.push? (Digits.digitValue c) with
      | some p => readFrom? negative p rest
      | none => if p.pointSeen then p.close negative (c :: rest) else none
    else if c = '.' ∧ p.pointSeen = false then readFrom? negative { p with pointSeen := true } rest
    else if c = '_' ∧ p.digitSeen = true then readFrom? negative p rest
    else none

/-- Reads a positional numeral with an optional sign. -/
def readPlain? : List Char → Option Decimal
  | '-' :: rest => readFrom? true ⟨0, 0, false, false⟩ rest
  | '+' :: rest => readFrom? false ⟨0, 0, false, false⟩ rest
  | text => readFrom? false ⟨0, 0, false, false⟩ text

/-- The decimal with another scale. -/
def withScale? (d : Decimal) (scale : Nat) : Option Decimal :=
  ofParts? d.negative d.coefficient scale

/-- Moves the point `places` to the right. -/
def moveRight? (d : Decimal) (places : Nat) : Option Decimal :=
  if places ≤ d.scale then d.withScale? (d.scale - places)
  else if maxScale < places then none
  else do
    let power ← ofParts? false (tenPow places) 0
    let product ← d.mul? power
    return product.normalize

/-- Moves the point `places` to the left. -/
def moveLeft? (d : Decimal) (places : Nat) : Option Decimal :=
  if maxScale < places then none else d.withScale? (d.scale + places)

/-- `isExponentMark c` holds for the letter between a numeral and its exponent. -/
def isExponentMark (c : Char) : Bool :=
  c == 'e' || c == 'E'

/-- Reads a numeral with an exponent. -/
def readScientific? (text : List Char) : Option Decimal := do
  let base ← readPlain? (text.takeWhile (!isExponentMark ·))
  match (text.dropWhile (!isExponentMark ·)).drop 1 with
  | '-' :: exponent => base.moveLeft? (← Digits.unsigned? exponent)
  | exponent => base.moveRight? (← Digits.unsigned? exponent)

/-- Reads a decimal in either notation. There is none when the value does not fit. -/
def read? (text : List Char) : Option Decimal :=
  if text.any isExponentMark then readScientific? text else readPlain? text

end RecordQuery.Decimal
