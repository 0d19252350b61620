import RecordQuery.Literal.Basic
import RecordQuery.Decimal.Text
/-!
# Typing a literal

A literal is typed once, from its text. The stricter forms are tried first: `NULL`, an identifier of
128 bits, an integer, another number, a point, a timestamp; whatever is none of these is a string.
Text in quotes is only ever a point, a timestamp or a string, so quoted digits stay a string.

A number that is no 64-bit integer is a decimal if the decimal range holds it, and otherwise the
nearest number of the 64-bit binary format.
-/

namespace RecordQuery.Literal

/-- From this magnitude on a number is not held as a decimal. -/
def decimalCeiling : Float :=
  Binary64.ofDecimal false 79 27

/-- Below this magnitude a number other than zero is not held as a decimal. -/
def decimalFloor : Float :=
  Binary64.ofDecimal false 1 (-28)

/-- `exceedsDecimal x` holds when the magnitude of `x` is outside the decimal range, or `x` is not
finite. -/
def exceedsDecimal (x : Float) : Bool :=
  let magnitude := Binary64.magnitudeBits x
  Binary64.magnitudeBits decimalCeiling ≤ magnitude ||
    (magnitude != 0 && magnitude < Binary64.magnitudeBits decimalFloor)

/-! ## Numerals -/

/-- The two forms in which a number is written. -/
inductive NumeralForm where
  /-- digits only -/
  | whole
  /-- with a fraction, an exponent or both -/
  | fractional
deriving DecidableEq, Repr

/-- `isExponent text` holds for a mark, an optional sign and at least one digit. -/
def isExponent : List Char → Bool
  | mark :: '+' :: digits => Decimal.isExponentMark mark && (Digits.natural? digits).isSome
  | mark :: '-' :: digits => Decimal.isExponentMark mark && (Digits.natural? digits).isSome
  | mark :: digits => Decimal.isExponentMark mark && (Digits.natural? digits).isSome
  | [] => false

/-- The form of an unsigned numeral, if the text is one. -/
def unsignedForm? (text : List Char) : Option NumeralForm :=
  let (whole, rest) := Digits.split text
  if whole.isEmpty then none
  else
    match rest with
    | [] => some .whole
    | '.' :: rest =>
      let (fraction, rest) := Digits.split rest
      if !fraction.isEmpty && (rest.isEmpty || isExponent rest) then some .fractional else none
    | rest => if isExponent rest then some .fractional else none

/-- The form of a numeral with an optional minus sign, if the text is one. -/
def numeralForm? : List Char → Option NumeralForm
  | '-' :: text => unsignedForm? text
  | text => unsignedForm? text

/-- The integer that a numeral of digits with an optional minus sign stands for. -/
def wholeValue : List Char → Int
  | '-' :: digits => -(Digits.value digits : Int)
  | digits => Digits.value digits

/-- Types a numeral that is no 64-bit integer. -/
def ofNumeral (text : List Char) : Literal :=
  match Binary64.read? text with
  | none => .string (String.ofList text)
  | some x =>
    if exceedsDecimal x then .float x
    else
      match Decimal.read? text with
      | some d => .decimal d
      | none => .float x

/-- Types a numeral of digits only. -/
def ofWhole (text : List Char) : Literal :=
  match integer64? (wholeValue text) with
  | some n => .integer n
  | none => ofNumeral text

/-! ## Quoted and unquoted text -/

/-- Types a text that stood in quotes. -/
def ofQuoted (text : String) : Literal :=
  match Point.read? text with
  | some p => .point p
  | none =>
    match Timestamp.read? text with
    | some t => .date t
    | none => .string text

/-- Replaces each two quotes by one, from the left. -/
def halveQuotes (quote : Char) : List Char → List Char
  | [] => []
  | [c] => [c]
  | c :: d :: rest =>
    if c = quote ∧ d = quote then quote :: halveQuotes quote rest
    else c :: halveQuotes quote (d :: rest)

/-- The content of a text wrapped in quotes of one kind. -/
def unquote? : List Char → Option (List Char)
  | quote :: rest =>
    if (quote = '\'' ∨ quote = '"') ∧ rest.getLast? = some quote then
      some (halveQuotes quote rest.dropLast)
    else none
  | [] => none

/-- Types a text without quotes that has no white space around it. -/
def ofBare (text : List Char) : Literal :=
  if text.map Char.toLower = "null".toList then .null
  else if Uuid.isGrouped text then
    match Uuid.readGrouped? text with
    | some u => .uuid u
    | none => .string (String.ofList text)
  else
    match numeralForm? text with
    | some .whole => ofWhole text
    | some .fractional => ofNumeral text
    | none => ofQuoted (String.ofList text)

/-- Types the text of a literal, with white space and quotes around it or not. -/
def ofText (raw : String) : Literal :=
  let text := Unicode.trim raw.toList
  match unquote? text with
  | some inner => ofQuoted (String.ofList inner)
  | none => ofBare text

end RecordQuery.Literal
