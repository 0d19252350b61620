import RecordQuery.Json.Basic
import RecordQuery.Number.Integer
/-!
# Reading JSON

A reader for the JSON grammar over a list of characters. Beyond the grammar it refuses a document
nested more than 127 deep, an escape that names half of a surrogate pair, and a number whose
magnitude is past the largest one of the binary format. An integer that does not fit 64 bits is read
in the binary format, and so is minus zero.

A number of the binary format is not always the one nearest to what is written: as many digits as fit 64
bits without a sign are converted, and the result is multiplied or divided by a power of ten, which rounds
again.
-/

namespace RecordQuery.Json

/-- `isSpace c` holds for the four characters that may stand between the parts of a document. -/
def isSpace (c : Char) : Bool :=
  c == ' ' || c == '\t' || c == '\n' || c == '\r'

/-- The text without the space in front. -/
def skipSpace (text : List Char) : List Char :=
  text.dropWhile isSpace

/-! ## Strings -/

/-- A part of a string: a character, or a number of sixteen bits that an escape gives. -/
inductive Piece where
  | char (c : Char)
  | unit (n : Nat)
deriving DecidableEq, Repr

/-- The value of a hexadecimal digit. -/
def hexDigit? (c : Char) : Option Nat :=
  if c.isDigit then some (c.toNat - 48)
  else if 'a' ≤ c ∧ c ≤ 'f' then some (c.toNat - 87)
  else if 'A' ≤ c ∧ c ≤ 'F' then some (c.toNat - 55)
  else none

/-- The value of four hexadecimal digits. -/
def hexUnit? (a b c d : Char) : Option Nat := do
  return (((← hexDigit? a) * 16 + (← hexDigit? b)) * 16 + (← hexDigit? c)) * 16 + (← hexDigit? d)

/-- The character that a one-letter escape stands for. -/
def escaped? : Char → Option Char
  | '"' => some '"'
  | '\\' => some '\\'
  | '/' => some '/'
  | 'b' => some '\x08'
  | 'f' => some '\x0c'
  | 'n' => some '\n'
  | 'r' => some '\r'
  | 't' => some '\t'
  | _ => none

/-- The parts of a string up to its closing quote, and the text behind that. -/
def pieces? : List Char → Option (List Piece × List Char)
  | [] => none
  | '"' :: rest => some ([], rest)
  | '\\' :: 'u' :: a :: b :: c :: d :: rest => do
    let n ← hexUnit? a b c d
    let (pieces, rest) ← pieces? rest
    return (.unit n :: pieces, rest)
  | '\\' :: c :: rest => do
    let e ← escaped? c
    let (pieces, rest) ← pieces? rest
    return (.char e :: pieces, rest)
  | c :: rest =>
    if c.toNat < 32 || c == '\\' then none
    else do
      let (pieces, rest) ← pieces? rest
      return (.char c :: pieces, rest)

/-- The characters of a string. The two halves of a surrogate pair give one character, and a half
without the other gives none. -/
def characters? : List Piece → Option (List Char)
  | [] => some []
  | .char c :: rest => (characters? rest).map (c :: ·)
  | .unit high :: .unit low :: rest =>
    if 0xD800 ≤ high ∧ high < 0xDC00 then
      if 0xDC00 ≤ low ∧ low < 0xE000 then
        (characters? rest).map
          (Char.ofNat (0x10000 + (high - 0xD800) * 0x400 + (low - 0xDC00)) :: ·)
      else none
    else if 0xDC00 ≤ high ∧ high < 0xE000 then none
    else (characters? (.unit low :: rest)).map (Char.ofNat high :: ·)
  | .unit n :: rest =>
    if 0xD800 ≤ n ∧ n < 0xE000 then none else (characters? rest).map (Char.ofNat n :: ·)

/-- A string behind its opening quote. -/
def string? (text : List Char) : Option (String × List Char) := do
  let (pieces, rest) ← pieces? text
  return (String.ofList (← characters? pieces), rest)

/-! ## Numbers -/

/-- The exponent in front, which may be missing, and the text behind it. -/
def exponent? : List Char → Option (Option Int × List Char)
  | mark :: rest =>
    if mark = 'e' ∨ mark = 'E' then
      let (negative, rest) :=
        match rest with
        | '-' :: rest => (true, rest)
        | '+' :: rest => (false, rest)
        | rest => (false, rest)
      let (digits, rest) := Digits.split rest
      if digits.isEmpty then none
      else
        let n : Int := Digits.value digits
        some (some (if negative then -n else n), rest)
    else some (none, mark :: rest)
  | [] => some (none, [])

/-- The fraction in front, which may be missing, and the text behind it. -/
def fraction? : List Char → Option (List Char × List Char)
  | '.' :: rest =>
    let (digits, rest) := Digits.split rest
    if digits.isEmpty then none else some (digits, rest)
  | text => some ([], text)

/-- The number of `n` with the digits in front behind it, as many as fit 64 bits without a sign, and the
digits that are left. -/
def significand (n : Nat) : List Char → Nat × List Char
  | [] => (n, [])
  | c :: rest =>
    let next := 10 * n + Digits.digitValue c
    if next < 18446744073709551616 then significand next rest else (n, c :: rest)

/-- The power of ten in the binary format; up to 308 it is finite. -/
def tenPowFloat (n : Nat) : Float :=
  Binary64.ofDecimal false 1 n

/-- A number divided by the 308th power of ten as often as told, unless it becomes zero before. -/
def divideDown : (times : Nat) → Float → Float
  | 0, x => x
  | times + 1, x => if Binary64.isZero x then x else divideDown times (x / tenPowFloat 308)

/-- A number times a power of ten. For a negative power it is divided, by 308 places at a time. -/
def timesTenPow (x : Float) (exponent : Int) : Float :=
  if exponent = 0 then x
  else if 0 < exponent then
    if exponent ≤ 308 then x * tenPowFloat exponent.toNat
    else if Binary64.isZero x then x
    else Binary64.infinity (Binary64.isNegative x)
  else
    let places := exponent.natAbs
    let times := (places - 1) / 308
    divideDown times x / tenPowFloat (places - 308 * times)

/-- A number of the binary format, from its digits in front of the point and behind it and its exponent; one
past the largest is refused. A digit that is left in front of the point counts for the exponent. -/
def finite? (negative : Bool) (whole fraction : List Char) (exponent : Int) : Option Json :=
  let (n, left) := significand 0 whole
  let (n, leftBehind) := significand n fraction
  let x := timesTenPow (Binary64.ofRatio negative n 1)
    (exponent + left.length - (fraction.length - leftBehind.length : Nat))
  if Binary64.isFinite x then some (.float x) else none

/-- An unsigned number and the text behind it. -/
def number? (negative : Bool) (text : List Char) : Option (Json × List Char) := do
  let (whole, rest) := Digits.split text
  if whole.isEmpty || (whole.length != 1 && whole.head? == some '0') then none
  else
    let (fraction, rest) ← fraction? rest
    let (exponent, rest) ← exponent? rest
    let magnitude := Digits.value whole
    let signed : Int := if negative then -(magnitude : Int) else magnitude
    let isInteger := fraction.isEmpty && exponent.isNone && !(negative && magnitude == 0)
    match if isInteger then integer64? signed else none with
    | some n => return (.integer n, rest)
    | none =>
      let x ← finite? negative whole fraction (exponent.getD 0)
      return (x, rest)

/-! ## Documents -/

mutual

/-- A document in front of a text, and the text behind it. It may hold arrays and objects nested
`depth` deep. -/
def document? : (fuel depth : Nat) → List Char → Option (Json × List Char)
  | 0, _, _ => none
  | fuel + 1, depth, text =>
    match skipSpace text with
    | 'n' :: 'u' :: 'l' :: 'l' :: rest => some (.null, rest)
    | 't' :: 'r' :: 'u' :: 'e' :: rest => some (.boolean true, rest)
    | 'f' :: 'a' :: 'l' :: 's' :: 'e' :: rest => some (.boolean false, rest)
    | '"' :: rest => (string? rest).map fun (s, rest) => (.string s, rest)
    | '[' :: rest =>
      match depth with
      | 0 => none
      | depth + 1 =>
        match skipSpace rest with
        | ']' :: rest => some (.array [], rest)
        | rest => (items? fuel depth rest).map fun (items, rest) => (.array items, rest)
    | '\x7b' :: rest =>
      match depth with
      | 0 => none
      | depth + 1 =>
        match skipSpace rest with
        | '\x7d' :: rest => some (.object [], rest)
        | rest => (fields? fuel depth rest).map fun (fields, rest) => (ofFields fields, rest)
    | '-' :: rest => number? true rest
    | rest => number? false rest
termination_by structural fuel => fuel

/-- The items of an array up to its closing bracket; there is at least one. -/
def items? : (fuel depth : Nat) → List Char → Option (List Json × List Char)
  | 0, _, _ => none
  | fuel + 1, depth, text => do
    let (item, rest) ← document? fuel depth text
    match skipSpace rest with
    | ']' :: rest => return ([item], rest)
    | ',' :: rest =>
      let (items, rest) ← items? fuel depth rest
      return (item :: items, rest)
    | _ => none
termination_by structural fuel => fuel

/-- The fields of an object up to its closing brace; there is at least one. -/
def fields? : (fuel depth : Nat) → List Char → Option (List (String × Json) × List Char)
  | 0, _, _ => none
  | fuel + 1, depth, text =>
    match skipSpace text with
    | '"' :: rest => do
      let (key, rest) ← string? rest
      match skipSpace rest with
      | ':' :: rest =>
        let (value, rest) ← document? fuel depth rest
        match skipSpace rest with
        | '\x7d' :: rest => return ([(key, value)], rest)
        | ',' :: rest =>
          let (fields, rest) ← fields? fuel depth rest
          return ((key, value) :: fields, rest)
        | _ => none
      | _ => none
    | _ => none
termination_by structural fuel => fuel

end

/-- How deep arrays and objects may be nested. -/
def maxDepth : Nat := 127

/-- Reads a document with nothing behind it but space. Every character is the start of at most two
calls, which bounds the work. -/
def read? (text : String) : Option Json := do
  let (document, rest) ← document? (2 * text.toList.length + 2) maxDepth text.toList
  if (skipSpace rest).isEmpty then some document else none

end RecordQuery.Json
