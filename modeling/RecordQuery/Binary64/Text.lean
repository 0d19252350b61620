import RecordQuery.Binary64.Shortest
/-!
# Text of binary numbers

`scientific` writes the shortest digits with one digit before the point and an exponent behind the
mark `E`: `1E40`, `-1.5E-30`, `0E0`. `plain` writes the magnitudes between a given power of ten and
`1e16` without an exponent. `read?` reads a decimal numeral, or the name of a special value, as the nearest number.
-/

namespace RecordQuery.Binary64

/-- The sign in front of a text. -/
def signText (negative : Bool) : String :=
  if negative then "-" else ""

/-- Digits with a point behind the first one. -/
def pointed : List Char → List Char
  | [] => []
  | [d] => [d]
  | d :: rest => d :: '.' :: rest

/-- `d.ddEn`, for the shortest digits of a nonzero number. -/
def exponential (mark : Char) (d : Decimals) : String :=
  let digits := Digits.render d.digits
  let exponent := d.exponent + digits.length - 1
  String.ofList (pointed digits) ++ String.ofList [mark] ++ toString exponent

/-- The number as text with the given exponent mark. -/
def exponentText (mark : Char) (x : Float) : String :=
  match shape x with
  | .nan => "NaN"
  | .infinite negative => signText negative ++ "inf"
  | .finite negative significand exponent =>
    signText negative ++
      (if significand = 0 then String.ofList ['0', mark, '0']
      else exponential mark (shortest significand exponent))

/-- The text of a number wherever one is shown: shortest digits and a capital mark. -/
def scientific (x : Float) : String :=
  exponentText 'E' x

/-- Digits in positional notation, with at least one digit on each side of the point. -/
def positional (d : Decimals) : String :=
  let digits := Digits.render d.digits
  if 0 ≤ d.exponent then
    String.ofList (digits ++ List.replicate d.exponent.toNat '0') ++ ".0"
  else
    let places := (-d.exponent).toNat
    let filled := List.replicate (places + 1 - digits.length) '0' ++ digits
    String.ofList (filled.take (filled.length - places)) ++ "." ++
      String.ofList (filled.drop (filled.length - places))

/-- The number in positional notation if its leading digit stands for `10 ^ lowest` or more and for
less than `10 ^ 16`, and otherwise with an exponent. -/
def plain (lowest : Int) (x : Float) : String :=
  match shape x with
  | .finite negative significand exponent =>
    let d := shortest significand exponent
    let leading := d.exponent + Digits.count d.digits - 1
    if significand = 0 then signText negative ++ "0.0"
    else if lowest ≤ leading ∧ leading < 16 then signText negative ++ positional d
    else exponentText 'e' x
  | _ => exponentText 'e' x

/-! ## Reading -/

/-- An exponent: a sign and at least one digit, with nothing behind. -/
def readExponent? : List Char → Option Int
  | '-' :: text => (Digits.natural? text).map fun n => -(n : Int)
  | '+' :: text => (Digits.natural? text).map fun n => (n : Int)
  | text => (Digits.natural? text).map fun n => (n : Int)

/-- A numeral without sign: digits with an optional point, at least one digit, then an optional
exponent. -/
def readMagnitude? (negative : Bool) (text : List Char) : Option Float :=
  let (whole, rest) := Digits.split text
  let (fraction, rest) :=
    match rest with
    | '.' :: behind => Digits.split behind
    | rest => ([], rest)
  let digits := Digits.value (whole ++ fraction)
  if whole.isEmpty && fraction.isEmpty then none
  else
    match rest with
    | [] => some (ofDecimal negative digits (-(fraction.length : Int)))
    | mark :: text =>
      if mark = 'e' ∨ mark = 'E' then
        (readExponent? text).map fun e => ofDecimal negative digits (e - fraction.length)
      else none

/-- A numeral or a special value, without sign. -/
def readUnsigned? (negative : Bool) (text : List Char) : Option Float :=
  let name := text.map Char.toLower
  if name = "inf".toList ∨ name = "infinity".toList then some (infinity negative)
  else if name = "nan".toList then some (0.0 / 0.0)
  else readMagnitude? negative text

/-- The number that a text stands for, rounded to the nearest one. -/
def read? : List Char → Option Float
  | '-' :: text => readUnsigned? true text
  | '+' :: text => readUnsigned? false text
  | text => readUnsigned? false text

end RecordQuery.Binary64
