/-!
# Numerals

Reading and writing natural numbers in base ten, over lists of characters. `value` reads a numeral
whatever stands in front of it in the line, `render` writes the shortest one, and `padded` fills it
up with zeros to a fixed width. Only the ten ASCII digits are digits here.
-/

namespace RecordQuery.Digits

/-- The number a digit stands for. -/
def digitValue (c : Char) : Nat :=
  c.toNat - '0'.toNat

/-- The number that a list of digits stands for, most significant digit first. -/
def value (digits : List Char) : Nat :=
  digits.foldl (fun n c => 10 * n + digitValue c) 0

/-- The digits of a number, without leading zeros. -/
def render (n : Nat) : List Char :=
  Nat.toDigits 10 n

/-- How many digits a number has; zero has one. -/
def count (n : Nat) : Nat :=
  (render n).length

/-- The digits of a number, filled with zeros in front up to `width`. -/
def padded (width n : Nat) : List Char :=
  List.replicate (width - count n) '0' ++ render n

/-- The digits in front, and what follows them. -/
def split (text : List Char) : List Char × List Char :=
  (text.takeWhile Char.isDigit, text.dropWhile Char.isDigit)

/-- The number written by a nonempty text of digits only. -/
def natural? (text : List Char) : Option Nat :=
  if !text.isEmpty && text.all Char.isDigit then some (value text) else none

/-- Like `natural?`, with one plus sign allowed in front. -/
def unsigned? : List Char → Option Nat
  | '+' :: text => natural? text
  | text => natural? text

/-- Splitting loses nothing. -/
theorem split_append (text : List Char) : (split text).1 ++ (split text).2 = text :=
  List.takeWhile_append_dropWhile

end RecordQuery.Digits
