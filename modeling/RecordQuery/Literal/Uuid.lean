/-!
# Identifiers of 128 bits

An identifier is written as 32 hexadecimal digits in groups of 8, 4, 4, 4 and 12 with hyphens between
them. Reading also takes the digits without hyphens, the grouped form in braces, and the grouped form
behind `urn:uuid:`; digits of either case are read and small ones are written.
-/

namespace RecordQuery

/-- An identifier of 128 bits. -/
structure Uuid where
  bits : BitVec 128
deriving DecidableEq, Repr

namespace Uuid

/-- Orders identifiers as their texts. -/
def compare (a b : Uuid) : Ordering :=
  Ord.compare a.bits.toNat b.bits.toNat

/-- The value of a hexadecimal digit of either case. -/
def hexValue? (c : Char) : Option Nat :=
  if c.isDigit then some (c.toNat - '0'.toNat)
  else if 'a' ≤ c ∧ c ≤ 'f' then some (c.toNat - 'a'.toNat + 10)
  else if 'A' ≤ c ∧ c ≤ 'F' then some (c.toNat - 'A'.toNat + 10)
  else none

/-- `isHex c` holds for the hexadecimal digits. -/
def isHex (c : Char) : Bool :=
  (hexValue? c).isSome

/-- The small hexadecimal digits of the identifier, 32 of them. -/
def hexDigits (u : Uuid) : List Char :=
  let digits := Nat.toDigits 16 u.bits.toNat
  List.replicate (32 - digits.length) '0' ++ digits

/-- Puts hyphens between the groups. -/
def grouped (digits : List Char) : List Char :=
  digits.take 8 ++ '-' :: (digits.drop 8).take 4 ++ '-' :: (digits.drop 12).take 4 ++
    '-' :: (digits.drop 16).take 4 ++ '-' :: digits.drop 20

/-- The text of an identifier. -/
def render (u : Uuid) : String :=
  String.ofList (grouped u.hexDigits)

/-! ## Reading -/

/-- Reads 32 digits without hyphens. -/
def readDigits? (text : List Char) : Option Uuid :=
  if text.length = 32 then
    (text.mapM hexValue?).map fun values =>
      ⟨BitVec.ofNat 128 (values.foldl (fun n v => 16 * n + v) 0)⟩
  else none

/-- `isGrouped text` holds for 36 characters with hyphens exactly between the groups and
hexadecimal digits elsewhere. -/
def isGrouped (text : List Char) : Bool :=
  let digits := text.filter (· != '-')
  text.length == 36 && digits.length == 32 && digits.all isHex && text == grouped digits

/-- Reads the form with hyphens. -/
def readGrouped? (text : List Char) : Option Uuid :=
  if isGrouped text then readDigits? (text.filter (· != '-')) else none

/-- Reads any of the four forms. -/
def read? (text : String) : Option Uuid :=
  let cs := text.toList
  if cs.length = 32 then readDigits? cs
  else if cs.length = 38 ∧ cs.head? = some '{' ∧ cs.getLast? = some '}' then
    readGrouped? ((cs.drop 1).take 36)
  else if cs.length = 45 ∧ (cs.take 9).map Char.toLower = "urn:uuid:".toList then
    readGrouped? (cs.drop 9)
  else readGrouped? cs

end Uuid

end RecordQuery
