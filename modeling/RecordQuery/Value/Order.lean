import RecordQuery.Value.Text
import RecordQuery.Name
/-!
# Comparing values

`compare?` relates the values that have a meaningful order: numbers of any form by value, texts,
booleans, identifiers and timestamps among themselves, and a text with a typed value that it can be
read as. `agrees` is equality with the same coercions, extended to points, arrays and objects.
`sortCompare` decides between any two values: where `compare?` has no answer, the types are ranked,
with null first.
-/

namespace RecordQuery.Value

/-- The text of a boolean. -/
def booleanText (b : Bool) : String :=
  if b then "true" else "false"

/-- Compares two values as numbers: exactly if both are exact, and otherwise in the binary format. -/
def compareNumbers? : Value → Value → Option Ordering
  | .integer a, .integer b => some (Ord.compare a.toInt b.toInt)
  | a, b =>
    match a.toDecimal?, b.toDecimal? with
    | some x, some y => some (x.compare y)
    | _, _ =>
      match a.toFloat?, b.toFloat? with
      | some x, some y => Binary64.compare? x y
      | _, _ => none

/-- The order of two values that have one. -/
def compare? : Value → Value → Option Ordering
  | .null, .null => some .eq
  | .string a, .string b => some (Ord.compare a b)
  | .boolean a, .boolean b => some (Ord.compare a b)
  | .uuid a, .uuid b => some (a.compare b)
  | .date a, .date b => some (a.compare b)
  | .string s, .uuid u => (Uuid.read? s).map fun v => v.compare u
  | .uuid u, .string s => (Uuid.read? s).map fun v => u.compare v
  | .string s, .date t => (Timestamp.read? s).map fun v => v.compare t
  | .date t, .string s => (Timestamp.read? s).map fun v => t.compare v
  | .boolean b, .string s => some (Ord.compare (booleanText b) (Name.lower s))
  | .string s, .boolean b => some (Ord.compare (Name.lower s) (booleanText b))
  | a, b => compareNumbers? a b

/-- `textIsPoint s p` holds when the text is that of a point with the same coordinates. -/
def textIsPoint (s : String) (p : Point) : Bool :=
  (Point.read? s).any fun q => q.sameValue p

mutual

/-- Equality of values, with coercion. Arrays agree item by item and objects field by field. -/
def agrees : Value → Value → Bool
  | .array a, .array b => agreeItems a b
  | .object a, .object b => a.length == b.length && agreeFields a b
  | .point p, .point q => p.sameValue q
  | .point p, .string s => textIsPoint s p
  | .string s, .point p => textIsPoint s p
  | a, b => compare? a b == some .eq
termination_by structural v => v

/-- `agreeItems a b` holds when both have the same length and agree item by item. -/
def agreeItems : List Value → List Value → Bool
  | [], [] => true
  | v :: vs, w :: ws => agrees v w && agreeItems vs ws
  | _, _ => false
termination_by structural vs => vs

/-- `agreeFields a b` holds when every field of `a` is a field of `b` with a value that agrees. -/
def agreeFields : List (String × Value) → List (String × Value) → Bool
  | [], _ => true
  | (k, v) :: rest, b =>
    (match field? b k with
      | some w => agrees v w
      | none => false) && agreeFields rest b
termination_by structural fs => fs

end

/-- The rank of a type where values of two types are sorted. -/
def sortRank : Value → Nat
  | .null => 0
  | .boolean _ => 1
  | .integer _ => 2
  | .decimal _ => 2
  | .float _ => 2
  | .string _ => 3
  | .uuid _ => 4
  | .date _ => 5
  | .point _ => 6
  | .array _ => 7
  | .object _ => 8

/-- The order in which values are sorted. -/
def sortCompare (a b : Value) : Ordering :=
  (compare? a b).getD (Ord.compare a.sortRank b.sortRank)

end RecordQuery.Value
