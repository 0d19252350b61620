import RecordQuery.Predicate.Basic
import RecordQuery.Value.Order
/-!
# What the operators mean

`compareValues` decides a comparison of two values. Null is equal to null alone, is in nothing, and
compares as neither less nor greater; a value that is not null differs from null, but null does not
differ from anything. Membership looks into whichever side is a collection, the left one first.
-/

namespace RecordQuery

/-- `isMember field target` holds when a value is in a collection. A collection on the left is searched
for the right side, or for any item of it; otherwise a collection on the right is searched for the left
side. Keys stand for objects. Two scalars are compared. -/
def isMember (field target : Value) : Bool :=
  match field, target with
  | .null, _ => false
  | .object fields, .array keys => keys.any fun k => (Value.field? fields k.display).isSome
  | .object fields, key => (Value.field? fields key.display).isSome
  | .array items, .array wanted => wanted.any fun w => items.any fun i => i.agrees w
  | .array items, single => items.any fun i => i.agrees single
  | scalar, .array items => items.any fun i => i.agrees scalar
  | scalar, .object fields => (Value.field? fields scalar.display).isSome
  | scalar, single => scalar.agrees single

/-- `matchesText left right` holds when the text of the left value matches the pattern that the text of
the right one is. Null matches nothing. -/
def matchesText (left right : Value) : Bool :=
  match Pattern.ofText? right.display with
  | some p => !left.isNull && !right.isNull && p.isMatch left.display
  | none => false

/-- `compareValues op left right` decides a comparison. -/
def compareValues (op : CompareOp) (left right : Value) : Bool :=
  let eitherNull := left.isNull || right.isNull
  let ordered (holds : Ordering → Bool) : Bool := !eitherNull && (left.compare? right).any holds
  match op with
  | .equal => if eitherNull then left.isNull && right.isNull else left.agrees right
  | .notEqual => !left.isNull && (right.isNull || !left.agrees right)
  | .distinct => !left.isNull && (right.isNull || !left.agrees right)
  | .greater => ordered (· == .gt)
  | .greaterEqual => ordered (· != .lt)
  | .less => ordered (· == .lt)
  | .lessEqual => ordered (· != .gt)
  | .isIn => isMember left right
  | .like => matchesText left right

end RecordQuery
