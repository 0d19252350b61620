import RecordQuery.Value.Order
/-!
# The order of values

Comparing two values the other way round gives the opposite answer, whatever their types
(`Value.sortCompare_swap`). Transitivity is another matter: a text is compared with a typed value as what it
can be read as, and an exact number with a binary one in the binary format, so three values need not be in
one line.
-/

namespace RecordQuery

namespace Decimal

theorem signed_ofInt64 (n : Int64) : (ofInt64 n).signed = n.toInt := by
  simp only [signed, ofInt64, decide_eq_true_eq]
  split <;> omega

/-- Whole decimals are in the order of the integers. -/
theorem compare_ofInt64 (m n : Int64) :
    (ofInt64 m).compare (ofInt64 n) = Ord.compare m.toInt n.toInt := by
  have hone : ((tenPow 0 : Nat) : Int) = 1 := rfl
  show Ord.compare ((ofInt64 m).signed * tenPow 0) ((ofInt64 n).signed * tenPow 0) = _
  rw [signed_ofInt64, signed_ofInt64, hone, Int.mul_one, Int.mul_one]

theorem compare_swap (a b : Decimal) : b.compare a = (a.compare b).swap :=
  Std.OrientedOrd.eq_swap

end Decimal

theorem Uuid.compare_swap (a b : Uuid) : b.compare a = (a.compare b).swap :=
  Std.OrientedOrd.eq_swap

theorem Timestamp.compare_swap (a b : Timestamp) : b.compare a = (a.compare b).swap :=
  Std.OrientedOrd.eq_swap

theorem Binary64.compare?_swap (x y : Float) : compare? y x = (compare? x y).map Ordering.swap := by
  unfold compare?
  cases orderKey x with
  | none => cases orderKey y <;> rfl
  | some a =>
      cases orderKey y with
      | none => rfl
      | some b => exact congrArg some Std.OrientedOrd.eq_swap

namespace Value

/-- Numbers are compared as decimals where both are exact, integers among them, and else in the binary
format. -/
theorem compareNumbers?_eq (a b : Value) : compareNumbers? a b =
    match a.toDecimal?, b.toDecimal? with
    | some x, some y => some (x.compare y)
    | _, _ =>
      match a.toFloat?, b.toFloat? with
      | some x, some y => Binary64.compare? x y
      | _, _ => none := by
  unfold compareNumbers?
  split
  next m n =>
    show some (Ord.compare m.toInt n.toInt) = some ((Decimal.ofInt64 m).compare (Decimal.ofInt64 n))
    rw [Decimal.compare_ofInt64]
  next => rfl

theorem compareNumbers?_swap (a b : Value) :
    compareNumbers? b a = (compareNumbers? a b).map Ordering.swap := by
  have hfloats : ∀ x? y? : Option Float,
      (match y?, x? with
        | some y, some x => Binary64.compare? y x
        | _, _ => none) =
      (match x?, y? with
        | some x, some y => Binary64.compare? x y
        | _, _ => none).map Ordering.swap := by
    rintro (_ | x) (_ | y)
    · rfl
    · rfl
    · rfl
    · exact Binary64.compare?_swap x y
  rw [compareNumbers?_eq, compareNumbers?_eq]
  cases a.toDecimal? with
  | none => cases b.toDecimal? <;> exact hfloats a.toFloat? b.toFloat?
  | some x =>
      cases b.toDecimal? with
      | none => exact hfloats a.toFloat? b.toFloat?
      | some y => exact congrArg some (x.compare_swap y)

/-- Values that are compared have the opposite order the other way round. -/
theorem compare?_swap (a b : Value) : compare? b a = (compare? a b).map Ordering.swap := by
  -- a text that can be read is compared as what it is read as, on either side
  have hread : ∀ {α : Type} (read? : Option α) {f g : α → Ordering}, (∀ v, g v = (f v).swap) →
      read?.map g = (read?.map f).map Ordering.swap := by
    intro α read? f g h
    cases read? with
    | none => rfl
    | some v => exact congrArg some (h v)
  have hnumbers : compare? a b = compareNumbers? a b → compare? b a = compareNumbers? b a →
      compare? b a = (compare? a b).map Ordering.swap := by
    intro hab hba
    rw [hab, hba, compareNumbers?_swap]
  cases a <;> cases b
  case null.null => rfl
  case string.string => exact congrArg some Std.OrientedOrd.eq_swap
  case boolean.boolean => exact congrArg some Std.OrientedOrd.eq_swap
  case boolean.string => exact congrArg some Std.OrientedOrd.eq_swap
  case string.boolean => exact congrArg some Std.OrientedOrd.eq_swap
  case uuid.uuid u v => exact congrArg some (u.compare_swap v)
  case date.date t u => exact congrArg some (t.compare_swap u)
  case string.uuid s u => exact hread (Uuid.read? s) fun v => v.compare_swap u
  case uuid.string u s => exact hread (Uuid.read? s) fun v => u.compare_swap v
  case string.date s t => exact hread (Timestamp.read? s) fun v => v.compare_swap t
  case date.string t s => exact hread (Timestamp.read? s) fun v => t.compare_swap v
  all_goals exact hnumbers rfl rfl

/-- Any two values are sorted alike from both sides. -/
theorem sortCompare_swap (a b : Value) : b.sortCompare a = (a.sortCompare b).swap := by
  rw [sortCompare, sortCompare, compare?_swap a b]
  cases compare? a b with
  | none => exact Std.OrientedOrd.eq_swap
  | some ordering => rfl

end Value

end RecordQuery
