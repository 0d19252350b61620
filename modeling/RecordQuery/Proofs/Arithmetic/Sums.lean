import RecordQuery.Proofs.Arithmetic.Whole
import RecordQuery.Proofs.Evaluation
import RecordQuery.Proofs.Results
import Mathlib.Algebra.BigOperators.Group.List.Basic
/-!
# Sums of integers

The sum of a group is taken value by value, and on the way it may leave the 64-bit integers, go on as a
decimal and come back. It stands for the exact sum of the integers so far all the same, in the smaller of the
two forms: each step is arithmetic on whole numbers (`Aggregate.addTo_whole`), and fewer than `2 ^ 32` integers
of 64 bits never reach 96 bits. So the result depends on the integers alone, and not on their order
(`sum_of_integers`).
-/

namespace RecordQuery

namespace Value

/-- `v.isSummand` holds for integers and for null. -/
def isSummand : Value → Bool
  | .null => true
  | .integer _ => true
  | _ => false

/-- What a value adds to a sum of integers; null adds nothing. -/
def summand : Value → Int
  | .integer n => n.toInt
  | _ => 0

/-- The exact sum of the integers among the values. -/
def exactSum (values : List Value) : Int :=
  (values.map summand).sum

variable {v : Value}

theorem eq_integer_of_isSummand (h : v.isSummand = true) (hnull : v.isNull = false) :
    ∃ i, v = .integer i := by
  cases v with
  | null => cases hnull
  | integer i => exact ⟨i, rfl⟩
  | _ => cases h

theorem natAbs_summand_le (v : Value) : v.summand.natAbs ≤ 2 ^ 63 := by
  cases v with
  | integer i =>
      have hlow := i.le_toInt
      have hhigh := i.toInt_lt
      show i.toInt.natAbs ≤ _
      omega
  | _ => exact Nat.zero_le _

theorem exactSum_cons (v : Value) (values : List Value) :
    exactSum (v :: values) = v.summand + exactSum values :=
  List.sum_cons

/-- Nulls do not count. -/
theorem exactSum_filter (values : List Value) :
    exactSum (values.filter fun v => !v.isNull) = exactSum values := by
  induction values with
  | nil => rfl
  | cons v values ih =>
      cases hnull : v.isNull with
      | true =>
          have hzero : v.summand = 0 := by
            cases v with
            | null => rfl
            | _ => cases hnull
          rw [List.filter_cons_of_neg (by rw [hnull]; decide), ih, exactSum_cons, hzero, Int.zero_add]
      | false => rw [List.filter_cons_of_pos (by rw [hnull]; decide), exactSum_cons, exactSum_cons, ih]

theorem exactSum_perm {values values' : List Value} (h : values'.Perm values) :
    exactSum values' = exactSum values :=
  (h.map summand).sum_eq

end Value

/-! ## Adding up -/

namespace Aggregate

open Value (exactSum)

/-- One integer more. -/
theorem addTo_whole (a : Aggregate) {n : Int} {total s : Value} {i : Int64}
    (htotal : Value.ofWhole? n = some total) (hs : Value.ofWhole? (n + i.toInt) = some s) :
    a.addTo total (.integer i) = .ok s := by
  show arithmetic .add total (.integer i) = .ok s
  exact arithmetic_whole rfl htotal (Value.ofWhole?_toInt i) hs

/-- The integers of a group are added to what there is, as long as 96 bits hold every sum on the way. -/
theorem foldlM_addTo_whole (a : Aggregate) {values : List Value}
    (hvalues : ∀ v ∈ values, ∃ i, v = .integer i) {n : Int} {total : Value}
    (htotal : Value.ofWhole? n = some total)
    (hbound : n.natAbs + values.length * 2 ^ 63 < Decimal.coefficientBound) :
    ∃ s, Value.ofWhole? (n + exactSum values) = some s ∧ values.foldlM (addTo a) total = .ok s := by
  induction values generalizing n total with
  | nil => exact ⟨total, by rw [← htotal]; exact congrArg _ (Int.add_zero n), rfl⟩
  | cons v values ih =>
      obtain ⟨i, rfl⟩ := hvalues v List.mem_cons_self
      have hi : i.toInt.natAbs ≤ 2 ^ 63 := (Value.integer i).natAbs_summand_le
      rw [List.length_cons] at hbound
      obtain ⟨next, hnext⟩ := Value.exists_ofWhole? (n := n + i.toInt) (by omega)
      obtain ⟨s, hs, hrest⟩ := ih (fun w hw => hvalues w (List.mem_cons_of_mem _ hw)) hnext (by omega)
      refine ⟨s, ?_, ?_⟩
      · rw [Value.exactSum_cons, ← Int.add_assoc]
        exact hs
      · rw [List.foldlM_cons, addTo_whole a htotal hnext]
        exact hrest

/-- The sum of values that are integers or null, of which not all are null. -/
theorem apply_sum_of_integers {values : List Value} (hvalues : ∀ v ∈ values, v.isSummand = true)
    (hsome : ∃ v ∈ values, v.isNull = false) (hlength : values.length < 2 ^ 32) :
    ∃ s, Value.ofWhole? (exactSum values) = some s ∧
      Aggregate.sum.apply (values.filter fun v => !v.isNull) = .ok s := by
  have hintegers : ∀ v ∈ values.filter fun v => !v.isNull, ∃ i, v = .integer i := by
    intro v hv
    obtain ⟨hmem, hnull⟩ := List.mem_filter.mp hv
    exact Value.eq_integer_of_isSummand (hvalues v hmem) (Bool.not_eq_true' _ ▸ hnull)
  have hne : (values.filter fun v => !v.isNull) ≠ [] := by
    obtain ⟨v, hv, hnull⟩ := hsome
    exact List.ne_nil_of_mem (List.mem_filter.mpr ⟨hv, by rw [hnull]; rfl⟩)
  have hfewer := List.length_filter_le (fun v : Value => !v.isNull) values
  obtain ⟨s, hs, htotal⟩ := foldlM_addTo_whole .sum hintegers (Value.ofWhole?_toInt 0) (by
    show 0 + _ < Decimal.coefficientBound
    unfold Decimal.coefficientBound
    omega)
  refine ⟨s, ?_, ?_⟩
  · rw [← Value.exactSum_filter, ← hs]
    exact congrArg _ (Int.zero_add _).symm
  · rw [apply, if_neg (by rw [List.isEmpty_iff]; exact hne)]
    exact htotal

end Aggregate

/-! ## The sum of a group -/

namespace Expr

variable {R : Type} {ctx : Context R} {e : Expr} {values : List Value}

/-- The sum of an expression is that of its values on the rows, the nulls left out. -/
theorem eval_sum (hstar : e ≠ .wildcard)
    (h : ctx.rows.mapM (fun row => e.eval (ctx.onRow row)) = .ok values) :
    (call "sum" [e]).eval ctx = Aggregate.sum.apply (values.filter fun v => !v.isNull) := by
  rw [eval_aggregate (a := .sum) rfl hstar, Context.collect, h]
  rfl

/-- **Sums of integers are exact.** Where an expression has values on fewer than `2 ^ 32` rows of a group,
which are integers or null, its sum is null if all of them are null. Otherwise it is the exact sum of the
integers, as an integer where 64 bits hold it and else as a decimal, whatever the sums are on the way. And the
rows in any other order have the same sum. The star has a value on no row, so it is only over no rows at all
that it has to be left out. -/
theorem sum_of_integers (hstar : e ≠ .wildcard)
    (hvalues : ctx.rows.mapM (fun row => e.eval (ctx.onRow row)) = .ok values)
    (hintegers : ∀ v ∈ values, v.isSummand = true) (hrows : ctx.rows.length < 2 ^ 32) :
    ((∀ v ∈ values, v.isNull = true) → (call "sum" [e]).eval ctx = .ok .null) ∧
      ((∃ v ∈ values, v.isNull = false) → ∃ s, Value.ofWhole? (Value.exactSum values) = some s ∧
        (call "sum" [e]).eval ctx = .ok s) ∧
      ∀ rows, rows.Perm ctx.rows →
        (call "sum" [e]).eval { ctx with rows := rows } = (call "sum" [e]).eval ctx := by
  have hlength : values.length < 2 ^ 32 := by
    rw [← (mapM_ok_iff.mp hvalues).length_eq]
    exact hrows
  have hnulls : ∀ {vs : List Value}, (∀ v ∈ vs, v.isNull = true) →
      Aggregate.sum.apply (vs.filter fun v => !v.isNull) = .ok .null := by
    intro vs hnull
    rw [List.filter_eq_nil_iff.mpr fun v hv => by rw [hnull v hv]; decide]
    rfl
  refine ⟨fun hnull => ?_, fun hsome => ?_, fun rows hperm => ?_⟩
  · rw [eval_sum hstar hvalues, hnulls hnull]
  · rw [eval_sum hstar hvalues]
    exact Aggregate.apply_sum_of_integers hintegers hsome hlength
  · obtain ⟨values', hvalues', hsame⟩ := mapM_perm hvalues hperm
    have hsum : (call "sum" [e]).eval { ctx with rows := rows } = _ :=
      eval_sum hstar hvalues'
    rw [hsum, eval_sum hstar hvalues]
    by_cases hnull : ∀ v ∈ values, v.isNull = true
    · rw [hnulls hnull, hnulls fun v hv => hnull v (hsame.mem_iff.mp hv)]
    · -- both are the value of one exact sum
      simp only [not_forall, Bool.not_eq_true] at hnull
      obtain ⟨v, hv, hvnull⟩ := hnull
      obtain ⟨s, hs, happly⟩ := Aggregate.apply_sum_of_integers hintegers ⟨v, hv, hvnull⟩ hlength
      obtain ⟨s', hs', happly'⟩ := Aggregate.apply_sum_of_integers
        (fun w hw => hintegers w (hsame.mem_iff.mp hw)) ⟨v, hsame.mem_iff.mpr hv, hvnull⟩
        (hsame.length_eq ▸ hlength)
      rw [Value.exactSum_perm hsame, hs] at hs'
      rw [happly, happly', Option.some.inj hs']

/-- A sum that leaves the 64-bit integers with the second row and comes back with the last one, and a sum that
stays outside. -/
theorem sum_of_integers_of_crossing :
    let rows : List Value := [.object [("x", .integer Int64.maxValue), ("y", .integer Int64.minValue)],
      .object [("x", .integer 2), ("y", .integer (-1))], .object [("x", .null), ("y", .null)],
      .object [("x", .integer (-7)), ("y", .integer 0)]]
    let ctx : Context Value := ⟨rows, .ofObjects, []⟩
    let x : Expr := .field ⟨none, "x"⟩
    let y : Expr := .field ⟨none, "y"⟩
    rows.length < 2 ^ 32 ∧
      (∃ values, rows.mapM (fun row => x.eval (ctx.onRow row)) = .ok values ∧
        (∀ v ∈ values, v.isSummand = true) ∧
        Value.exactSum values = 9223372036854775802) ∧
      (call "sum" [x]).eval ctx = .ok (.integer 9223372036854775802) ∧
      (call "sum" [x]).eval { ctx with rows := rows.reverse } = .ok (.integer 9223372036854775802) ∧
      (call "sum" [y]).eval ctx =
        .ok (.decimal ⟨true, 9223372036854775809, 0, by decide, by decide⟩) := by
  intro rows ctx x y
  have hrows : rows.length < 2 ^ 32 := by decide
  let xs : List Value := [.integer Int64.maxValue, .integer 2, .null, .integer (-7)]
  let ys : List Value := [.integer Int64.minValue, .integer (-1), .null, .integer 0]
  have hxs : rows.mapM (fun row => x.eval (ctx.onRow row)) = .ok xs := rfl
  have hys : rows.mapM (fun row => y.eval (ctx.onRow row)) = .ok ys := rfl
  have hx : ∀ v ∈ xs, v.isSummand = true := by simp [xs, Value.isSummand]
  have hy : ∀ v ∈ ys, v.isSummand = true := by simp [ys, Value.isSummand]
  have hxsum : Value.exactSum xs = 9223372036854775802 := by decide
  have hysum : Value.exactSum ys = -9223372036854775809 := by decide
  obtain ⟨-, hsome, hperm⟩ := sum_of_integers (e := .field ⟨none, "x"⟩) (fun h => by cases h) hxs hx hrows
  obtain ⟨s, hs, heval⟩ := hsome ⟨_, List.mem_cons_self, rfl⟩
  obtain ⟨-, hsome', -⟩ := sum_of_integers (e := .field ⟨none, "y"⟩) (fun h => by cases h) hys hy hrows
  obtain ⟨s', hs', heval'⟩ := hsome' ⟨_, List.mem_cons_self, rfl⟩
  rw [hxsum] at hs
  rw [hysum] at hs'
  have hinteger : Value.ofWhole? 9223372036854775802 = some (.integer 9223372036854775802) := rfl
  have hdecimal : Value.ofWhole? (-9223372036854775809) =
      some (.decimal ⟨true, 9223372036854775809, 0, by decide, by decide⟩) := rfl
  obtain rfl := Option.some.inj (hs.symm.trans hinteger)
  obtain rfl := Option.some.inj (hs'.symm.trans hdecimal)
  exact ⟨hrows, ⟨xs, hxs, hx, hxsum⟩, heval, (hperm _ rows.reverse_perm).trans heval, heval'⟩

end Expr

end RecordQuery
