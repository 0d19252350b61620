import RecordQuery.Proofs.Evaluation
import RecordQuery.Proofs.Execution.Ordering
/-!
# The least and the greatest value of a group

`min` and `max` go through the values of a group once and keep the better of two; `ORDER BY` sorts by
insertion. Both put one value after the other to what they have, so what the one keeps is the first or the
last of what the other has sorted so far (`head?_sort_eq`, `getLast?_sort_eq`), the very same value among
those that tie. The last needs nothing of the comparison: a value that comes in is compared with the last one
there, by both. The first needs that the values are in one line, for sorting compares a value with all those
that it passes.

Nulls are in front of all other values, so they put nothing out of line (`SortsTransitively.of_not_null`), and
without them the sorted list is the list that is sorted without them (`Sorting.filter_sort`). The values by
which rows are arranged are the sorted values (`ordered_ascending`), which gives `min_max_of_ordered`.
-/

namespace RecordQuery

/-! ## What sorts before -/

namespace Value

variable {v w : Value}

/-- `v.sortsBefore w` holds when the first value is sorted in front of the second wherever it was. -/
def sortsBefore (v w : Value) : Bool :=
  v.sortCompare w == .lt

theorem sortsBefore_iff : v.sortsBefore w = true ↔ w.sortCompare v = .gt := by
  rw [sortsBefore, beq_iff_eq, sortCompare_swap v w, Ordering.swap_eq_gt]

theorem sortsBefore_eq_false_iff : v.sortsBefore w = false ↔ (w.sortCompare v).isLE = true := by
  rw [← Bool.not_eq_true, sortsBefore_iff]
  cases w.sortCompare v <;> decide

/-- Null is in front of every value. -/
theorem isLE_sortCompare_null (v : Value) : (null.sortCompare v).isLE = true := by
  cases v <;> rfl

/-- Behind a value that is not null there is no null. -/
theorem not_isNull_of_isLE (hv : v.isNull = false) (h : (v.sortCompare w).isLE = true) : w.isNull = false := by
  cases w with
  | null =>
      cases v with
      | null => cases hv
      | _ => cases h
  | _ => rfl

theorem eq_null_of_isNull (h : v.isNull = true) : v = null := by
  cases v with
  | null => rfl
  | _ => cases h

end Value

namespace Execute

variable {vs : List Value}

theorem SortsTransitively.ranks (h : SortsTransitively vs) : Sorting.Ranks Value.sortsBefore vs where
  asymm v _ w _ hvw := by
    rw [Value.sortsBefore_eq_false_iff, beq_iff_eq.mp hvw]
    rfl
  trans u hu v hv w hw huv hvw := by
    rw [Value.sortsBefore_eq_false_iff] at huv hvw ⊢
    exact h w hw v hv u hu hvw huv

/-- Values are in one line when those that are not null are. -/
theorem SortsTransitively.of_not_null (h : SortsTransitively (vs.filter fun v => !v.isNull)) :
    SortsTransitively vs := by
  have hkept : ∀ {v : Value}, v ∈ vs → v.isNull = false → v ∈ vs.filter fun v => !v.isNull :=
    fun hv hnull => List.mem_filter.mpr ⟨hv, by rw [hnull]; rfl⟩
  intro a ha b hb d hd hab hbd
  cases hnull : a.isNull with
  | true =>
      rw [Value.eq_null_of_isNull hnull]
      exact d.isLE_sortCompare_null
  | false =>
      have hb' := Value.not_isNull_of_isLE hnull hab
      have hd' := Value.not_isNull_of_isLE hb' hbd
      exact h a (hkept ha hnull) b (hkept hb hb') d (hkept hd hd') hab hbd

end Execute

/-! ## Keeping the better of two -/

namespace Aggregate

variable {better : Value → Value → Value} {vs : List Value}

/-- The value that is kept of some values, if there are any. -/
def chosen? (better : Value → Value → Value) : List Value → Option Value
  | [] => none
  | first :: rest => some (rest.foldl better first)

theorem choose_eq (better : Value → Value → Value) (vs : List Value) :
    choose better vs = (chosen? better vs).getD .null := by
  cases vs <;> rfl

theorem chosen?_concat (better : Value → Value → Value) (vs : List Value) (v : Value) :
    chosen? better (vs ++ [v]) = some (((chosen? better vs).map fun w => better w v).getD v) := by
  cases vs <;> simp [chosen?]

theorem larger_eq (w v : Value) : larger w v = if v.sortsBefore w = true then w else v :=
  if_congr Value.sortsBefore_iff.symm rfl rfl

theorem smaller_eq (w v : Value) : smaller w v = if v.sortsBefore w = true then v else w :=
  if_congr Value.sortsBefore_iff.symm rfl rfl

/-- The greatest value is the last of the sorted ones, whatever the comparison is like. -/
theorem getLast?_sort_eq (vs : List Value) :
    (Sorting.sort Value.sortsBefore vs).getLast? = chosen? larger vs := by
  induction vs using List.reverseRecOn with
  | nil => rfl
  | append_singleton vs v ih =>
      rw [Sorting.getLast?_sort_concat, ih, chosen?_concat]
      simp only [larger_eq]

/-- The least value is the first of the sorted ones, where these are in one line. -/
theorem head?_sort_eq (h : Sorting.Ranks Value.sortsBefore vs) :
    (Sorting.sort Value.sortsBefore vs).head? = chosen? smaller vs := by
  induction vs using List.reverseRecOn with
  | nil => rfl
  | append_singleton vs v ih =>
      rw [Sorting.head?_sort_concat h, ih (h.mono (List.subset_append_left vs [v])), chosen?_concat]
      simp only [smaller_eq]

end Aggregate

/-! ## Rows arranged by an expression -/

namespace Execute

variable {R : Type} {c : Conditions R} {e : Expr} {groups : List (Group R)} {values : List Value}

theorem orderKeys_single {group : Group R} {v : Value} (h : e.eval (c.contextOf group) = .ok v) :
    orderKeys c [⟨e, false⟩] group = .ok [v] := by
  rw [orderKeys, List.map_singleton, Expr.evalAll, h]
  rfl

theorem compareKeys_single (e : Expr) (v w : Value) :
    (compareKeys [⟨e, false⟩] [v] [w] == .lt) = v.sortsBefore w := by
  rw [compareKeys_cons, Value.sortsBefore]
  exact congrArg (· == Ordering.lt) Ordering.then_eq

/-- Groups that are arranged by an expression have its values in order. -/
theorem ordered_ascending (h : groups.mapM (fun g => e.eval (c.contextOf g)) = .ok values) :
    ∃ out, ordered c [⟨e, false⟩] groups = .ok out ∧ out.Perm groups ∧
      out.mapM (fun g => e.eval (c.contextOf g)) = .ok (Sorting.sort Value.sortsBefore values) := by
  have hvalues := mapM_ok_iff.mp h
  have hlength := hvalues.length_eq
  -- values and groups are sorted as pairs, so each group keeps its value
  let sorted := Sorting.sort (fun a b : Value × Group R => a.1.sortsBefore b.1) (values.zip groups)
  have hperm : sorted.Perm (values.zip groups) := Sorting.sort_perm _ _
  have hkeys : groups.mapM (orderKeys c [⟨e, false⟩]) = .ok (values.map fun v => [v]) := by
    rw [mapM_ok_iff, List.forall₂_map_right_iff]
    exact hvalues.imp fun _ _ hv => orderKeys_single hv
  have hout : ordered c [⟨e, false⟩] groups = .ok (sorted.map Prod.snd) := by
    refine bind_ok_iff.mpr ⟨_, hkeys, congrArg Except.ok ?_⟩
    rw [List.zip_map_left, Sorting.sort_map, List.map_map]
    simp only [Prod.map_fst, compareKeys_single]
    rfl
  have hsorted : sorted.map Prod.fst = Sorting.sort Value.sortsBefore values := by
    rw [← @Sorting.sort_map _ _ Value.sortsBefore, List.map_fst_zip (Nat.le_of_eq hlength.symm)]
  have hgroups : (values.zip groups).map Prod.snd = groups := List.map_snd_zip (Nat.le_of_eq hlength)
  refine ⟨_, hout, (hperm.map Prod.snd).trans (.of_eq hgroups), ?_⟩
  rw [← hsorted, mapM_ok_iff, List.forall₂_map_left_iff, List.forall₂_map_right_iff, List.forall₂_same]
  intro pair hpair
  exact (List.forall₂_iff_zip.mp hvalues.flip).2 (hperm.subset hpair)

variable {rows : Group R}

/-- An aggregate looks at the values of its argument on the rows, the nulls left out. -/
theorem eval_aggregate_of_values (a : Aggregate) (hstar : e ≠ .wildcard)
    (h : rows.mapM (fun row => e.eval (c.contextOf [row])) = .ok values) :
    (Expr.call a.name [e]).eval (c.contextOf rows) = a.apply (values.filter fun v => !v.isNull) := by
  have hcollect : (c.contextOf rows).collect (fun row => e.eval ((c.contextOf rows).onRow row)) =
      .ok (values.filter fun v => !v.isNull) := by
    rw [Context.collect]
    exact congrArg (Except.map _) h
  rw [Expr.eval_aggregate a.ofName?_name hstar, hcollect]
  rfl

/-- **`min` and `max` are the ends of the order.** Where an expression has values on the rows of a group, and
those that are not null are in one line, ordering the rows by the expression arranges its values so that `min`
of it is the first and `max` the last that is not null; null where all are null. The star has a value on no
row, so it is only over no rows at all that it has to be left out. -/
theorem min_max_of_ordered (hstar : e ≠ .wildcard)
    (hvalues : rows.mapM (fun row => e.eval (c.contextOf [row])) = .ok values)
    (htrans : SortsTransitively (values.filter fun v => !v.isNull)) :
    ∃ out arranged, ordered c [⟨e, false⟩] (rows.map fun row => [row]) = .ok out ∧
      out.Perm (rows.map fun row => [row]) ∧
      out.mapM (fun g => e.eval (c.contextOf g)) = .ok arranged ∧
      (Expr.call "min" [e]).eval (c.contextOf rows) =
        .ok ((arranged.filter fun v => !v.isNull).head?.getD .null) ∧
      (Expr.call "max" [e]).eval (c.contextOf rows) =
        .ok ((arranged.filter fun v => !v.isNull).getLast?.getD .null) ∧
      ((∀ v ∈ values, v.isNull = true) → (Expr.call "min" [e]).eval (c.contextOf rows) = .ok .null ∧
        (Expr.call "max" [e]).eval (c.contextOf rows) = .ok .null) := by
  have hgroups : (rows.map fun row => [row]).mapM (fun g => e.eval (c.contextOf g)) = .ok values := by
    rw [mapM_ok_iff, List.forall₂_map_left_iff]
    exact mapM_ok_iff.mp hvalues
  obtain ⟨out, hout, hperm, harranged⟩ := ordered_ascending hgroups
  have hleft := Sorting.filter_sort (p := fun v => !v.isNull) htrans.of_not_null.ranks
  have hmin : (Expr.call "min" [e]).eval (c.contextOf rows) = _ := eval_aggregate_of_values .min hstar hvalues
  have hmax : (Expr.call "max" [e]).eval (c.contextOf rows) = _ := eval_aggregate_of_values .max hstar hvalues
  refine ⟨out, _, hout, hperm, harranged, ?_, ?_, fun hnull => ?_⟩
  · rw [hmin, Aggregate.apply, Aggregate.choose_eq, hleft, Aggregate.head?_sort_eq htrans.ranks]
  · rw [hmax, Aggregate.apply, Aggregate.choose_eq, hleft, Aggregate.getLast?_sort_eq]
  · have hnone : (values.filter fun v => !v.isNull) = [] :=
      List.filter_eq_nil_iff.mpr fun v hv => by rw [hnull v hv]; decide
    rw [hmin, hmax, hnone]
    exact ⟨rfl, rfl⟩

/-- Numbers that tie in two forms, the one first or the other, with nulls between them. -/
theorem min_max_of_ordered_of_forms :
    let c : Conditions Value := ⟨.ofObjects, .default, []⟩
    let two : Value := .decimal ⟨false, 20, 1, by decide, by decide⟩
    let five : Value := .decimal ⟨false, 50, 1, by decide, by decide⟩
    let values : List Value := [.integer 5, .null, two, .integer 2, five, .null, .integer 3]
    let rows : Group Value := values.map fun v => [⟨"t", some (.object [("x", v)])⟩]
    let e : Expr := .field ⟨none, "x"⟩
    rows.mapM (fun row => e.eval (c.contextOf [row])) = .ok values ∧
      SortsTransitively (values.filter fun v => !v.isNull) ∧
      ∃ out arranged, ordered c [⟨e, false⟩] (rows.map fun row => [row]) = .ok out ∧
        out.mapM (fun g => e.eval (c.contextOf g)) = .ok arranged ∧
        arranged.map Value.display = ["null", "null", "2.0", "2", "3", "5", "5.0"] ∧
        (arranged.filter fun v => !v.isNull).head?.getD .null = two ∧
        (arranged.filter fun v => !v.isNull).getLast?.getD .null = five ∧
        (Expr.call "min" [e]).eval (c.contextOf rows) = .ok two ∧
        (Expr.call "max" [e]).eval (c.contextOf rows) = .ok five := by
  intro c two five values rows e
  have hvalues : rows.mapM (fun row => e.eval (c.contextOf [row])) = .ok values := rfl
  have htrans : SortsTransitively (values.filter fun v => !v.isNull) := by
    decide +kernel
  have hdisplay : passes (fun out : List (Group Value) => passes (fun arranged : List Value => decide
        (arranged.map Value.display = ["null", "null", "2.0", "2", "3", "5", "5.0"]))
        (out.mapM fun g => e.eval (c.contextOf g)))
      (ordered c [⟨e, false⟩] (rows.map fun row => [row])) = true := by
    decide +kernel
  simp only [passes_iff, decide_eq_true_eq] at hdisplay
  obtain ⟨out, hout, arranged, harranged, hdisplay⟩ := hdisplay
  obtain ⟨out', arranged', hout', -, harranged', hmin, hmax, -⟩ :=
    min_max_of_ordered (e := .field ⟨none, "x"⟩) (fun h => by cases h) hvalues htrans
  obtain rfl := Except.ok.inj (hout.symm.trans hout')
  obtain rfl := Except.ok.inj (harranged.symm.trans harranged')
  have hleast : (Expr.call "min" [e]).eval (c.contextOf rows) = .ok two := rfl
  have hgreatest : (Expr.call "max" [e]).eval (c.contextOf rows) = .ok five := rfl
  exact ⟨hvalues, htrans, out, arranged, hout, harranged, hdisplay, Except.ok.inj (hmin.symm.trans hleast),
    Except.ok.inj (hmax.symm.trans hgreatest), hleast, hgreatest⟩

end Execute

end RecordQuery
