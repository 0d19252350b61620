import RecordQuery.Proofs.Execution.Grouping
import RecordQuery.Proofs.Value.NestedKeys
/-!
# Grouping by arrays and objects

Rows with equal keys are in one group. The key of a collection has its texts between marks, so where no text
has such a mark in it, rows of one group have values that agree (`grouping_keeps_collections_apart`). A text
with a comma in it can stand for two texts, and then rows with different values are in one group
(`grouping_merges_texts_with_marks`).
-/

namespace RecordQuery.Execute

variable {R : Type}

/-- `c.HasLegibleValues groupBy row` holds when the expressions have values on the row, all of them legible,
with every key of an object once. -/
def Conditions.HasLegibleValues (c : Conditions R) (groupBy : List Expr) (row : CompositeRow R) : Prop :=
  ∃ vs, Expr.evalAll (c.contextOf [row]) groupBy = .ok vs ∧ ∀ v ∈ vs, v.Legible .alone ∧ v.WellKeyed

variable {c : Conditions R} {groupBy : List Expr} {row row' : CompositeRow R}

/-- Rows with one key have values that agree. -/
theorem agree_of_keyOf_eq (h : c.HasLegibleValues groupBy row) (h' : c.HasLegibleValues groupBy row')
    (hkey : c.keyOf groupBy row = c.keyOf groupBy row') :
    List.Forall₂ (fun v w => v.agrees w = true) (c.valuesOf groupBy row) (c.valuesOf groupBy row') := by
  obtain ⟨vs, hvs, hlegible⟩ := h
  obtain ⟨ws, hws, hlegible'⟩ := h'
  rw [Conditions.keyOf, Conditions.keyOf, Conditions.valuesOf_of_ok hvs, Conditions.valuesOf_of_ok hws] at hkey
  rw [Conditions.valuesOf_of_ok hvs, Conditions.valuesOf_of_ok hws]
  exact Value.agree_of_map_groupKey_eq (fun v hv => (hlegible v hv).1) hlegible' hkey

/-- **Collections are grouped with equal collections.** -/
theorem grouping_keeps_collections_apart :
    (∀ v w : Value, v.Legible .alone → w.Legible .alone → w.WellKeyed → v.groupKey = w.groupKey →
      v.agrees w = true) ∧
    ∀ (c : Conditions R) (q : Query) (rows : List (CompositeRow R)), q.isGrouped = true →
      (∀ row ∈ rows, c.HasLegibleValues q.groupBy row) →
      ∃ out, groups c q rows = .ok out ∧ out.flatten.Perm rows ∧ ∀ g ∈ out, ∀ row ∈ g, ∀ row' ∈ g,
        List.Forall₂ (fun v w => v.agrees w = true) (c.valuesOf q.groupBy row) (c.valuesOf q.groupBy row') := by
  refine ⟨fun v w hv hw hkeyed h => Value.agrees_of_groupKey_eq hv hw hkeyed h, ?_⟩
  intro c q rows hgrouped hlegible
  have hok : ∀ row ∈ rows, ∃ vs, Expr.evalAll (c.contextOf [row]) q.groupBy = .ok vs :=
    fun row hrow => (hlegible row hrow).imp fun _ hvs => hvs.1
  refine ⟨_, (groups_of_isGrouped c hgrouped rows).trans (grouping_of_ok hok),
    flatten_groups_perm c q.groupBy rows, ?_⟩
  intro g hg row hrow row' hrow'
  obtain ⟨key, -, rfl⟩ := List.mem_map.mp hg
  obtain ⟨hmem, hkey⟩ := mem_withKey.mp hrow
  obtain ⟨hmem', hkey'⟩ := mem_withKey.mp hrow'
  exact agree_of_keyOf_eq (hlegible row hmem) (hlegible row' hmem') (hkey.trans hkey'.symm)

/-- A number in two forms, an object in an array, and texts with the marks of other places. -/
theorem grouping_keeps_collections_apart_when_nested :
    let c : Conditions Value := ⟨.ofObjects, .default, []⟩
    let nested (x : Value) (text : String) : Value :=
      .array [x, .object [("a", .array [.string text, .null]), ("b", .boolean true)]]
    let record (v : Value) : CompositeRow Value := [⟨"t", some (.object [("v", v)])⟩]
    let one : Value := .decimal ⟨false, 10, 1, by decide, by decide⟩
    let q : Query := ⟨[], ["t"], [], none, [.field ⟨none, "v"⟩], [], none, none, 0⟩
    let rows := [nested (.integer 1) "x=\x7d", nested one "y", nested one "x=\x7d"].map record
    (nested (.integer 1) "x=\x7d").groupKey = (nested one "x=\x7d").groupKey ∧
      (nested (.integer 1) "x=\x7d").agrees (nested one "x=\x7d") = true ∧
      q.isGrouped = true ∧ (∀ row ∈ rows, c.HasLegibleValues q.groupBy row) ∧
      ∃ out, groups c q rows = .ok out ∧ out.map List.length = [2, 1] ∧ out.flatten.Perm rows ∧
        ∀ g ∈ out, ∀ row ∈ g, ∀ row' ∈ g, List.Forall₂ (fun v w => v.agrees w = true)
          (c.valuesOf q.groupBy row) (c.valuesOf q.groupBy row') := by
  intro c nested record one q rows
  have hplain : ∀ {p : Value.Place} {v : Value}, v.isSimple = true → (∀ text, v ≠ .string text) →
      v.Legible p := fun h hne => .simple h fun text htext => absurd htext (hne text)
  have hnested : ∀ (x : Value) (text : String), (x = .integer 1 ∨ x = one) →
      ',' ∉ text.toList → ']' ∉ text.toList → (nested x text).Legible .alone ∧ (nested x text).WellKeyed := by
    intro x text hx hcomma hbracket
    have hx' : x.Legible .item ∧ x.WellKeyed := by
      rcases hx with rfl | rfl <;> exact ⟨hplain rfl (by simp [one]), .scalar rfl⟩
    have hnull : Value.null.Legible .item ∧ Value.null.WellKeyed := ⟨hplain rfl (by simp), .scalar rfl⟩
    have htrue : (Value.boolean true).Legible .field ∧ (Value.boolean true).WellKeyed :=
      ⟨hplain rfl (by simp), .scalar rfl⟩
    have htext : (Value.string text).WellKeyed := .scalar rfl
    have hkeys : ["a", "b"].Pairwise (· < ·) := by decide
    refine ⟨by simp [nested, hx', hnull, htrue, Value.Place.stops, hcomma, hbracket], ?_⟩
    rw [Value.wellKeyed_array_iff]
    refine List.forall_mem_cons.mpr ⟨hx'.2, List.forall_mem_singleton.mpr ?_⟩
    exact Value.wellKeyed_object_iff.mpr ⟨hkeys, by simp [hnull, htrue, htext]⟩
  have hvalue : ∀ {v : Value}, v.Legible .alone ∧ v.WellKeyed → c.HasLegibleValues q.groupBy (record v) :=
    fun {v} hv => ⟨[v], rfl, List.forall_mem_singleton.mpr hv⟩
  have hinteger := hnested (.integer 1) "x=\x7d" (.inl rfl) (by simp) (by simp)
  have hone := hnested one "x=\x7d" (.inr rfl) (by simp) (by simp)
  have hother := hnested one "y" (.inr rfl) (by simp) (by simp)
  have hrows : ∀ row ∈ rows, c.HasLegibleValues q.groupBy row := by
    simp [rows, hvalue, hinteger, hone, hother]
  have hlengths : passes (fun out : List (Group Value) => decide (out.map List.length = [2, 1]))
      (groups c q rows) = true := by
    decide +kernel
  simp only [passes_iff, decide_eq_true_eq] at hlengths
  obtain ⟨out, hout, hlengths⟩ := hlengths
  have hkeys : (nested (.integer 1) "x=\x7d").groupKey = (nested one "x=\x7d").groupKey := by
    decide +kernel
  obtain ⟨hagree, hgroups⟩ := @grouping_keeps_collections_apart Value
  obtain ⟨out', hout', hperm, hvalues⟩ := hgroups c q rows rfl hrows
  obtain rfl := Except.ok.inj (hout.symm.trans hout')
  exact ⟨hkeys, hagree _ _ hinteger.1 hone.1 hone.2 hkeys, rfl, hrows, out, hout, hlengths, hperm, hvalues⟩

/-- A comma in a text stands for the one between two texts, and so does a bracket or an equals sign. -/
theorem grouping_merges_texts_with_marks :
    let a : Value := .array [.string "a", .string "b"]
    let b : Value := .array [.string "a,string:b"]
    let c : Conditions Value := ⟨.ofObjects, .default, []⟩
    let record (v : Value) : CompositeRow Value := [⟨"t", some (.object [("x", v)])⟩]
    (∀ pair ∈ [(a, b),
        (.array [.array [.string "x"], .array [.string "y]"]], .array [.array [.string "x]", .array [.string "y"]]]),
        (.object [("a", .string "x"), ("b", .string "y")], .object [("a=string:x,b", .string "y")])],
      pair.1.groupKey = pair.2.groupKey ∧ pair.1.agrees pair.2 = false) ∧
      ∃ q out, Query.compile "SELECT count(*) FROM t GROUP BY x" = .ok q ∧
        groups c q [record a, record b] = .ok out ∧ out.map List.length = [2] := by
  intro a b c record
  have hcheck : passes (fun q : Query => passes (fun out : List (Group Value) =>
      decide (out.map List.length = [2])) (groups c q [record a, record b]))
      (Query.compile "SELECT count(*) FROM t GROUP BY x") = true := by
    decide +kernel
  simp only [passes_iff, decide_eq_true_eq] at hcheck
  obtain ⟨q, hq, out, hout, hlength⟩ := hcheck
  exact ⟨by decide +kernel, q, out, hq, hout, hlength⟩

end RecordQuery.Execute
