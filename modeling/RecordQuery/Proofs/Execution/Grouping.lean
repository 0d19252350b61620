import RecordQuery.Proofs.Execution.Ordering
import RecordQuery.Proofs.Value.Keys
/-!
# Groups

Rows are put into groups one after the other, each into the group with its key or into a new one at the end.
After any number of rows the groups are, key by key in the order in which the keys first occur, the rows so
far that have the key (`foldl_addToGroup`), so that the groups of all rows partition them, in order. Which
rows share a group is then a matter of their keys, and keys tell values
(`grouping_is_partition_by_value`): all but the moments of one second, which have one key
(`grouping_merges_moments_of_one_second`).
-/

namespace RecordQuery.Execute

variable {R : Type}

/-! ## Keys in the order of their first occurrences -/

/-- `Leads items P Q` holds when an item with `P` occurs before every item with `Q`. -/
def Leads {α : Type} (items : List α) (P Q : α → Prop) : Prop :=
  ∃ front, front <+: items ∧ (∃ a ∈ front, P a) ∧ ∀ a ∈ front, ¬ Q a

theorem eraseDups_concat {α : Type} [BEq α] [LawfulBEq α] (items : List α) (a : α) :
    (items ++ [a]).eraseDups = if a ∈ items then items.eraseDups else items.eraseDups ++ [a] := by
  rw [List.eraseDups_append]
  split
  next hmem => simp [List.removeAll, hmem]
  next hnew => simp [List.removeAll, hnew, List.eraseDups_cons]

/-- Of two items the one that occurs first is in front. -/
theorem eraseDups_leads {α : Type} [BEq α] [LawfulBEq α] (items : List α) :
    items.eraseDups.Pairwise fun a b => Leads items (· = a) (· = b) := by
  induction items using List.reverseRecOn with
  | nil => exact .nil
  | append_singleton items a ih =>
      have hgrow : ∀ {b c : α}, Leads items (· = b) (· = c) → Leads (items ++ [a]) (· = b) (· = c) :=
        fun ⟨front, hfront, hbc⟩ => ⟨front, hfront.trans (List.prefix_append _ _), hbc⟩
      rw [eraseDups_concat]
      split
      next => exact ih.imp hgrow
      next hnew =>
        refine List.pairwise_append.mpr ⟨ih.imp hgrow, List.pairwise_singleton _ _, ?_⟩
        intro b hb c hc
        obtain rfl := List.mem_singleton.mp hc
        refine ⟨items, List.prefix_append _ _, ⟨b, List.mem_eraseDups.mp hb, rfl⟩, ?_⟩
        rintro d hd rfl
        exact hnew hd

theorem eraseDups_nodup {α : Type} [BEq α] [LawfulBEq α] (items : List α) : items.eraseDups.Nodup := by
  refine (eraseDups_leads items).imp ?_
  rintro a b ⟨front, -, ⟨_, ha, rfl⟩, hb⟩ rfl
  exact hb _ ha rfl

/-! ## One row after the other -/

section Partition

variable (f : CompositeRow R → List String) (rows : List (CompositeRow R))

/-- The rows that have a key. -/
def withKey (key : List String) : Group R :=
  rows.filter (f · == key)

/-- The groups of rows by their keys, with the keys. -/
def keyedGroups : List (List String × Group R) :=
  (rows.map f).eraseDups.map fun key => (key, withKey f rows key)

variable {f rows}

/-- Putting a row into a group changes the group with its key, or adds one. -/
theorem addToGroup_map {keys : List (List String)} (hkeys : keys.Nodup) (groupOf : List String → Group R)
    (key : List String) (row : CompositeRow R) :
    addToGroup key row (keys.map fun k => (k, groupOf k)) =
      if key ∈ keys then keys.map fun k => (k, if k = key then groupOf k ++ [row] else groupOf k)
      else keys.map (fun k => (k, groupOf k)) ++ [(key, [row])] := by
  induction keys with
  | nil => rfl
  | cons k keys ih =>
      obtain ⟨hk, hrest⟩ := List.nodup_cons.mp hkeys
      rw [List.map_cons, addToGroup]
      by_cases hfound : k = key
      · subst hfound
        rw [if_pos rfl, if_pos List.mem_cons_self, List.map_cons, if_pos rfl]
        refine congrArg (_ :: ·) (List.map_congr_left fun k' hk' => ?_)
        rw [if_neg]
        rintro rfl
        exact hk hk'
      · rw [if_neg hfound, ih hrest]
        simp only [List.mem_cons, Ne.symm hfound, false_or, List.map_cons, if_neg hfound]
        split <;> rfl

/-- A row goes into the group with its key and into no other. -/
theorem withKey_concat (row : CompositeRow R) (key : List String) :
    withKey f (rows ++ [row]) key =
      if key = f row then withKey f rows key ++ [row] else withKey f rows key := by
  unfold withKey
  rw [List.filter_append, List.filter_singleton]
  by_cases h : key = f row
  · simp [h]
  · have hrow : (f row == key) = false := beq_eq_false_iff_ne.mpr (Ne.symm h)
    rw [if_neg h, hrow, cond_false, List.append_nil]

theorem withKey_eq_nil {key : List String} (h : key ∉ rows.map f) : withKey f rows key = [] := by
  refine List.filter_eq_nil_iff.mpr fun row hrow hkey => h ?_
  exact List.mem_map.mpr ⟨row, hrow, eq_of_beq hkey⟩

/-- **One more row.** Putting a row into the groups of some rows gives the groups of those rows and it. -/
theorem addToGroup_keyedGroups (row : CompositeRow R) :
    addToGroup (f row) row (keyedGroups f rows) = keyedGroups f (rows ++ [row]) := by
  rw [keyedGroups, addToGroup_map (eraseDups_nodup _), keyedGroups, List.map_append, List.map_singleton,
    eraseDups_concat]
  simp only [List.mem_eraseDups, withKey_concat]
  split
  next => rfl
  next hnew =>
    rw [List.map_append, List.map_singleton, if_pos rfl, withKey_eq_nil hnew, List.nil_append]
    refine congrArg (· ++ _) (List.map_congr_left fun key hkey => ?_)
    rw [if_neg]
    rintro rfl
    exact hnew (List.mem_eraseDups.mp hkey)

/-- After any number of rows the groups are those of the rows so far. -/
theorem foldl_addToGroup :
    rows.foldl (fun groups row => addToGroup (f row) row groups) [] = keyedGroups f rows := by
  induction rows using List.reverseRecOn with
  | nil => rfl
  | append_singleton rows row ih =>
      rw [List.foldl_append, List.foldl_cons, List.foldl_nil, ih, addToGroup_keyedGroups]

variable (f rows) in
/-- Rows with one key together, the groups in the order of their first rows. -/
theorem partition_eq : partition ((rows.map f).zip rows) =
    (rows.map f).eraseDups.map (withKey f rows) := by
  rw [partition, ← List.map_prod_right_eq_zip, List.foldl_map, foldl_addToGroup, keyedGroups,
    List.map_map]
  rfl

/-- Groups by keys that are all the keys of some rows hold each of these rows once. -/
theorem flatten_withKey_perm {keys : List (List String)} (hkeys : keys.Nodup)
    (hall : ∀ row ∈ rows, f row ∈ keys) : (keys.map (withKey f rows)).flatten.Perm rows := by
  induction keys generalizing rows with
  | nil =>
      obtain rfl := List.eq_nil_iff_forall_not_mem.mpr fun row hrow => List.not_mem_nil (hall row hrow)
      exact .refl _
  | cons key keys ih =>
      obtain ⟨hkey, hrest⟩ := List.nodup_cons.mp hkeys
      -- the other groups do not see the rows of the first one
      have hothers : keys.map (withKey f rows) =
          keys.map (withKey f (rows.filter fun row => !(f row == key))) := by
        refine List.map_congr_left fun k hk => ?_
        rw [withKey, withKey, List.filter_filter]
        refine List.filter_congr fun row _ => ?_
        by_cases hrow : f row = k
        · have hne : (f row == key) = false := beq_eq_false_iff_ne.mpr fun h => hkey (h ▸ hrow ▸ hk)
          rw [hne, Bool.not_false, Bool.and_true]
        · rw [beq_eq_false_iff_ne.mpr hrow, Bool.false_and]
      have hmem : ∀ row ∈ rows.filter fun row => !(f row == key), f row ∈ keys := by
        intro row hrow
        obtain ⟨hrow, hne⟩ := List.mem_filter.mp hrow
        refine (List.mem_cons.mp (hall row hrow)).resolve_left ?_
        rintro rfl
        simp at hne
      rw [List.map_cons, List.flatten_cons, hothers]
      exact ((ih hrest hmem).append_left _).trans (List.filter_append_perm _ rows)

theorem mem_withKey {key : List String} {row : CompositeRow R} :
    row ∈ withKey f rows key ↔ row ∈ rows ∧ f row = key := by
  rw [withKey, List.mem_filter, beq_iff_eq]

/-- The group with the key that occurs first has the first row. -/
theorem leads_withKey {key key' : List String} (h : Leads (rows.map f) (· = key) (· = key')) :
    Leads rows (· ∈ withKey f rows key) (· ∈ withKey f rows key') := by
  obtain ⟨front, hfront, ⟨_, hkey, rfl⟩, hkey'⟩ := h
  obtain ⟨behind, hbehind⟩ := hfront
  obtain ⟨before, rest, rfl, rfl, -⟩ := List.append_eq_map_iff.mp hbehind
  refine ⟨before, List.prefix_append _ _, ?_, fun row hrow hmem => ?_⟩
  · obtain ⟨row, hrow, rfl⟩ := List.mem_map.mp hkey
    exact ⟨row, hrow, mem_withKey.mpr ⟨List.mem_append_left _ hrow, rfl⟩⟩
  · exact hkey' _ (List.mem_map_of_mem hrow) (mem_withKey.mp hmem).2

end Partition

/-! ## The groups of a query -/

/-- The groups of rows by some expressions. -/
def grouping (c : Conditions R) (groupBy : List Expr) (rows : List (CompositeRow R)) :
    Except EvalError (List (Group R)) := do
  return partition ((← rows.mapM (groupKeys c groupBy)).zip rows)

/-- The values of some expressions on a row; none if there is an error. -/
def Conditions.valuesOf (c : Conditions R) (groupBy : List Expr) (row : CompositeRow R) : List Value :=
  match Expr.evalAll (c.contextOf [row]) groupBy with
  | .ok vs => vs
  | .error _ => []

/-- `c.HasValues groupBy row` holds when the expressions have values on the row, none of which is a binary
number, a point, an array, an object or a moment between two seconds. -/
def Conditions.HasValues (c : Conditions R) (groupBy : List Expr) (row : CompositeRow R) : Prop :=
  ∃ vs, Expr.evalAll (c.contextOf [row]) groupBy = .ok vs ∧ ∀ v ∈ vs, v.isSimple = true

instance {c : Conditions R} {groupBy : List Expr} {row : CompositeRow R} :
    Decidable (c.HasValues groupBy row) :=
  match h : Expr.evalAll (c.contextOf [row]) groupBy with
  | .ok vs => decidable_of_iff (∀ v ∈ vs, v.isSimple = true)
      ⟨fun hsimple => ⟨vs, h, hsimple⟩, fun ⟨_, hvs, hsimple⟩ => Except.ok.inj (h.symm.trans hvs) ▸ hsimple⟩
  | .error _ => .isFalse fun ⟨_, hvs, _⟩ => by cases h.symm.trans hvs

/-- The key that the values of some expressions give a row. -/
def Conditions.keyOf (c : Conditions R) (groupBy : List Expr) (row : CompositeRow R) : List String :=
  (c.valuesOf groupBy row).map Value.groupKey

variable {c : Conditions R} {groupBy : List Expr} {rows : List (CompositeRow R)}
  {row row' : CompositeRow R}

theorem groups_of_isGrouped (c : Conditions R) {q : Query} (h : q.isGrouped = true)
    (rows : List (CompositeRow R)) : groups c q rows = grouping c q.groupBy rows :=
  if_pos h

theorem Conditions.valuesOf_of_ok {vs : List Value}
    (h : Expr.evalAll (c.contextOf [row]) groupBy = .ok vs) : c.valuesOf groupBy row = vs := by
  rw [valuesOf, h]

theorem Conditions.HasValues.isSimple (h : c.HasValues groupBy row) :
    ∀ v ∈ c.valuesOf groupBy row, v.isSimple = true := by
  obtain ⟨vs, hvs, hsimple⟩ := h
  rw [valuesOf_of_ok hvs]
  exact hsimple

theorem groupKeys_of_ok {vs : List Value} (h : Expr.evalAll (c.contextOf [row]) groupBy = .ok vs) :
    groupKeys c groupBy row = .ok (c.keyOf groupBy row) := by
  rw [groupKeys, Conditions.keyOf, h, Conditions.valuesOf_of_ok h]
  rfl

/-- The groups are made where the expressions have values. -/
theorem grouping_of_ok (h : ∀ row ∈ rows, ∃ vs, Expr.evalAll (c.contextOf [row]) groupBy = .ok vs) :
    grouping c groupBy rows =
      .ok ((rows.map (c.keyOf groupBy)).eraseDups.map (withKey (c.keyOf groupBy) rows)) := by
  have hkeys : rows.mapM (groupKeys c groupBy) = .ok (rows.map (c.keyOf groupBy)) := by
    rw [mapM_ok_iff, List.forall₂_map_right_iff, List.forall₂_same]
    exact fun row hrow => groupKeys_of_ok (h row hrow).choose_spec
  rw [grouping, hkeys, ← partition_eq]
  rfl

/-- Every row is in one of the groups. -/
theorem flatten_groups_perm (c : Conditions R) (groupBy : List Expr) (rows : List (CompositeRow R)) :
    ((rows.map (c.keyOf groupBy)).eraseDups.map (withKey (c.keyOf groupBy) rows)).flatten.Perm rows :=
  flatten_withKey_perm (eraseDups_nodup _) fun _ hrow =>
    List.mem_eraseDups.mpr (List.mem_map_of_mem hrow)

/-- **GROUP BY is a partition by value.** Where the expressions have simple values on every row, the groups
are not empty and hold every row once, each in the order of the rows; of two groups the one with the first
row comes first; and two rows are in one group when their values coincide, position by position. -/
theorem grouping_is_partition_by_value (h : ∀ row ∈ rows, c.HasValues groupBy row) :
    ∃ out, grouping c groupBy rows = .ok out ∧
      (∀ q : Query, q.isGrouped = true → q.groupBy = groupBy → groups c q rows = .ok out) ∧
      (∀ g ∈ out, g ≠ []) ∧ out.flatten.Perm rows ∧ (∀ g ∈ out, g.Sublist rows) ∧
      out.Pairwise (fun g g' => Leads rows (· ∈ g) (· ∈ g')) ∧ out.Pairwise List.Disjoint ∧
      ∀ g ∈ out, ∀ row ∈ g, ∀ row' ∈ rows,
        row' ∈ g ↔ List.Forall₂ Value.Coincides (c.valuesOf groupBy row) (c.valuesOf groupBy row') := by
  have hout := grouping_of_ok fun row hrow => (h row hrow).imp fun _ hvs => hvs.1
  have hnodup := eraseDups_nodup (rows.map (c.keyOf groupBy))
  refine ⟨_, hout, ?_, ?_, ?_, ?_, ?_, ?_, ?_⟩
  · rintro q hq rfl
    rw [groups_of_isGrouped c hq, hout]
  · intro g hg
    obtain ⟨key, hkey, rfl⟩ := List.mem_map.mp hg
    obtain ⟨row, hrow, rfl⟩ := List.mem_map.mp (List.mem_eraseDups.mp hkey)
    exact List.ne_nil_of_mem (mem_withKey.mpr ⟨hrow, rfl⟩)
  · exact flatten_groups_perm c groupBy rows
  · intro g hg
    obtain ⟨key, -, rfl⟩ := List.mem_map.mp hg
    exact List.filter_sublist
  · exact List.pairwise_map.mpr ((eraseDups_leads _).imp leads_withKey)
  · refine List.pairwise_map.mpr (hnodup.imp fun {key key'} hne row hrow hrow' => hne ?_)
    rw [← (mem_withKey.mp hrow).2, (mem_withKey.mp hrow').2]
  · intro g hg row hrow row' hrow'
    obtain ⟨key, -, rfl⟩ := List.mem_map.mp hg
    obtain ⟨hmem, rfl⟩ := mem_withKey.mp hrow
    rw [mem_withKey, and_iff_right hrow', eq_comm]
    exact Value.map_groupKey_eq_iff (h row hmem).isSimple (h row' hrow').isSimple

/-- One number in three forms, texts that look like other values, a text with a colon, and nothing. -/
theorem grouping_is_partition_by_value_of_numbers :
    let c : Conditions Value := ⟨.ofObjects, .default, []⟩
    let two (places : Fin 3) : Value :=
      .decimal ⟨false, 2 * tenPow places, places, by revert places; decide, by revert places; decide⟩
    let record (id : String) (a b : Value) : CompositeRow Value :=
      [⟨"t", some (.object [("a", a), ("b", b), ("id", .string id)])⟩]
    let rows := [record "p" (two 2) .null, record "q" (.string "2") .null, record "r" (.integer 2) .null,
      record "s" .null (.string "string:x"), record "t" (two 0) (.string "null"),
      record "u" (.string "2") .null, record "v" (two 1) .null]
    ∃ q out, Query.compile "SELECT id FROM t GROUP BY a, b" = .ok q ∧
      groups c q rows = .ok out ∧
      out.map (fun g => g.map fun row => (c.rowAccessor.get row "id").toOption.map Value.display) =
        [[some "p", some "r", some "v"], [some "q", some "u"], [some "s"], [some "t"]] ∧
      out.flatten.Perm rows ∧ out.Pairwise (fun g g' => Leads rows (· ∈ g) (· ∈ g')) ∧
      ∀ g ∈ out, ∀ row ∈ g, ∀ row' ∈ rows, row' ∈ g ↔
        List.Forall₂ Value.Coincides (c.valuesOf q.groupBy row) (c.valuesOf q.groupBy row') := by
  intro c two record rows
  have hcheck : passes (fun q => decide (q.isGrouped = true ∧ ∀ row ∈ rows, c.HasValues q.groupBy row) &&
      passes (fun out : List (Group Value) => decide
        (out.map (fun g => g.map fun row => (c.rowAccessor.get row "id").toOption.map Value.display) =
          [[some "p", some "r", some "v"], [some "q", some "u"], [some "s"], [some "t"]]))
        (groups c q rows))
      (Query.compile "SELECT id FROM t GROUP BY a, b") = true := by
    decide +kernel
  simp only [passes_iff, Bool.and_eq_true, decide_eq_true_eq] at hcheck
  obtain ⟨q, hq, ⟨hgrouped, hvalues⟩, out, hout, hids⟩ := hcheck
  obtain ⟨out', -, hgroups, -, hperm, -, hleads, -, hvalue⟩ := grouping_is_partition_by_value hvalues
  obtain rfl := Except.ok.inj (hout.symm.trans (hgroups q hgrouped rfl))
  exact ⟨q, out, hq, hout, hids, hperm, hleads, hvalue⟩

/-- The key of a timestamp has no nanoseconds in it, so that two moments of one second are in one group. -/
theorem grouping_merges_moments_of_one_second :
    let c : Conditions Value := ⟨.ofObjects, .default, []⟩
    let record (v : Value) : CompositeRow Value := [⟨"t", some (.object [("x", v)])⟩]
    let moment (n : Nat) (h : n < 2 * nanosecondsPerSecond) : Value :=
      .date ⟨2024, 1, 1, 0, 0, 0, n, by decide, by decide, by decide, by decide, by decide, by decide,
        by decide, by decide, by decide, h⟩
    let early := moment 250000000 (by decide)
    let late := moment 750000000 (by decide)
    early.compare? late = some .lt ∧ ¬ early.Coincides late ∧
      ∃ q out, Query.compile "SELECT count(*) FROM t GROUP BY x" = .ok q ∧
        groups c q [record early, record late] = .ok out ∧ out.map List.length = [2] := by
  intro c record moment early late
  have hcompare : early.compare? late = some .lt := by decide +kernel
  have hcheck : passes (fun q : Query => passes (fun out : List (Group Value) =>
      decide (out.map List.length = [2])) (groups c q [record early, record late]))
      (Query.compile "SELECT count(*) FROM t GROUP BY x") = true := by
    decide +kernel
  simp only [passes_iff, decide_eq_true_eq] at hcheck
  obtain ⟨q, hq, out, hout, hlength⟩ := hcheck
  refine ⟨hcompare, ?_, q, out, hq, hout, hlength⟩
  rintro (hsame | ⟨x, hx, -⟩)
  · rw [hsame] at hcompare
    exact absurd hcompare (by decide +kernel)
  · cases hx

end RecordQuery.Execute
