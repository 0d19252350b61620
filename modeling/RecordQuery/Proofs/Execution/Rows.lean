import RecordQuery.Proofs.Results
import RecordQuery.Execute.Result
import RecordQuery.Parse.Query
import Mathlib.Data.List.Induction
/-!
# The rows of a query

What the steps from resources to rows give, said without flags and without errors. A step succeeds when
every condition that it evaluates is decided (`Conditions.Decides`); then a condition is a test
(`Conditions.accepts`), the `WHERE` step a filter (`keep_ok_iff`), and a join, left row by left row, the
records that match it (`joinRows_ok_iff`). Rows that are there for want of a match come once each: those of
a left join at their place, those of a right join behind all others.

Rows grow by one slot after the other. What stays as they grow (`Grows`) holds of every row that the joins
lead to, also of those with absent slots: so the slots of every row are those of the resources of the query,
in their order.
-/

namespace RecordQuery

variable {R : Type}

deriving instance DecidableEq for Slot

/-- Reads records that are numbers: every field has the number. -/
def Accessor.ofNumbers : Accessor Nat where
  get n _ := .ok (.integer (Int64.ofNat n))
  fieldNames _ := []

/-- The resources of a row's slots, in order. -/
def CompositeRow.resources (row : CompositeRow R) : List String :=
  row.map Slot.resource

@[simp]
theorem CompositeRow.resources_extend (row : CompositeRow R) (resource : String) (record? : Option R) :
    (row.extend resource record?).resources = row.resources ++ [resource] :=
  List.map_append

/-- The row with a slot for each name and no records. -/
def CompositeRow.absent (names : List String) : CompositeRow R :=
  names.map fun name => ⟨name, none⟩

@[simp]
theorem CompositeRow.resources_absent (names : List String) :
    (absent names : CompositeRow R).resources = names := by
  rw [resources, absent, List.map_map]
  exact List.map_id names

theorem CompositeRow.absent_concat (names : List String) (name : String) :
    (absent (names ++ [name]) : CompositeRow R) = (absent names).extend name none :=
  List.map_append

namespace Execute

theorem ofEval_ok_iff {α : Type} {result : Except EvalError α} {a : α} :
    ofEval result = .ok a ↔ result = .ok a := by
  cases result <;> simp [ofEval, Except.mapError]

/-! ## Conditions -/

/-- `c.Decides p row` holds when evaluating the predicate ends in no error, as the policy has it. -/
def Conditions.Decides (c : Conditions R) (p : Predicate) (row : CompositeRow R) : Prop :=
  ∃ b, c.satisfied p row = .ok b

/-- `c.accepts p row` holds when the row satisfies the predicate. -/
def Conditions.accepts (c : Conditions R) (p : Predicate) (row : CompositeRow R) : Bool :=
  match c.satisfied p row with
  | .ok b => b
  | .error _ => false

variable {c : Conditions R} {p : Predicate} {row : CompositeRow R}

instance : Decidable (c.Decides p row) :=
  match h : c.satisfied p row with
  | .ok b => .isTrue ⟨b, h⟩
  | .error _ => .isFalse fun ⟨_, hb⟩ => by cases h.symm.trans hb

theorem Conditions.accepts_of_satisfied {b : Bool} (h : c.satisfied p row = .ok b) :
    c.accepts p row = b := by
  rw [accepts, h]

theorem Conditions.Decides.satisfied (h : c.Decides p row) :
    c.satisfied p row = .ok (c.accepts p row) := by
  obtain ⟨b, hb⟩ := h
  rw [accepts_of_satisfied hb, hb]

/-- The rows that a condition keeps are those that it accepts. -/
theorem keep_ok_iff {rows kept : List (CompositeRow R)} :
    keep c p rows = .ok kept ↔
      (∀ row ∈ rows, c.Decides p row) ∧ kept = rows.filter (c.accepts p) := by
  induction rows generalizing kept with
  | nil =>
      refine ⟨?_, ?_⟩
      · rintro ⟨⟩
        exact ⟨List.forall_mem_nil _, rfl⟩
      · rintro ⟨-, rfl⟩
        rfl
  | cons row rest ih =>
      simp only [keep, bind_ok_iff, pure_ok_iff, ih, List.forall_mem_cons]
      refine ⟨?_, ?_⟩
      · rintro ⟨b, hb, _, ⟨hrest, rfl⟩, rfl⟩
        refine ⟨⟨⟨b, hb⟩, hrest⟩, ?_⟩
        rw [List.filter_cons, Conditions.accepts_of_satisfied hb]
      · rintro ⟨⟨hrow, hrest⟩, rfl⟩
        refine ⟨_, hrow.satisfied, _, ⟨hrest, rfl⟩, ?_⟩
        rw [List.filter_cons]

/-! ## Flags -/

theorem selected_map {α : Type} (items : List α) (f : α → Bool) :
    selected items (items.map f) = items.filter f := by
  induction items with
  | nil => rfl
  | cons a items ih =>
      unfold selected at ih ⊢
      rw [List.map_cons, List.zip_cons_cons, List.filter_cons, List.filter_cons]
      split
      · rw [List.map_cons, ih]
      · exact ih

/-- The flags of the records that match no row, where those of the matches come of a test on pairs. -/
theorem unmatched_eq {α : Type} (records : List R) (rows : List α) (test : α → R → Bool) :
    unmatched records (rows.map fun row => records.map (test row)) =
      records.map fun record => rows.all fun row => !test row record := by
  have hfold : ∀ seen : R → Bool,
      (rows.map fun row => records.map (test row)).foldl (List.zipWith (· || ·)) (records.map seen) =
        records.map fun record => seen record || rows.any fun row => test row record := by
    induction rows with
    | nil => simp
    | cons row rows ih =>
        intro seen
        rw [List.map_cons, List.foldl_cons, List.zipWith_map, List.zipWith_self, ih]
        simp only [List.any_cons, Bool.or_assoc]
  rw [unmatched, hfold, List.map_map]
  refine List.map_congr_left fun record _ => ?_
  rw [Function.comp_apply, Bool.false_or, List.not_any_eq_all_not]

/-! ## One join -/

/-- `c.matched j row record` holds when the row and the record satisfy the condition of the join. -/
def Conditions.matched (c : Conditions R) (j : Join) (row : CompositeRow R) (record : R) : Bool :=
  c.accepts j.condition (row.extend j.resource (some record))

/-- `c.DecidesJoin j records rows` holds when no pair of a row and a record ends in an error. -/
def Conditions.DecidesJoin (c : Conditions R) (j : Join) (records : List R)
    (rows : List (CompositeRow R)) : Prop :=
  ∀ row ∈ rows, ∀ record ∈ records, c.Decides j.condition (row.extend j.resource (some record))

instance {j : Join} {records : List R} {rows : List (CompositeRow R)} :
    Decidable (c.DecidesJoin j records rows) :=
  inferInstanceAs (Decidable (∀ row ∈ rows, ∀ record ∈ records, c.Decides _ _))

/-- The rows that a join makes of one row: one for each record that matches it, in the order of the
records, and where none does, for a left join the row with the joined side absent. -/
def rowsOf (c : Conditions R) (j : Join) (records : List R) (row : CompositeRow R) :
    List (CompositeRow R) :=
  let matching := records.filter (c.matched j row)
  if j.kind = .left ∧ matching.isEmpty then [row.extend j.resource none]
  else matching.map fun record => row.extend j.resource (some record)

/-- The rows that a join puts behind all others: for a right join the records that match no row, in their
order, with every slot before them absent. -/
def rowsBehind (c : Conditions R) (j : Join) (joined : List String) (records : List R)
    (rows : List (CompositeRow R)) : List (CompositeRow R) :=
  if j.kind = .right then
    (records.filter fun record => rows.all fun row => !c.matched j row record).map fun record =>
      (CompositeRow.absent joined).extend j.resource (some record)
  else []

theorem matchesOf_ok_iff {j : Join} {records : List R} {flags : List Bool} :
    matchesOf c j records row = .ok flags ↔
      (∀ record ∈ records, c.Decides j.condition (row.extend j.resource (some record))) ∧
        flags = records.map (c.matched j row) :=
  mapM_ok_iff_map fun _ _ => Conditions.accepts_of_satisfied

theorem joinedRows_matched (j : Join) (records : List R) (row : CompositeRow R) :
    joinedRows j records row (records.map (c.matched j row)) = rowsOf c j records row := by
  have hnone : ((records.map (c.matched j row)).all fun flag => !flag) =
      (records.filter (c.matched j row)).isEmpty := by
    rw [List.all_map, Bool.eq_iff_iff]
    simp
  rw [joinedRows, rowsOf, hnone, selected_map]

/-- **The rows of a join.** A join succeeds when no pair of a row and a record ends in an error. -/
theorem joinRows_ok_iff {j : Join} {joined : List String} {records : List R}
    {rows out : List (CompositeRow R)} :
    joinRows c j joined records rows = .ok out ↔
      c.DecidesJoin j records rows ∧
        out = rows.flatMap (rowsOf c j records) ++ rowsBehind c j joined records rows := by
  have hflags : ∀ {flags}, rows.mapM (matchesOf c j records) = .ok flags ↔
      c.DecidesJoin j records rows ∧ flags = rows.map fun row => records.map (c.matched j row) := by
    intro flags
    rw [mapM_ok_iff_map fun _ _ h => (matchesOf_ok_iff.mp h).2.symm]
    simp only [matchesOf_ok_iff, exists_and_left, exists_eq, and_true]
    rfl
  have hpairs : ((rows.zip (rows.map fun row => records.map (c.matched j row))).flatMap
      fun pair => joinedRows j records pair.1 pair.2) = rows.flatMap (rowsOf c j records) := by
    rw [← List.map_prod_left_eq_zip, List.flatMap_map]
    exact List.flatMap_congr fun row _ => joinedRows_matched j records row
  have hout : (if j.kind = .right then rows.flatMap (rowsOf c j records) ++
      rightRows j joined records (rows.map fun row => records.map (c.matched j row))
      else rows.flatMap (rowsOf c j records)) =
      rows.flatMap (rowsOf c j records) ++ rowsBehind c j joined records rows := by
    rw [rowsBehind, rightRows, unmatched_eq, selected_map]
    split
    · rfl
    · rw [List.append_nil]
  simp only [joinRows, bind_ok_iff, pure_ok_iff, hflags, and_assoc, exists_and_left, exists_eq_left,
    hpairs, hout]
  exact and_congr_right fun _ => eq_comm

/-! ## The slots of rows -/

/-- Rows crossed with one resource after the other. -/
def crossAll (source : Source R) (rows : List (CompositeRow R)) (resources : List String) :
    Except RunError (List (CompositeRow R)) :=
  resources.foldlM (fun rows resource => do return cross rows resource (← records source resource))
    rows

theorem crossProduct_eq (source : Source R) (resources : List String) :
    crossProduct source resources = crossAll source [[]] resources :=
  rfl

theorem crossAll_cons (source : Source R) (rows : List (CompositeRow R)) (resource : String)
    (resources : List String) :
    crossAll source rows (resource :: resources) =
      records source resource >>= fun records => crossAll source (cross rows resource records) resources := by
  rw [crossAll, List.foldlM_cons, bind_assoc]
  rfl

theorem crossAll_append {source : Source R} {rows next out : List (CompositeRow R)}
    {resources resources' : List String} (hnext : crossAll source rows resources = .ok next)
    (hout : crossAll source next resources' = .ok out) :
    crossAll source rows (resources ++ resources') = .ok out := by
  rw [crossAll, List.foldlM_append]
  exact bind_ok_iff.mpr ⟨next, hnext, hout⟩

theorem source_of_records {source : Source R} {resource : String} {items : List R}
    (h : records source resource = .ok items) : source resource = some items := by
  unfold records at h
  split at h
  next hsome => rw [hsome, Except.ok.inj h]
  next => cases h

/-- `Grows allowed I` holds when the row without slots has `I`, over no names, and a row with `I` keeps it
when it grows by a slot, without a record or with one that is allowed there. -/
structure Grows (allowed : String → R → Prop) (I : List String → CompositeRow R → Prop) : Prop where
  empty : I [] []
  extend : ∀ {names row}, I names row → ∀ resource record?,
    (∀ record, record? = some record → allowed resource record) →
      I (names ++ [resource]) (row.extend resource record?)

/-- `Allows allowed source` holds when every record of the source is allowed in the slot of its
resource. -/
def Allows (allowed : String → R → Prop) (source : Source R) : Prop :=
  ∀ resource items, source resource = some items → ∀ record ∈ items, allowed resource record

section Growth

variable {allowed : String → R → Prop} {I : List String → CompositeRow R → Prop} {source : Source R}
  {names : List String} {rows out : List (CompositeRow R)}

theorem Grows.absent (hI : Grows allowed I) (names : List String) : I names (CompositeRow.absent names) := by
  induction names using List.reverseRecOn with
  | nil => exact hI.empty
  | append_singleton names name ih =>
      rw [CompositeRow.absent_concat]
      exact hI.extend ih name none (by rintro _ ⟨⟩)

theorem Grows.cross (hI : Grows allowed I) (h : ∀ row ∈ rows, I names row) (resource : String)
    {items : List R} (hitems : ∀ record ∈ items, allowed resource record) :
    ∀ row ∈ cross rows resource items, I (names ++ [resource]) row := by
  intro row hrow
  obtain ⟨start, hstart, hrow⟩ := List.mem_flatMap.mp hrow
  obtain ⟨record, hrecord, rfl⟩ := List.mem_map.mp hrow
  refine hI.extend (h start hstart) resource (some record) ?_
  rintro _ ⟨⟩
  exact hitems record hrecord

theorem Grows.crossAll (hI : Grows allowed I) (hsource : Allows allowed source)
    {resources : List String} (h : ∀ row ∈ rows, I names row)
    (hout : crossAll source rows resources = .ok out) : ∀ row ∈ out, I (names ++ resources) row := by
  induction resources generalizing names rows with
  | nil =>
      obtain rfl := pure_ok_iff.mp hout
      rw [List.append_nil]
      exact h
  | cons resource resources ih =>
      rw [crossAll_cons] at hout
      obtain ⟨items, hitems, hout⟩ := bind_ok_iff.mp hout
      rw [List.append_cons]
      exact ih (hI.cross h resource (hsource resource items (source_of_records hitems))) hout

/-- Also the rows that an outer join adds are grown. -/
theorem Grows.joinRows (hI : Grows allowed I) {j : Join} {items : List R}
    (hitems : ∀ record ∈ items, allowed j.resource record) (h : ∀ row ∈ rows, I names row)
    (hout : joinRows c j names items rows = .ok out) : ∀ row ∈ out, I (names ++ [j.resource]) row := by
  obtain ⟨-, rfl⟩ := joinRows_ok_iff.mp hout
  have hsome : ∀ {row}, I names row → ∀ {test : R → Bool}, ∀ record ∈ items.filter test,
      I (names ++ [j.resource]) (row.extend j.resource (some record)) := by
    intro row hrow test record hrecord
    refine hI.extend hrow j.resource (some record) ?_
    rintro _ ⟨⟩
    exact hitems record (List.mem_filter.mp hrecord).1
  intro row hrow
  obtain hrow | hrow := List.mem_append.mp hrow
  · obtain ⟨start, hstart, hrow⟩ := List.mem_flatMap.mp hrow
    unfold rowsOf at hrow
    dsimp only at hrow
    split at hrow
    · rw [List.mem_singleton.mp hrow]
      exact hI.extend (h start hstart) j.resource none (by rintro _ ⟨⟩)
    · obtain ⟨record, hrecord, rfl⟩ := List.mem_map.mp hrow
      exact hsome (h start hstart) record hrecord
  · unfold rowsBehind at hrow
    split at hrow
    · obtain ⟨record, hrecord, rfl⟩ := List.mem_map.mp hrow
      exact hsome (hI.absent names) record hrecord
    · cases hrow

theorem Grows.joinAll (hI : Grows allowed I) (hsource : Allows allowed source) {joins : List Join}
    (h : ∀ row ∈ rows, I names row) (hout : joinAll c source names joins rows = .ok out) :
    ∀ row ∈ out, I (names ++ joins.map Join.resource) row := by
  induction joins generalizing names rows with
  | nil =>
      cases hout
      rw [List.map_nil, List.append_nil]
      exact h
  | cons j joins ih =>
      obtain ⟨items, hitems, hout⟩ := bind_ok_iff.mp hout
      obtain ⟨next, hnext, hout⟩ := bind_ok_iff.mp hout
      rw [List.map_cons, List.append_cons]
      exact ih (hI.joinRows (hsource _ _ (source_of_records hitems)) h (ofEval_ok_iff.mp hnext)) hout

end Growth

/-- `Named names rows` holds when the slots of every row are those of the names, in order. -/
def Named (names : List String) (rows : List (CompositeRow R)) : Prop :=
  ∀ row ∈ rows, row.resources = names

/-- A row has the slots that it has grown by, whatever records are in them. -/
theorem grows_resources : Grows (fun _ (_ : R) => True) fun names row => row.resources = names where
  empty := rfl
  extend h resource record? _ := by rw [CompositeRow.resources_extend, h]

variable {names : List String} {rows out : List (CompositeRow R)}

theorem Named.cross (h : Named names rows) (resource : String) (records : List R) :
    Named (names ++ [resource]) (cross rows resource records) :=
  grows_resources.cross h resource fun _ _ => trivial

/-- The rows of a cross product have a slot for each resource. -/
theorem named_crossProduct {source : Source R} {resources : List String}
    (hout : crossProduct source resources = .ok out) : Named resources out :=
  grows_resources.crossAll (fun _ _ _ _ _ => trivial) (List.forall_mem_singleton.mpr rfl) hout

theorem Named.joinRows {j : Join} {records : List R} (h : Named names rows)
    (hout : joinRows c j names records rows = .ok out) : Named (names ++ [j.resource]) out :=
  grows_resources.joinRows (fun _ _ => trivial) h hout

theorem Named.joinAll {source : Source R} {joins : List Join} (h : Named names rows)
    (hout : joinAll c source names joins rows = .ok out) :
    Named (names ++ joins.map Join.resource) out :=
  grows_resources.joinAll (fun _ _ _ _ _ => trivial) h hout

/-- **Joins lose and invent no row.** Where no pair of a row and a record ends in an error, a join gives
one row for each pair that matches, row by row and record by record; a left join also each row without a
match, at its place; a right join also each record without a match, behind all others. The rows that a
chain of joins leads to have a slot for each resource of the query, in order. -/
theorem joins_lose_and_invent_no_row (c : Conditions R) :
    (∀ (j : Join) (joined : List String) (records : List R) (rows : List (CompositeRow R)),
      c.DecidesJoin j records rows →
        joinRows c j joined records rows =
          .ok (rows.flatMap (rowsOf c j records) ++ rowsBehind c j joined records rows)) ∧
    ∀ (source : Source R) (q : Query) (start joined : List (CompositeRow R)),
      crossProduct source q.resources = .ok start →
        joinAll c source q.resources q.joins start = .ok joined →
          ∀ row ∈ joined, row.resources = q.allResources := by
  refine ⟨fun j joined records rows h => joinRows_ok_iff.mpr ⟨h, rfl⟩, ?_⟩
  intro source q start joined hstart hjoined
  exact (named_crossProduct hstart).joinAll hjoined

/-- Records that occur twice, rows and records without a match, and an outer join behind another. -/
theorem joins_lose_and_invent_no_row_of_outer :
    let c : Conditions Nat := ⟨.ofNumbers, .default, []⟩
    let source : Source Nat := fun name =>
      [("a", [1, 2]), ("b", [2, 2, 3]), ("c", [4, 2])].lookup name
    let rows : List (CompositeRow Nat) := [[⟨"a", some 1⟩, ⟨"b", none⟩],
      [⟨"a", some 2⟩, ⟨"b", some 2⟩], [⟨"a", some 2⟩, ⟨"b", some 2⟩]]
    let joined : List (CompositeRow Nat) := [[⟨"a", some 2⟩, ⟨"b", some 2⟩, ⟨"c", some 2⟩],
      [⟨"a", some 2⟩, ⟨"b", some 2⟩, ⟨"c", some 2⟩], [⟨"a", none⟩, ⟨"b", none⟩, ⟨"c", some 4⟩]]
    ∃ q start j j',
      Query.compile "SELECT * FROM a LEFT JOIN b ON a.x = b.x RIGHT JOIN c ON b.x = c.x" = .ok q ∧
      q.joins[0]? = some j ∧ q.joins[1]? = some j' ∧ crossProduct source q.resources = .ok start ∧
      c.DecidesJoin j [2, 2, 3] start ∧ joinRows c j ["a"] [2, 2, 3] start = .ok rows ∧
      c.DecidesJoin j' [4, 2] rows ∧ joinRows c j' ["a", "b"] [4, 2] rows = .ok joined ∧
      joinAll c source q.resources q.joins start = .ok joined ∧
      ∀ row ∈ joined, row.resources = ["a", "b", "c"] := by
  intro c source rows joined
  have hcheck : passes (fun q => q.joins[0]?.any fun j => q.joins[1]?.any fun j' =>
      decide (q.allResources = ["a", "b", "c"]) &&
      passes (fun start =>
        passes (fun out => decide (out = joined)) (joinAll c source q.resources q.joins start) &&
        decide (c.DecidesJoin j [2, 2, 3] start ∧ c.DecidesJoin j' [4, 2] rows ∧
          start.flatMap (rowsOf c j [2, 2, 3]) ++ rowsBehind c j ["a"] [2, 2, 3] start = rows ∧
          rows.flatMap (rowsOf c j' [4, 2]) ++ rowsBehind c j' ["a", "b"] [4, 2] rows = joined))
        (crossProduct source q.resources))
      (Query.compile "SELECT * FROM a LEFT JOIN b ON a.x = b.x RIGHT JOIN c ON b.x = c.x") = true := by
    decide +kernel
  simp only [passes_iff, Option.any_eq_true, Bool.and_eq_true, decide_eq_true_eq] at hcheck
  obtain ⟨q, hq, j, hj, j', hj', hresources, start, hstart, ⟨_, hjoined, rfl⟩, hdecides, hdecides',
    hrows, hout⟩ := hcheck
  refine ⟨q, start, j, j', hq, hj, hj', hstart, hdecides, ?_, hdecides', ?_, hjoined, ?_⟩
  · rw [(joins_lose_and_invent_no_row c).1 j ["a"] [2, 2, 3] start hdecides, hrows]
  · rw [(joins_lose_and_invent_no_row c).1 j' ["a", "b"] [4, 2] rows hdecides', hout]
  · rw [← hresources]
    exact (joins_lose_and_invent_no_row c).2 source q start joined hstart hjoined

/-! ## Whole runs -/

/-- The rows that a condition keeps, if there is one. -/
def keepWhere (c : Conditions R) (p? : Option Predicate) (rows : List (CompositeRow R)) :
    Except EvalError (List (CompositeRow R)) :=
  match p? with
  | some p => keep c p rows
  | none => .ok rows

/-- What a query makes of the rows that it is about. -/
def resultOf (c : Conditions R) (q : Query) (rows : List (CompositeRow R)) :
    Except RunError (List ResultRow) := do
  let groups ← ofEval (groups c q rows)
  let groups ← ofEval (ordered c q.orderBy groups)
  ofEval ((window q groups).mapM (project c q.fields))

theorem rows_ok_iff {source : Source R} {q : Query} {kept : List (CompositeRow R)} :
    Execute.rows c source q = .ok kept ↔
      ∃ start joined, crossProduct source q.resources = .ok start ∧
        joinAll c source q.resources q.joins start = .ok joined ∧
        keepWhere c q.filter? joined = .ok kept := by
  unfold Execute.rows
  cases q.filter? with
  | none => simp only [bind_ok_iff, exists_and_left, pure_ok_iff, keepWhere, Except.ok.injEq]
  | some p => simp only [bind_ok_iff, exists_and_left, ofEval_ok_iff, keepWhere]

theorem keepWhere_subset {p? : Option Predicate} (h : keepWhere c p? rows = .ok out) : out ⊆ rows := by
  cases p? with
  | none =>
      cases h
      exact List.Subset.refl _
  | some p =>
      obtain ⟨-, rfl⟩ := keep_ok_iff.mp h
      exact List.filter_subset_self _

/-- The rows that a query is about are grown by a slot for each of its resources. -/
theorem Grows.kept {allowed : String → R → Prop} {I : List String → CompositeRow R → Prop}
    (hI : Grows allowed I) {source : Source R} (hsource : Allows allowed source) {q : Query}
    (h : Execute.rows c source q = .ok out) : ∀ row ∈ out, I q.allResources row := by
  obtain ⟨start, joined, hstart, hjoined, hkept⟩ := rows_ok_iff.mp h
  have hgrown := hI.crossAll hsource (List.forall_mem_singleton.mpr hI.empty) hstart
  exact fun row hrow => hI.joinAll hsource hgrown hjoined row (keepWhere_subset hkept hrow)

/-- The steps of a run that succeeds. -/
theorem run_ok_iff {q : Query} {source : Source R} {result : List ResultRow} :
    q.run source c.accessor c.params c.settings = .ok result ↔
      q.placeholders ≤ c.params.length ∧
        ∃ kept, Execute.rows c source q = .ok kept ∧ resultOf c q kept = .ok result := by
  unfold Query.run
  split
  next hshort =>
    refine ⟨?_, ?_⟩
    · rintro ⟨⟩
    · rintro ⟨henough, -⟩
      exact absurd henough (Nat.not_le.mpr hshort)
  next henough =>
    refine Iff.trans ?_ (and_iff_right (Nat.not_lt.mp henough)).symm
    exact bind_ok_iff

end Execute

end RecordQuery
