import RecordQuery.Proofs.Execution.Qualified
import RecordQuery.Proofs.Value.Collections
/-!
# What a star shows

`SELECT *` lists the fields of a row slot by slot, but reads each of them back by the name under which it is
listed. Where no name means two fields, the row of the result has the fields of every record in the row,
record by record and in the order of their keys (`star_shows_own_fields`). That takes two things: the
resources have different names, whatever the case of letters, since a qualifier means the first slot with
its name; and with a single resource no key starts with its name and a dot, since such a key is read as
qualified. Without them a star may show a field with the value of another
(`star_shows_other_fields`).
-/

namespace RecordQuery

variable {R : Type}

/-! ## Objects -/

namespace Value

/-- A key of an object is found as it is. -/
theorem readField_of_mem {fields : List (String × Value)} (h : (fields.map Prod.fst).Pairwise (· < ·))
    {key : String} {value : Value} (hmem : (key, value) ∈ fields) :
    (object fields).readField key = value := by
  have hlookup : (object fields).lookup? key = some value := by
    simp only [lookup?, field?_of_mem h hmem]
  rw [readField, hlookup]

end Value

/-! ## The fields of a row -/

/-- The fields of the record of a slot; none if there is no record. -/
def Slot.ownFields (slot : Slot Value) : List (String × Value) :=
  match slot.record? with
  | some (.object fields) => fields
  | _ => []

/-- `slot.HoldsObject` holds when the record of the slot, if there is one, is an object. -/
def Slot.HoldsObject (slot : Slot Value) : Prop :=
  ∀ record, slot.record? = some record → record.IsObject

theorem Slot.fieldNames_eq (slot : Slot Value) :
    slot.fieldNames .ofObjects = slot.ownFields.map Prod.fst := by
  unfold fieldNames ownFields
  split
  next record hrecord =>
    rw [hrecord]
    cases record <;> rfl
  next hrecord => rw [hrecord]; rfl

/-- The record of a slot is read by its own keys. -/
theorem Slot.read_of_mem {slot : Slot Value} (h : slot.HoldsObject) {key : String} {value : Value}
    (hmem : (key, value) ∈ slot.ownFields) : slot.read .ofObjects key = .ok value := by
  obtain ⟨resource, record?⟩ := slot
  cases record? with
  | none => cases hmem
  | some record =>
      obtain ⟨fields, rfl, hsorted⟩ := h record rfl
      exact congrArg Except.ok (Value.readField_of_mem hsorted hmem)

namespace CompositeRow

/-- The columns of a row's own fields: slot by slot one for each key, and named by the key alone where there
is only one slot. -/
def ownColumns : CompositeRow Value → List (String × Value)
  | [slot] => slot.ownFields
  | row => row.flatMap fun slot => slot.ownFields.map fun (key, v) => (slot.resource ++ "." ++ key, v)

theorem fieldNames_eq (row : CompositeRow Value) :
    row.fieldNames .ofObjects = row.ownColumns.map Prod.fst := by
  unfold fieldNames ownColumns
  split
  next slot => exact slot.fieldNames_eq
  next row hseveral =>
    split
    next slot => exact absurd rfl (hseveral slot)
    next =>
      rw [List.map_flatMap]
      refine List.flatMap_congr fun slot _ => ?_
      rw [slot.fieldNames_eq, List.map_map, List.map_map]
      rfl

/-- A slot is found under its own name where the names are different. -/
theorem slot?_of_mem {row : CompositeRow R}
    (h : row.resources.Pairwise fun a b => Name.same a b = false) {slot : Slot R} (hmem : slot ∈ row) :
    row.slot? slot.resource = some slot := by
  have hself : Name.same slot.resource slot.resource = true := Name.same_iff.mpr rfl
  unfold slot?
  induction row with
  | nil => cases hmem
  | cons first row ih =>
      obtain ⟨hfirst, hrest⟩ := List.pairwise_cons.mp h
      rcases List.mem_cons.mp hmem with rfl | hmem
      · exact List.find?_cons_of_pos hself
      · rw [List.find?_cons_of_neg (by
          rw [hfirst _ (List.mem_map_of_mem hmem)]
          exact Bool.false_ne_true)]
        exact ih hrest hmem

/-- `row.ToldApart` holds when no column of the row can be taken for another: the names of the slots are
different and without dots, and no key of a single slot is qualified by its name. -/
structure ToldApart (row : CompositeRow Value) : Prop where
  resources : row.resources.Pairwise fun a b => Name.same a b = false
  dots : ∀ slot ∈ row, Name.hasDot slot.resource = false
  keys : ∀ slot, row = [slot] → ∀ key ∈ slot.ownFields.map Prod.fst, ∀ qualifier rest,
    Name.splitQualifier? key = some (qualifier, rest) → Name.same slot.resource qualifier = false

variable {row : CompositeRow Value}

/-- A single slot is read by a key that is not qualified by it. -/
theorem read_of_single {slot : Slot R} {key : String} {accessor : Accessor R} {resolution : FieldResolution}
    (h : ∀ qualifier rest, Name.splitQualifier? key = some (qualifier, rest) →
      Name.same slot.resource qualifier = false) :
    CompositeRow.read accessor resolution [slot] key = slot.read accessor key := by
  have hnone : qualifiedSlot? [slot] key = none := by
    unfold qualifiedSlot?
    cases hsplit : Name.splitQualifier? key with
    | none => rfl
    | some parts =>
        have hslot : slot? [slot] parts.1 = none :=
          List.find?_cons_of_neg (by rw [h parts.1 parts.2 hsplit]; exact Bool.false_ne_true)
        simp only [hslot, Option.map_none]
  unfold read
  rw [hnone]

/-- Every column of a row's own fields is read by its name. -/
theorem read_of_mem_ownColumns (h : row.ToldApart) (hobjects : ∀ slot ∈ row, slot.HoldsObject)
    (resolution : FieldResolution) {name : String} {value : Value} (hmem : (name, value) ∈ row.ownColumns) :
    row.read .ofObjects resolution name = .ok value := by
  unfold ownColumns at hmem
  split at hmem
  next slot =>
    rw [read_of_single (h.keys slot rfl name (List.mem_map_of_mem hmem))]
    exact Slot.read_of_mem (hobjects slot List.mem_cons_self) hmem
  next =>
    obtain ⟨slot, hslot, hmem⟩ := List.mem_flatMap.mp hmem
    obtain ⟨⟨key, v⟩, hfield, hcolumn⟩ := List.mem_map.mp hmem
    obtain ⟨rfl, rfl⟩ := Prod.mk.inj hcolumn
    rw [read_of_slot? (Name.splitQualifier?_append (h.dots slot hslot) key)
      (slot?_of_mem h.resources hslot)]
    exact Slot.read_of_mem (hobjects slot hslot) hfield

end CompositeRow

namespace Execute

/-! ## The slots of the rows that are kept -/

/-- `Slotwise P rows` holds when every slot of every row has the property. -/
def Slotwise (P : Slot R → Prop) (rows : List (CompositeRow R)) : Prop :=
  ∀ row ∈ rows, ∀ slot ∈ row, P slot

variable {c : Conditions R}

/-- A property of slots stays when a row grows, if the slots without a record have it. -/
theorem grows_slotwise {P : Slot R → Prop} (habsent : ∀ resource, P ⟨resource, none⟩) :
    Grows (fun resource record => P ⟨resource, some record⟩) fun _ row => ∀ slot ∈ row, P slot where
  empty := List.forall_mem_nil _
  extend h resource record? hallowed := by
    intro slot hslot
    rcases List.mem_append.mp hslot with hslot | hslot
    · exact h slot hslot
    · rw [List.mem_singleton.mp hslot]
      cases record? with
      | none => exact habsent resource
      | some record => exact hallowed record rfl

/-! ## The columns of a star -/

variable {settings : Settings} {params : List Value}

theorem allColumns_eq {row : CompositeRow Value} (h : row.ToldApart)
    (hobjects : ∀ slot ∈ row, slot.HoldsObject) :
    allColumns ⟨.ofObjects, settings, params⟩ row = .ok row.ownColumns := by
  have hnames : (Conditions.rowAccessor ⟨.ofObjects, settings, params⟩).fieldNames row =
      row.ownColumns.map Prod.fst := row.fieldNames_eq
  rw [allColumns, hnames, mapM_ok_iff, List.forall₂_map_left_iff, List.forall₂_same]
  intro column hcolumn
  exact bind_ok_iff.mpr ⟨_, CompositeRow.read_of_mem_ownColumns h hobjects _ hcolumn, rfl⟩

/-- The row that a star alone gives for a group is that of the group's first row. -/
theorem project_star {row : CompositeRow Value} (h : row.ToldApart)
    (hobjects : ∀ slot ∈ row, slot.HoldsObject) (more : Group Value) :
    project ⟨.ofObjects, settings, params⟩ [⟨.wildcard, none⟩] (row :: more) =
      .ok ⟨row.ownColumns⟩ := by
  have hcolumns : columns ⟨.ofObjects, settings, params⟩ (row :: more) ⟨.wildcard, none⟩ =
      .ok row.ownColumns := allColumns_eq h hobjects
  rw [project, List.mapM_cons, hcolumns]
  show Except.ok (ResultRow.mk [row.ownColumns].flatten) = _
  rw [List.flatten_cons, List.flatten_nil, List.append_nil]

/-- Ordering keeps every group. -/
theorem ordered_perm {orderBy : List OrderField} {groups inOrder : List (Group R)}
    (h : ordered c orderBy groups = .ok inOrder) : inOrder.Perm groups := by
  unfold ordered at h
  split at h
  next =>
    cases h
    exact .refl _
  next =>
    obtain ⟨keys, hkeys, h⟩ := bind_ok_iff.mp h
    obtain rfl := pure_ok_iff.mp h
    have hlength : keys.length = groups.length := (mapM_ok_iff.mp hkeys).length_eq.symm
    have hgroups : (keys.zip groups).map Prod.snd = groups := List.map_snd_zip (Nat.le_of_eq hlength.symm)
    exact ((Sorting.sort_perm _ _).map Prod.snd).trans (.of_eq hgroups)

theorem window_subset (q : Query) (groups : List (Group R)) : window q groups ⊆ groups := by
  unfold window
  dsimp only
  split
  · exact List.Subset.trans (List.take_subset _ _) (List.drop_subset _ _)
  · exact List.drop_subset _ _

/-- Groups of one row each are shown as their rows. -/
theorem mapM_project_star {rows : List (CompositeRow Value)} (h : ∀ row ∈ rows, row.ToldApart)
    (hobjects : Slotwise Slot.HoldsObject rows) {groups : List (Group Value)}
    (hgroups : groups ⊆ rows.map fun row => [row]) :
    groups.mapM (project ⟨.ofObjects, settings, params⟩ [⟨.wildcard, none⟩]) =
      .ok (groups.flatten.map fun row => ⟨row.ownColumns⟩) := by
  induction groups with
  | nil => rfl
  | cons group groups ih =>
      obtain ⟨hgroup, hrest⟩ := List.cons_subset.mp hgroups
      obtain ⟨row, hrow, rfl⟩ := List.mem_map.mp hgroup
      rw [List.mapM_cons, project_star (h row hrow) (hobjects row hrow), ih hrest]
      rfl

end Execute

open Execute

/-- `q.ToldApart source` holds when the resources of the query have different names, whatever the case of
letters, and no key of a record is qualified by the name of a single resource. -/
structure Query.ToldApart (q : Query) (source : Source Value) : Prop where
  resources : q.allResources.Pairwise fun a b => Name.same a b = false
  keys : ∀ resource, q.allResources = [resource] → ∀ records, source resource = some records →
    ∀ record ∈ records, ∀ key ∈ record.fieldNames, ∀ qualifier rest,
      Name.splitQualifier? key = some (qualifier, rest) → Name.same resource qualifier = false

/-- `Source.OfObjects source` holds when every record is an object. -/
def Source.OfObjects (source : Source Value) : Prop :=
  ∀ resource records, source resource = some records → ∀ record ∈ records, record.IsObject

namespace Query

variable {q : Query} {text : String} {source : Source Value} {params : List Value} {settings : Settings}
  {kept : List (CompositeRow Value)}

/-- The rows of such a query are told apart, and what is in their slots are objects. -/
theorem toldApart_of_rows (hcompile : compile text = .ok q) (hobjects : source.OfObjects)
    (hapart : q.ToldApart source)
    (hkept : Execute.rows ⟨.ofObjects, settings, params⟩ source q = .ok kept) :
    (∀ row ∈ kept, row.ToldApart) ∧ Slotwise Slot.HoldsObject kept := by
  have hnamed := grows_resources.kept (fun _ _ _ _ _ => trivial) hkept
  -- what a slot holds is a record of its resource, and that is an object
  let P (slot : Slot Value) : Prop := slot.HoldsObject ∧ ∀ record, slot.record? = some record →
    ∃ records, source slot.resource = some records ∧ record ∈ records
  have hsource : Allows (fun resource record => P ⟨resource, some record⟩) source := by
    refine fun resource records hsome record hmem => ⟨?_, ?_⟩
    · rintro _ ⟨⟩
      exact hobjects resource records hsome record hmem
    · rintro _ ⟨⟩
      exact ⟨records, hsome, hmem⟩
  have hslots := (grows_slotwise (P := P) fun _ => ⟨by rintro _ ⟨⟩, by rintro _ ⟨⟩⟩).kept hsource hkept
  refine ⟨fun row hrow => ⟨?_, fun slot hslot => ?_, ?_⟩, fun row hrow slot hslot =>
    (hslots row hrow slot hslot).1⟩
  · rw [hnamed row hrow]
    exact hapart.resources
  · refine hasDot_of_compile hcompile ?_
    rw [← hnamed row hrow]
    exact List.mem_map_of_mem hslot
  · rintro slot rfl key hkey qualifier rest hsplit
    obtain ⟨field, hfield, rfl⟩ := List.mem_map.mp hkey
    obtain ⟨resource, record?⟩ := slot
    cases record? with
    | none => cases hfield
    | some record =>
        obtain ⟨hobject, hrecord⟩ := hslots _ hrow _ List.mem_cons_self
        obtain ⟨fields, rfl, -⟩ := hobject record rfl
        obtain ⟨records, hsome, hmem⟩ := hrecord _ rfl
        exact hapart.keys resource (hnamed _ hrow).symm records hsome _ hmem field.1
          (List.mem_map_of_mem hfield) qualifier rest hsplit

/-- **A star shows every record's own fields.** Where no name means two fields, `SELECT *` shows for every
row that is kept, slot by slot in the order of the resources, one column for each key of the record, in the
order of the keys and with the value that the record has under it; ordered and cut as the query says, or as
they are. -/
theorem star_shows_own_fields (hcompile : compile text = .ok q) (hfields : q.fields = [⟨.wildcard, none⟩])
    (hgroups : q.isGrouped = false) (haggregates : q.hasAggregates = false)
    (henough : q.placeholders ≤ params.length) (hobjects : source.OfObjects) (hapart : q.ToldApart source)
    (hkept : Execute.rows ⟨.ofObjects, settings, params⟩ source q = .ok kept) :
    (∀ row ∈ kept, row.resources = q.allResources ∧ (∀ slot ∈ row, slot.HoldsObject) ∧ ∀ more,
      project ⟨.ofObjects, settings, params⟩ q.fields (row :: more) = .ok ⟨row.ownColumns⟩) ∧
    (∀ inOrder, ordered ⟨.ofObjects, settings, params⟩ q.orderBy (kept.map fun row => [row]) = .ok inOrder →
      inOrder.flatten.Perm kept ∧ q.run source .ofObjects params settings =
        .ok ((window q inOrder).flatten.map fun row => ⟨row.ownColumns⟩)) ∧
    (q.orderBy = [] → q.start? = none → q.limit? = none →
      q.run source .ofObjects params settings = .ok (kept.map fun row => ⟨row.ownColumns⟩)) := by
  obtain ⟨hrows, hslots⟩ := toldApart_of_rows hcompile hobjects hapart hkept
  let c : Conditions Value := ⟨.ofObjects, settings, params⟩
  have hsingle : ∀ rows : List (CompositeRow Value), (rows.map fun row => [row]).flatten = rows :=
    fun rows => by rw [← List.flatMap_def, List.flatMap_singleton']
  have hinto : groups c q kept = .ok (kept.map fun row => [row]) := by
    unfold groups
    rw [hgroups, haggregates]
    rfl
  have hrun : ∀ inOrder, ordered c q.orderBy (kept.map fun row => [row]) = .ok inOrder →
      inOrder.flatten.Perm kept ∧ q.run source .ofObjects params settings =
        .ok ((window q inOrder).flatten.map fun row => ⟨row.ownColumns⟩) := by
    intro inOrder hinOrder
    have hperm := ordered_perm hinOrder
    have hshown : (window q inOrder).mapM (project c [⟨.wildcard, none⟩]) = _ :=
      mapM_project_star hrows hslots (List.Subset.trans (window_subset q inOrder) hperm.subset)
    refine ⟨hsingle kept ▸ hperm.flatten, (run_ok_iff (c := c)).mpr ⟨henough, kept, hkept, ?_⟩⟩
    refine bind_ok_iff.mpr ⟨_, ofEval_ok_iff.mpr hinto, bind_ok_iff.mpr
      ⟨_, ofEval_ok_iff.mpr hinOrder, ofEval_ok_iff.mpr ?_⟩⟩
    rw [hfields]
    exact hshown
  refine ⟨fun row hrow => ⟨?_, hslots row hrow, fun more => ?_⟩, hrun, fun horder hstart hlimit => ?_⟩
  · exact grows_resources.kept (fun _ _ _ _ _ => trivial) hkept row hrow
  · rw [hfields]
    exact project_star (hrows row hrow) (hslots row hrow) more
  · have hunordered : ordered c q.orderBy (kept.map fun row => [row]) = .ok (kept.map fun row => [row]) := by
      rw [horder]
      rfl
    have hwhole : window q (kept.map fun row => [row]) = kept.map fun row => [row] := by
      unfold window
      rw [hstart, hlimit]
      rfl
    rw [(hrun _ hunordered).2, hwhole, hsingle]

/-- Keys with dots, one of them with the name of another resource in front, and a record without match. -/
theorem star_shows_own_fields_of_dots :
    let source : Source Value := fun name =>
      if name = "a" then some [.ofFields [("x.y", .integer 1), ("id", .integer 1)],
        .ofFields [("id", .integer 2)]]
      else if name = "b" then some [.ofFields [("id", .integer 1), ("a.id", .string "k")]]
      else none
    ∃ q kept, compile "SELECT * FROM a LEFT JOIN b ON a.id = b.id" = .ok q ∧
      Execute.rows ⟨.ofObjects, .default, []⟩ source q = .ok kept ∧
      source.OfObjects ∧ q.ToldApart source ∧
      q.run source .ofObjects [] .default = .ok (kept.map fun row => ⟨row.ownColumns⟩) ∧
      kept.map (fun row => row.ownColumns.map fun (name, v) => (name, v.display)) =
        [[("a.id", "1"), ("a.x.y", "1"), ("b.a.id", "k"), ("b.id", "1")], [("a.id", "2")]] := by
  intro source
  have hcheck : passes (fun q : Query =>
      passes (fun kept : List (CompositeRow Value) => decide
        (kept.map (fun row => row.ownColumns.map fun (name, v) => (name, v.display)) =
          [[("a.id", "1"), ("a.x.y", "1"), ("b.a.id", "k"), ("b.id", "1")], [("a.id", "2")]]))
        (Execute.rows ⟨.ofObjects, .default, []⟩ source q) &&
      decide (q.fields.map (fun f => f.expr.isWildcard && f.alias?.isNone) = [true] ∧
        q.orderBy.length = 0 ∧ q.start? = none ∧ q.limit? = none ∧ q.isGrouped = false ∧
        q.hasAggregates = false ∧ q.placeholders ≤ 0 ∧ q.allResources = ["a", "b"]))
      (compile "SELECT * FROM a LEFT JOIN b ON a.id = b.id") = true := by
    decide +kernel
  simp only [passes_iff, Bool.and_eq_true, decide_eq_true_eq] at hcheck
  obtain ⟨q, hcompile, ⟨kept, hkept, hdisplay⟩, hstar, horder, hstart, hlimit, hgroups, haggregates,
    henough, hresources⟩ := hcheck
  have hobjects : source.OfObjects := by
    intro resource records hsome record hmem
    dsimp only [source] at hsome
    split at hsome
    next =>
      obtain rfl := Option.some.inj hsome
      rcases List.mem_pair.mp hmem with rfl | rfl <;> exact Value.isObject_ofFields _
    next =>
      split at hsome
      next =>
        obtain rfl := Option.some.inj hsome
        rw [List.mem_singleton.mp hmem]
        exact Value.isObject_ofFields _
      next => cases hsome
  have hapart : q.ToldApart source := by
    refine ⟨?_, fun resource h => ?_⟩ <;> rw [hresources] at *
    · decide
    · cases h
  have hfields : q.fields = [⟨.wildcard, none⟩] := by
    obtain ⟨⟨expr, alias?⟩, hone, hwildcard⟩ := List.map_eq_singleton_iff.mp hstar
    rw [hone]
    cases expr <;> cases alias? <;> first | rfl | cases hwildcard
  have hparams : q.placeholders ≤ ([] : List Value).length := henough
  exact ⟨q, kept, hcompile, hkept, hobjects, hapart, (star_shows_own_fields hcompile hfields hgroups
    haggregates hparams hobjects hapart hkept).2.2 (List.length_eq_zero_iff.mp horder) hstart hlimit,
    hdisplay⟩

/-- A key that starts with the name of the resource is shown with the value of another key, and of two slots
of one resource both are shown with the values of the first. -/
theorem star_shows_other_fields :
    let source : Source Value := fun name =>
      if name = "t" then some [.ofFields [("t.x", .integer 1), ("x", .integer 2)]]
      else if name = "u" then some [.ofFields [("a", .integer 1)], .ofFields [("a", .integer 2)]]
      else none
    let shown (columns : List (String × Value)) := columns.map fun (name, v) => (name, v.display)
    (∃ q kept results, compile "SELECT * FROM t" = .ok q ∧
      Execute.rows ⟨.ofObjects, .default, []⟩ source q = .ok kept ∧
      q.run source .ofObjects [] .default = .ok results ∧
      kept.map (fun row => shown row.ownColumns) = [[("t.x", "1"), ("x", "2")]] ∧
      results.map (fun row => shown row.columns) = [[("t.x", "2"), ("x", "2")]]) ∧
    ∃ q kept results, compile "SELECT * FROM u, u" = .ok q ∧
      Execute.rows ⟨.ofObjects, .default, []⟩ source q = .ok kept ∧
      q.run source .ofObjects [] .default = .ok results ∧
      kept.map (fun row => shown row.ownColumns) = [[("u.a", "1"), ("u.a", "1")],
        [("u.a", "1"), ("u.a", "2")], [("u.a", "2"), ("u.a", "1")], [("u.a", "2"), ("u.a", "2")]] ∧
      results.map (fun row => shown row.columns) = [[("u.a", "1"), ("u.a", "1")],
        [("u.a", "1"), ("u.a", "1")], [("u.a", "2"), ("u.a", "2")], [("u.a", "2"), ("u.a", "2")]] := by
  intro source shown
  have hcheck : ∀ text own other, passes (fun q : Query =>
      passes (fun kept : List (CompositeRow Value) =>
        passes (fun results : List ResultRow => decide
          (kept.map (fun row => shown row.ownColumns) = own ∧
            results.map (fun row => shown row.columns) = other))
          (q.run source .ofObjects [] .default))
        (Execute.rows ⟨.ofObjects, .default, []⟩ source q)) (compile text) = true →
      ∃ q kept results, compile text = .ok q ∧
        Execute.rows ⟨.ofObjects, .default, []⟩ source q = .ok kept ∧
        q.run source .ofObjects [] .default = .ok results ∧
        kept.map (fun row => shown row.ownColumns) = own ∧
        results.map (fun row => shown row.columns) = other := by
    intro text own other h
    simp only [passes_iff, decide_eq_true_eq] at h
    obtain ⟨q, hq, kept, hkept, results, hresults, hown, hother⟩ := h
    exact ⟨q, kept, results, hq, hkept, hresults, hown, hother⟩
  exact ⟨hcheck _ _ _ (by decide +kernel), hcheck _ _ _ (by decide +kernel)⟩

end Query

end RecordQuery
