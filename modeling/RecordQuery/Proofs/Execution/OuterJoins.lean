import RecordQuery.Proofs.Execution.Qualified
import RecordQuery.Query.Text
/-!
# Left and right joins mirror each other

A right join of two resources has the rows of the left join that names them the other way round, up to
their order and to the order of the slots in them (`Mirrors`). The right join goes through the rows on the
left and notes which records were met, the left join goes through those records as its rows; so both count
the pairs that match, once by rows and once by records, and both add what is without a match.

What is evaluated afterwards names only fields that are qualified by one of the two resources, and these
do not see the order of the slots. So rows that mirror each other are kept alike and projected alike.
-/

namespace RecordQuery

/-! ## Counting pairs twice -/

section Pairs

variable {α β γ : Type} (test : α → β → Bool) (pair : α → β → γ) (single : β → γ)

/-- The pairs of rows with some records are those with the first record and those with the others. -/
theorem flatMap_pairs_cons_perm (as : List α) (b : β) (bs : List β) :
    (as.flatMap fun a => ((b :: bs).filter (test a)).map (pair a)).Perm
      (((as.filter fun a => test a b).map fun a => pair a b) ++
        as.flatMap fun a => (bs.filter (test a)).map (pair a)) := by
  induction as with
  | nil => exact .refl _
  | cons a as ih =>
      rw [List.flatMap_cons, List.flatMap_cons]
      by_cases h : test a b = true
      · rw [List.filter_cons, List.filter_cons, if_pos h, if_pos h]
        exact ((ih.append_left _).trans (List.perm_append_comm_assoc _ _ _)).cons (pair a b)
      · rw [List.filter_cons, List.filter_cons, if_neg h, if_neg h]
        exact (ih.append_left _).trans (List.perm_append_comm_assoc _ _ _)

/-- Pairs that match, and what is without a match, counted by the one side and by the other. -/
theorem flatMap_pairs_perm (as : List α) (bs : List β) :
    (bs.flatMap fun b =>
      let matching := as.filter fun a => test a b
      if matching.isEmpty then [single b] else matching.map fun a => pair a b).Perm
      ((as.flatMap fun a => (bs.filter (test a)).map (pair a)) ++
        (bs.filter fun b => as.all fun a => !test a b).map single) := by
  induction bs with
  | nil => simp
  | cons b bs ih =>
      rw [List.flatMap_cons]
      have hpairs := flatMap_pairs_cons_perm test pair as b bs
      by_cases hnone : ∀ a ∈ as, ¬ test a b = true
      · have hempty : (as.filter fun a => test a b) = [] := List.filter_eq_nil_iff.mpr hnone
        have hall : (as.all fun a => !test a b) = true := by simpa using hnone
        rw [hempty] at hpairs ⊢
        rw [List.filter_cons, if_pos hall]
        exact ((ih.cons (single b)).trans List.perm_middle.symm).trans (hpairs.symm.append_right _)
      · have hsome : (as.filter fun a => test a b).isEmpty = false := by
          rw [List.isEmpty_eq_false_iff, Ne, List.filter_eq_nil_iff]
          exact hnone
        have hall : ¬ (as.all fun a => !test a b) = true := by simpa using hnone
        rw [List.filter_cons, if_neg hall]
        dsimp only
        rw [if_neg (by rw [hsome]; exact Bool.false_ne_true)]
        refine ((ih.append_left _).trans ?_).trans (hpairs.symm.append_right _)
        rw [List.append_assoc]

end Pairs

namespace Execute

variable {R : Type} {c : Conditions R} {a b : String} {p : Predicate}
  {rows rows' kept : List (CompositeRow R)}

/-! ## Rows that mirror each other -/

/-- `Mirrors a b rows rows'` holds for rows over two resources when the other rows are the same with their
slots the other way round, in any order. -/
structure Mirrors (a b : String) (rows rows' : List (CompositeRow R)) : Prop where
  named : Named [a, b] rows
  perm : (rows.map List.reverse).Perm rows'

theorem Mirrors.symm (h : Mirrors a b rows rows') : Mirrors b a rows' rows where
  named := by
    intro row' hrow'
    obtain ⟨row, hrow, rfl⟩ := List.mem_map.mp (h.perm.mem_iff.mpr hrow')
    rw [CompositeRow.resources, List.map_reverse]
    exact congrArg List.reverse (h.named row hrow)
  perm := by
    have hperm := h.perm.symm.map List.reverse
    rwa [List.map_map, List.reverse_involutive.comp_self, List.map_id] at hperm

/-- Qualified fields are read alike from a row over two resources and from its mirror image. -/
theorem readsAlike_reverse (hne : Name.same a b = false) {row : CompositeRow R}
    (hrow : row.resources = [a, b]) {fields : List FieldRef}
    (hfields : ∀ f ∈ fields, f.QualifiedBy [a, b]) : c.ReadsAlike fields row.reverse row := by
  match row, hrow with
  | [s, t], hrow =>
      cases hrow
      exact fun f hf => (hfields f hf).read_swap hne c.accessor c.settings.resolution

theorem Mirrors.keep (h : Mirrors a b rows rows') (hne : Name.same a b = false)
    (hp : ∀ f ∈ p.fields, f.QualifiedBy [a, b]) (hkept : keep c p rows = .ok kept) :
    ∃ kept', keep c p rows' = .ok kept' ∧ Mirrors a b kept kept' := by
  obtain ⟨hdecides, rfl⟩ := keep_ok_iff.mp hkept
  have hreads : ∀ row ∈ rows, c.ReadsAlike p.fields row.reverse row := fun row hrow =>
    readsAlike_reverse hne (h.named row hrow) hp
  refine ⟨rows'.filter (c.accepts p), keep_ok_iff.mpr ⟨fun row' hrow' => ?_, rfl⟩, ?_, ?_⟩
  · obtain ⟨row, hrow, rfl⟩ := List.mem_map.mp (h.perm.mem_iff.mpr hrow')
    exact (Conditions.decides_congr (hreads row hrow)).mpr (hdecides row hrow)
  · exact fun row hrow => h.named row (List.mem_filter.mp hrow).1
  · have hfilter : rows.filter (c.accepts p) = rows.filter (c.accepts p ∘ List.reverse) :=
      List.filter_congr fun row hrow => (Conditions.accepts_congr (hreads row hrow)).symm
    rw [hfilter, ← List.filter_map]
    exact h.perm.filter _

/-- A select list without stars whose fields are qualified gives the same columns on a row over two
resources and on its mirror image. -/
theorem project_reverse (hne : Name.same a b = false) {row : CompositeRow R}
    (hrow : row.resources = [a, b]) {fields : List SelectField}
    (hfields : ∀ s ∈ fields, s.expr.isWildcard = false ∧ ∀ f ∈ s.expr.fields, f.QualifiedBy [a, b]) :
    project c fields [row.reverse] = project c fields [row] := by
  have hcolumns : fields.mapM (columns c [row.reverse]) = fields.mapM (columns c [row]) := by
    refine mapM_eq_mapM (List.forall₂_same.mpr fun s hs => ?_)
    obtain ⟨hstar, hqualified⟩ := hfields s hs
    have heval := Conditions.eval_congr (c := c) (readsAlike_reverse hne hrow hqualified)
    rw [columns, columns, hstar, if_neg Bool.false_ne_true, if_neg Bool.false_ne_true, heval]
  rw [project, project, hcolumns]

theorem Mirrors.project (h : Mirrors a b rows rows') (hne : Name.same a b = false)
    {fields : List SelectField}
    (hfields : ∀ s ∈ fields, s.expr.isWildcard = false ∧ ∀ f ∈ s.expr.fields, f.QualifiedBy [a, b])
    {results : List ResultRow}
    (hresults : rows.mapM (fun row => project c fields [row]) = .ok results) :
    ∃ results', rows'.mapM (fun row => project c fields [row]) = .ok results' ∧
      results'.Perm results := by
  have hreverse : (rows.map List.reverse).mapM (fun row => Execute.project c fields [row]) =
      rows.mapM fun row => Execute.project c fields [row] := by
    refine mapM_eq_mapM (List.forall₂_map_left_iff.mpr (List.forall₂_same.mpr fun row hrow => ?_))
    exact project_reverse hne (h.named row hrow) hfields
  exact mapM_perm (hreverse.trans hresults) h.perm.symm

/-! ## The two joins -/

/-- The rows over one resource. -/
def rowsOver (a : String) (records : List R) : List (CompositeRow R) :=
  records.map fun x => [⟨a, some x⟩]

/-- The row over two resources, with a record of each where there is one. -/
def rowOver (a b : String) (x? y? : Option R) : CompositeRow R :=
  [⟨a, x?⟩, ⟨b, y?⟩]

theorem crossProduct_singleton {source : Source R} {start : List (CompositeRow R)} :
    crossProduct source [a] = .ok start ↔ ∃ xs, records source a = .ok xs ∧ start = rowsOver a xs := by
  rw [crossProduct_eq, crossAll_cons, bind_ok_iff]
  refine exists_congr fun xs => and_congr_right fun _ => ?_
  have hcross : cross [[]] a xs = rowsOver a xs := List.flatMap_singleton _ _
  rw [hcross]
  exact ⟨fun h => (Except.ok.inj h).symm, fun h => congrArg _ h.symm⟩

variable {l m : String} {xs ys : List R}

/-- A condition reads the pairs of the one join as it reads those of the other. -/
theorem readsAlike_rowOver (hne : Name.same a b = false) (hp : ∀ f ∈ p.fields, f.QualifiedBy [a, b])
    (x? y? : Option R) : c.ReadsAlike p.fields (rowOver b a y? x?) (rowOver a b x? y?) :=
  readsAlike_reverse hne (rfl : (rowOver a b x? y?).resources = [a, b]) hp

theorem decidesJoin_mirror (hne : Name.same a b = false) (hp : ∀ f ∈ p.fields, f.QualifiedBy [a, b]) :
    c.DecidesJoin ⟨.right, l, b, p⟩ ys (rowsOver a xs) ↔
      c.DecidesJoin ⟨.left, m, a, p⟩ xs (rowsOver b ys) := by
  have hpair : ∀ x y, c.Decides p (rowOver b a (some y) (some x)) ↔
      c.Decides p (rowOver a b (some x) (some y)) := fun x y =>
    Conditions.decides_congr (readsAlike_rowOver hne hp (some x) (some y))
  rw [Conditions.DecidesJoin, Conditions.DecidesJoin, rowsOver, rowsOver, List.forall_mem_map,
    List.forall_mem_map]
  exact ⟨fun h y hy x hx => (hpair x y).mpr (h x hx y hy),
    fun h x hx y hy => (hpair x y).mp (h y hy x hx)⟩

/-- The rows that the left join makes of one record, seen in the mirror. -/
theorem rowsOf_left_reverse (hne : Name.same a b = false)
    (hp : ∀ f ∈ p.fields, f.QualifiedBy [a, b]) (y : R) :
    (rowsOf c ⟨.left, m, a, p⟩ xs [⟨b, some y⟩]).map List.reverse =
      let matching := xs.filter fun x => c.accepts p (rowOver a b (some x) (some y))
      if matching.isEmpty then [rowOver a b none (some y)]
      else matching.map fun x => rowOver a b (some x) (some y) := by
  have hmatched : c.matched ⟨.left, m, a, p⟩ [⟨b, some y⟩] = fun x =>
      c.accepts p (rowOver a b (some x) (some y)) := funext fun x =>
    Conditions.accepts_congr (readsAlike_rowOver hne hp (some x) (some y))
  rw [rowsOf, hmatched]
  dsimp only
  split
  next h =>
    rw [if_pos h.2]
    rfl
  next h =>
    rw [if_neg fun hempty => h ⟨rfl, hempty⟩, List.map_map]
    rfl

theorem rowsOf_right (x : R) :
    rowsOf c ⟨.right, l, b, p⟩ ys [⟨a, some x⟩] =
      (ys.filter fun y => c.accepts p (rowOver a b (some x) (some y))).map fun y =>
        rowOver a b (some x) (some y) := by
  rw [rowsOf]
  exact if_neg fun h => JoinKind.noConfusion h.1

theorem rowsBehind_right :
    rowsBehind c ⟨.right, l, b, p⟩ [a] ys (rowsOver a xs) =
      (ys.filter fun y => xs.all fun x => !c.accepts p (rowOver a b (some x) (some y))).map fun y =>
        rowOver a b none (some y) := by
  rw [rowsBehind, if_pos rfl, rowsOver]
  simp only [List.all_map]
  rfl

/-- The rows of the two joins mirror each other. -/
theorem mirrors_joinRows (hne : Name.same a b = false) (hp : ∀ f ∈ p.fields, f.QualifiedBy [a, b])
    (hdecides : c.DecidesJoin ⟨.right, l, b, p⟩ ys (rowsOver a xs)) :
    ∃ joined joined', joinRows c ⟨.right, l, b, p⟩ [a] ys (rowsOver a xs) = .ok joined ∧
      joinRows c ⟨.left, m, a, p⟩ [b] xs (rowsOver b ys) = .ok joined' ∧
      Mirrors a b joined joined' := by
  have hright : joinRows c ⟨.right, l, b, p⟩ [a] ys (rowsOver a xs) = .ok _ :=
    joinRows_ok_iff.mpr ⟨hdecides, rfl⟩
  have hleft : joinRows c ⟨.left, m, a, p⟩ [b] xs (rowsOver b ys) = .ok _ :=
    joinRows_ok_iff.mpr ⟨(decidesJoin_mirror hne hp).mp hdecides, rfl⟩
  refine ⟨_, _, hright, hleft, Mirrors.symm ⟨?_, ?_⟩⟩
  · refine Named.joinRows ?_ hleft
    exact List.forall_mem_map.mpr fun y _ => rfl
  · have hbehind : rowsBehind c ⟨.left, m, a, p⟩ [b] xs (rowsOver b ys) = [] :=
      if_neg JoinKind.noConfusion
    rw [hbehind, List.append_nil, rowsBehind_right, rowsOver, rowsOver, List.flatMap_map,
      List.flatMap_map, List.map_flatMap]
    simp only [rowsOf_left_reverse hne hp, rowsOf_right]
    exact flatMap_pairs_perm (fun x y => c.accepts p (rowOver a b (some x) (some y)))
      (fun x y => rowOver a b (some x) (some y)) (fun y => rowOver a b none (some y)) xs ys

/-! ## The two queries -/

theorem joinAll_singleton {source : Source R} {names : List String} {j : Join}
    {joined : List (CompositeRow R)} :
    joinAll c source names [j] rows = .ok joined ↔
      ∃ records, Execute.records source j.resource = .ok records ∧
        joinRows c j names records rows = .ok joined := by
  rw [joinAll, bind_ok_iff]
  refine exists_congr fun records => and_congr_right fun _ => ?_
  rw [bind_ok_iff]
  simp only [joinAll, ofEval_ok_iff, Except.ok.injEq, exists_eq_right]

end Execute

/-- A query that joins two resources and has no clause behind its condition, if it has one. -/
def Query.ofJoin (fields : List SelectField) (first : String) (kind : JoinKind) (second : String)
    (condition : Predicate) (filter? : Option Predicate) (placeholders : Nat) : Query where
  fields := fields
  resources := [first]
  joins := [⟨kind, Reader.relatedResource condition second first, second, condition⟩]
  filter? := filter?
  groupBy := []
  orderBy := []
  start? := none
  limit? := none
  placeholders := placeholders

namespace Execute

variable {R : Type} {c : Conditions R} {a b : String} {p : Predicate}
  {rows : List (CompositeRow R)}

/-- Without groups, order and window, every row gives one of the result. -/
theorem resultOf_ofJoin {fields : List SelectField}
    (hfields : ∀ s ∈ fields, s.expr.hasAggregate = false) {kind : JoinKind}
    {filter? : Option Predicate} {n : Nat} {results : List ResultRow} :
    resultOf c (.ofJoin fields a kind b p filter? n) rows = .ok results ↔
      rows.mapM (fun row => project c fields [row]) = .ok results := by
  have hplain : (Query.ofJoin fields a kind b p filter? n).hasAggregates = false := by
    rw [Query.hasAggregates, Bool.or_eq_false_iff]
    exact ⟨List.any_eq_false.mpr fun s hs => Bool.eq_false_iff.mp (hfields s hs), rfl⟩
  have hgroups : groups c (.ofJoin fields a kind b p filter? n) rows =
      .ok (rows.map fun row => [row]) := by
    rw [groups, hplain]
    rfl
  have hresult : resultOf c (.ofJoin fields a kind b p filter? n) rows =
      ofEval ((rows.map fun row => [row]).mapM (project c fields)) := by
    rw [resultOf, hgroups]
    rfl
  rw [hresult, ofEval_ok_iff, mapM_ok_iff, mapM_ok_iff, List.forall₂_map_left_iff]

/-- The steps of a run that succeeds. -/
theorem run_ofJoin_ok_iff {fields : List SelectField}
    (hfields : ∀ s ∈ fields, s.expr.hasAggregate = false) {kind : JoinKind}
    {filter? : Option Predicate} {n : Nat} {source : Source R} {results : List ResultRow} :
    (Query.ofJoin fields a kind b p filter? n).run source c.accessor c.params c.settings =
        .ok results ↔
      n ≤ c.params.length ∧ ∃ xs ys joined kept, records source a = .ok xs ∧
        records source b = .ok ys ∧
        joinRows c ⟨kind, Reader.relatedResource p b a, b, p⟩ [a] ys (rowsOver a xs) = .ok joined ∧
        keepWhere c filter? joined = .ok kept ∧
        kept.mapM (fun row => project c fields [row]) = .ok results := by
  rw [run_ok_iff]
  refine and_congr_right fun _ => ?_
  simp only [rows_ok_iff, resultOf_ofJoin hfields]
  refine ⟨?_, ?_⟩
  · rintro ⟨kept, ⟨start, joined, hstart, hjoined, hkept⟩, hresults⟩
    obtain ⟨xs, hxs, rfl⟩ := crossProduct_singleton.mp hstart
    obtain ⟨ys, hys, hjoined⟩ := joinAll_singleton.mp hjoined
    exact ⟨xs, ys, joined, kept, hxs, hys, hjoined, hkept, hresults⟩
  · rintro ⟨xs, ys, joined, kept, hxs, hys, hjoined, hkept, hresults⟩
    exact ⟨kept, ⟨rowsOver a xs, joined, crossProduct_singleton.mpr ⟨xs, hxs, rfl⟩,
      joinAll_singleton.mpr ⟨ys, hys, hjoined⟩, hkept⟩, hresults⟩

/-- Rows that mirror each other lead to the same rows of the result, up to their order. -/
theorem Mirrors.results {rows' kept : List (CompositeRow R)} (h : Mirrors a b rows rows')
    (hne : Name.same a b = false) {filter? : Option Predicate}
    (hfilter : ∀ w ∈ filter?, ∀ f ∈ w.fields, f.QualifiedBy [a, b]) {fields : List SelectField}
    (hfields : ∀ s ∈ fields, s.expr.isWildcard = false ∧ ∀ f ∈ s.expr.fields, f.QualifiedBy [a, b])
    {results : List ResultRow} (hkept : keepWhere c filter? rows = .ok kept)
    (hresults : kept.mapM (fun row => Execute.project c fields [row]) = .ok results) :
    ∃ kept' results', keepWhere c filter? rows' = .ok kept' ∧
      kept'.mapM (fun row => Execute.project c fields [row]) = .ok results' ∧
      results'.Perm results := by
  have hmirrors : ∃ kept', keepWhere c filter? rows' = .ok kept' ∧ Mirrors a b kept kept' := by
    cases filter? with
    | none =>
        cases hkept
        exact ⟨rows', rfl, h⟩
    | some w => exact h.keep hne (hfilter w rfl) hkept
  obtain ⟨kept', hkept', hmirrors⟩ := hmirrors
  obtain ⟨results', hresults', hperm⟩ := hmirrors.project hne hfields hresults
  exact ⟨kept', results', hkept', hresults', hperm⟩

end Execute

namespace Query

open Execute

variable {R : Type} {c : Conditions R} {a b : String} {p : Predicate} {filter? : Option Predicate}
  {fields : List SelectField} {n : Nat} {source : Source R} {rows : List ResultRow}

/-- `OfResources a b p filter? fields` holds when all fields in the condition of a join, in a condition on
rows and in a select list without stars and aggregates are qualified by two resources. -/
structure OfResources (a b : String) (p : Predicate) (filter? : Option Predicate)
    (fields : List SelectField) : Prop where
  join : ∀ f ∈ p.fields, f.QualifiedBy [a, b]
  filter : ∀ w ∈ filter?, ∀ f ∈ w.fields, f.QualifiedBy [a, b]
  columns : ∀ s ∈ fields, s.expr.isWildcard = false ∧ ∀ f ∈ s.expr.fields, f.QualifiedBy [a, b]
  plain : ∀ s ∈ fields, s.expr.hasAggregate = false

/-- Fields that are written with one of two resources, which have no dots in their names, are qualified by
it. -/
theorem ofResources_of_written (hdot : ∀ resource ∈ [a, b], Name.hasDot resource = false)
    (hjoin : ∀ f ∈ p.fields, f.isWrittenWith [a, b] = true)
    (hfilter : ∀ w ∈ filter?, ∀ f ∈ w.fields, f.isWrittenWith [a, b] = true)
    (hcolumns : ∀ s ∈ fields, s.expr.isWildcard = false ∧ s.expr.hasAggregate = false ∧
      ∀ f ∈ s.expr.fields, f.isWrittenWith [a, b] = true) : OfResources a b p filter? fields where
  join f hf := FieldRef.qualifiedBy_of_isWrittenWith hdot (hjoin f hf)
  filter w hw f hf := FieldRef.qualifiedBy_of_isWrittenWith hdot (hfilter w hw f hf)
  columns s hs := ⟨(hcolumns s hs).1, fun f hf =>
    FieldRef.qualifiedBy_of_isWrittenWith hdot ((hcolumns s hs).2.2 f hf)⟩
  plain s hs := (hcolumns s hs).2.1

theorem OfResources.swap (h : OfResources a b p filter? fields) :
    OfResources b a p filter? fields := by
  have hsub : [a, b] ⊆ [b, a] := (List.Perm.swap b a []).subset
  exact ⟨fun f hf => (h.join f hf).mono hsub, fun w hw f hf => (h.filter w hw f hf).mono hsub,
    fun s hs => ⟨(h.columns s hs).1, fun f hf => ((h.columns s hs).2 f hf).mono hsub⟩, h.plain⟩

theorem exists_left_of_right (hne : Name.same a b = false) (h : OfResources a b p filter? fields)
    (hrun : (ofJoin fields a .right b p filter? n).run source c.accessor c.params c.settings =
      .ok rows) :
    ∃ rows', (ofJoin fields b .left a p filter? n).run source c.accessor c.params c.settings =
      .ok rows' ∧ rows'.Perm rows := by
  obtain ⟨henough, xs, ys, joined, kept, hxs, hys, hjoined, hkept, hrows⟩ :=
    (run_ofJoin_ok_iff h.plain).mp hrun
  obtain ⟨hdecides, -⟩ := joinRows_ok_iff.mp hjoined
  obtain ⟨joined₁, joined', hjoined₁, hjoined', hmirrors⟩ :=
    mirrors_joinRows (m := Reader.relatedResource p a b) hne h.join hdecides
  obtain rfl : joined = joined₁ := Except.ok.inj (hjoined.symm.trans hjoined₁)
  obtain ⟨kept', rows', hkept', hrows', hperm⟩ :=
    hmirrors.results hne h.filter h.columns hkept hrows
  exact ⟨rows', (run_ofJoin_ok_iff h.plain).mpr
    ⟨henough, ys, xs, joined', kept', hys, hxs, hjoined', hkept', hrows'⟩, hperm⟩

theorem exists_right_of_left (hne : Name.same a b = false) (h : OfResources a b p filter? fields)
    (hrun : (ofJoin fields b .left a p filter? n).run source c.accessor c.params c.settings =
      .ok rows) :
    ∃ rows', (ofJoin fields a .right b p filter? n).run source c.accessor c.params c.settings =
      .ok rows' := by
  obtain ⟨henough, ys, xs, joined, kept, hys, hxs, hjoined, hkept, hrows⟩ :=
    (run_ofJoin_ok_iff h.plain).mp hrun
  obtain ⟨hdecides, -⟩ := joinRows_ok_iff.mp hjoined
  obtain ⟨joined', joined₁, hjoined', hjoined₁, hmirrors⟩ := mirrors_joinRows
    (l := Reader.relatedResource p b a) hne h.join ((decidesJoin_mirror hne h.join).mpr hdecides)
  obtain rfl : joined = joined₁ := Except.ok.inj (hjoined.symm.trans hjoined₁)
  -- seen from the other side, the names are swapped
  have hne' : Name.same b a = false := by
    rw [Name.same_eq_false_iff] at hne ⊢
    exact hne.symm
  obtain ⟨kept', rows', hkept', hrows', -⟩ :=
    hmirrors.symm.results hne' h.swap.filter h.swap.columns hkept hrows
  exact ⟨rows', (run_ofJoin_ok_iff h.plain).mpr
    ⟨henough, xs, ys, joined', kept', hxs, hys, hjoined', hkept', hrows'⟩⟩

/-- **Right joins mirror left joins.** Let all fields be qualified by two resources with different names.
The right join of the two has a result if and only if the left join that names them the other way round
has one, and then both have the same rows, up to their order. -/
theorem run_right_join_mirrors (hne : Name.same a b = false) (h : OfResources a b p filter? fields)
    (n : Nat) (source : Source R) (accessor : Accessor R) (params : List Value) (settings : Settings) :
    ((∃ rows, (ofJoin fields a .right b p filter? n).run source accessor params settings = .ok rows) ↔
      ∃ rows, (ofJoin fields b .left a p filter? n).run source accessor params settings = .ok rows) ∧
    ∀ rows rows', (ofJoin fields a .right b p filter? n).run source accessor params settings = .ok rows →
      (ofJoin fields b .left a p filter? n).run source accessor params settings = .ok rows' →
        rows.Perm rows' := by
  let c : Conditions R := ⟨accessor, settings, params⟩
  refine ⟨⟨?_, ?_⟩, fun rows rows' hrun hrun' => ?_⟩
  · rintro ⟨rows, hrun⟩
    obtain ⟨rows', hrun', -⟩ := exists_left_of_right (c := c) hne h hrun
    exact ⟨rows', hrun'⟩
  · rintro ⟨rows, hrun⟩
    exact exists_right_of_left (c := c) hne h hrun
  · obtain ⟨rows₁, hrun₁, hperm⟩ := exists_left_of_right (c := c) hne h hrun
    obtain rfl : rows' = rows₁ := Except.ok.inj (hrun'.symm.trans hrun₁)
    exact hperm.symm

/-- Records that occur twice and records without a match, some of which the condition on rows drops. -/
theorem run_right_join_mirrors_of_condition :
    let source : Source Nat := fun name => [("a", [2, 1, 2]), ("b", [1, 2, 3, 2, 4])].lookup name
    let fields : List SelectField := [⟨.field ⟨some "a", "x"⟩, none⟩, ⟨.field ⟨some "b", "x"⟩, none⟩]
    let p : Predicate := .comparison ⟨.field ⟨some "a", "x"⟩, .equal, .field ⟨some "B", "x"⟩⟩
    let w : Predicate := .comparison ⟨.field ⟨some "b", "x"⟩, .distinct, .literal (.integer 4)⟩
    (ofJoin fields "a" .right "b" p (some w) 0).render =
        "SELECT a.x, b.x FROM a RIGHT JOIN b ON a.x = B.x WHERE b.x <> 4" ∧
      (ofJoin fields "b" .left "a" p (some w) 0).render =
        "SELECT a.x, b.x FROM b LEFT JOIN a ON a.x = B.x WHERE b.x <> 4" ∧
      ∃ rows rows',
        (ofJoin fields "a" .right "b" p (some w) 0).run source .ofNumbers [] .default = .ok rows ∧
        (ofJoin fields "b" .left "a" p (some w) 0).run source .ofNumbers [] .default = .ok rows' ∧
        rows.length = 6 ∧ rows.Perm rows' := by
  intro source fields p w
  have h : OfResources "a" "b" p (some w) fields :=
    ofResources_of_written (by decide) (by decide) (by decide) (by decide)
  have hmirrors := run_right_join_mirrors (by decide) h 0 source .ofNumbers [] .default
  have hcheck : passes (fun rows => decide (rows.length = 6))
      ((ofJoin fields "a" .right "b" p (some w) 0).run source .ofNumbers [] .default) = true := by
    decide +kernel
  simp only [passes_iff, decide_eq_true_eq] at hcheck
  obtain ⟨rows, hrows, hlength⟩ := hcheck
  obtain ⟨rows', hrows'⟩ := hmirrors.1.mp ⟨rows, hrows⟩
  exact ⟨by decide +kernel, by decide +kernel, rows, rows', hrows, hrows', hlength,
    hmirrors.2 rows rows' hrows hrows'⟩

end Query

end RecordQuery
