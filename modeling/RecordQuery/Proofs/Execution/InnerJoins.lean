import RecordQuery.Proofs.Execution.Qualified
import RecordQuery.Query.Text
/-!
# Inner joins are cross products

A query whose joins are all inner has the rows of the query that crosses all its resources first and keeps
the rows that satisfy every join condition and then its own one (`Query.crossed`). The conditions are
evaluated on rows with fewer slots here and with more there, so what they read has to be qualified by
resources that are present when the join is made (`JoinsQualified`).

The induction is over the joins. It carries a condition that has been put off: keeping by it before a join
and keeping by it, and by the condition of the join, behind the cross product give the same rows
(`keepWhere_of_joinAll`). Only success is carried over: of two errors, the two queries may meet
different ones first.
-/

namespace RecordQuery

/-! ## Conjunctions -/

namespace Predicate

/-- A condition, if there is one, and one more. -/
def also (p? : Option Predicate) (p : Predicate) : Option Predicate :=
  match p? with
  | some first => some (.logic .and first p)
  | none => some p

/-- The conjunction of predicates, from left to right; of no predicates there is none. -/
def conjunction (ps : List Predicate) : Option Predicate :=
  ps.foldl also none

end Predicate

/-- The query with the joined resources behind those it starts from, and the join conditions in front of
its own condition. -/
def Query.crossed (q : Query) : Query :=
  { q with
    resources := q.allResources
    joins := []
    filter? := Predicate.conjunction (q.joins.map Join.condition ++ q.filter?.toList) }

/-- `JoinsQualified present joins` holds when the fields of every join condition are qualified by resources
that are present then: those before the joins, and those of the joins up to this one. -/
def JoinsQualified (present : List String) (joins : List Join) : Prop :=
  ∀ i (hi : i < joins.length), ∀ f ∈ joins[i].condition.fields,
    f.QualifiedBy (present ++ (joins.take (i + 1)).map Join.resource)

theorem JoinsQualified.cons {present : List String} {j : Join} {others : List Join}
    (h : JoinsQualified present (j :: others)) :
    (∀ f ∈ j.condition.fields, f.QualifiedBy (present ++ [j.resource])) ∧
      JoinsQualified (present ++ [j.resource]) others := by
  refine ⟨h 0 (Nat.zero_lt_succ _), fun i hi f hf => ?_⟩
  rw [← List.append_cons]
  exact h (i + 1) (Nat.succ_lt_succ hi) f hf

namespace Execute

variable {R : Type} {c : Conditions R} {p q : Predicate} {row : CompositeRow R}
  {rows kept out : List (CompositeRow R)}

/-! ## Keeping by two conditions -/

theorem Conditions.satisfied_and {b : Bool} (hp : c.satisfied p row = .ok b) :
    c.satisfied (.logic .and p q) row = if b then c.satisfied q row else .ok false := by
  have hand : (Predicate.logic .and p q).holds c.rowAccessor c.params row =
      p.holds c.rowAccessor c.params row >>= fun b =>
        if b then q.holds c.rowAccessor c.params row else .ok false := rfl
  unfold satisfied at hp ⊢
  rw [hand]
  cases hholds : p.holds c.rowAccessor c.params row with
  | error e =>
      -- the policy makes the error a condition that is not satisfied
      rw [hholds] at hp
      dsimp only at hp
      split at hp
      next hskip =>
        cases hp
        exact if_pos hskip
      next => cases hp
  | ok b' =>
      rw [hholds] at hp
      cases hp
      cases b <;> rfl

theorem Conditions.accepts_and (h : c.Decides p row) :
    c.accepts (.logic .and p q) row = (c.accepts q row && c.accepts p row) := by
  rw [accepts, satisfied_and h.satisfied]
  cases c.accepts p row with
  | true => rw [Bool.and_true]; rfl
  | false => rw [Bool.and_false]; rfl

/-- Keeping by one condition and then by another is keeping by both. -/
theorem keep_and (hkept : keep c p rows = .ok kept) (hout : keep c q kept = .ok out) :
    keep c (.logic .and p q) rows = .ok out := by
  obtain ⟨hp, rfl⟩ := keep_ok_iff.mp hkept
  obtain ⟨hq, rfl⟩ := keep_ok_iff.mp hout
  rw [keep_ok_iff]
  refine ⟨fun row hrow => ?_, ?_⟩
  · rw [Conditions.Decides, Conditions.satisfied_and (hp row hrow).satisfied]
    split
    next haccepts => exact hq row (List.mem_filter.mpr ⟨hrow, haccepts⟩)
    next => exact ⟨false, rfl⟩
  · rw [List.filter_filter]
    exact (List.filter_congr fun row hrow => Conditions.accepts_and (hp row hrow)).symm

/-- A condition that does not read the new slot keeps rows before a cross product as well as behind it. -/
theorem keep_cross {names : List String} (hnamed : Named names rows)
    (hp : ∀ f ∈ p.fields, f.QualifiedBy names) (hkeep : keep c p rows = .ok kept) (resource : String)
    (records : List R) :
    keep c p (cross rows resource records) = .ok (cross kept resource records) := by
  obtain ⟨hdecides, rfl⟩ := keep_ok_iff.mp hkeep
  have hreads : ∀ row ∈ rows, ∀ record,
      c.ReadsAlike p.fields (row.extend resource (some record)) row := by
    intro row hrow record
    refine Conditions.readsAlike_extend (fun f hf => ?_) resource (some record)
    rw [hnamed row hrow]
    exact hp f hf
  rw [keep_ok_iff]
  refine ⟨fun row' hrow' => ?_, ?_⟩
  · obtain ⟨row, hrow, hrow'⟩ := List.mem_flatMap.mp hrow'
    obtain ⟨record, -, rfl⟩ := List.mem_map.mp hrow'
    exact (Conditions.decides_congr (hreads row hrow record)).mpr (hdecides row hrow)
  · clear hkeep hdecides hnamed
    induction rows with
    | nil => rfl
    | cons row rest ih =>
        rw [List.forall_mem_cons] at hreads
        have hrow : (records.map fun record => row.extend resource (some record)).filter (c.accepts p) =
            if c.accepts p row then records.map fun record => row.extend resource (some record)
            else [] := by
          have haccepts : ∀ record,
              c.accepts p (row.extend resource (some record)) = c.accepts p row :=
            fun record => Conditions.accepts_congr (hreads.1 record)
          rw [List.filter_map]
          cases h : c.accepts p row <;> simp [Function.comp_def, haccepts, h]
        unfold cross at ih ⊢
        rw [List.flatMap_cons, List.filter_append, ← ih hreads.2, List.filter_cons, hrow]
        split
        · rw [List.flatMap_cons]
        · rw [List.nil_append]

/-- An inner join keeps those rows of the cross product that satisfy its condition. -/
theorem keep_of_joinRows {j : Join} (hinner : j.kind = .inner) {joined : List String}
    {records : List R} (h : joinRows c j joined records rows = .ok out) :
    keep c j.condition (cross rows j.resource records) = .ok out := by
  obtain ⟨hdecides, rfl⟩ := joinRows_ok_iff.mp h
  rw [keep_ok_iff]
  refine ⟨fun row' hrow' => ?_, ?_⟩
  · obtain ⟨row, hrow, hrow'⟩ := List.mem_flatMap.mp hrow'
    obtain ⟨record, hrecord, rfl⟩ := List.mem_map.mp hrow'
    exact hdecides row hrow record hrecord
  · rw [rowsBehind, hinner, if_neg JoinKind.noConfusion, List.append_nil, cross, List.filter_flatMap]
    refine List.flatMap_congr fun row _ => ?_
    rw [rowsOf, hinner, List.filter_map]
    rfl

/-! ## Keeping by conditions that are put off -/

theorem keepWhere_also {p? : Option Predicate} (hkept : keepWhere c p? rows = .ok kept)
    (hout : keep c q kept = .ok out) : keepWhere c (Predicate.also p? q) rows = .ok out := by
  cases p? with
  | none =>
      cases hkept
      exact hout
  | some p => exact keep_and hkept hout

theorem keepWhere_cross {names : List String} (hnamed : Named names rows) {p? : Option Predicate}
    (hp : ∀ p ∈ p?, ∀ f ∈ p.fields, f.QualifiedBy names) (hkept : keepWhere c p? rows = .ok kept)
    (resource : String) (records : List R) :
    keepWhere c p? (cross rows resource records) = .ok (cross kept resource records) := by
  cases p? with
  | none =>
      cases hkept
      rfl
  | some p => exact keep_cross hnamed (hp p rfl) hkept resource records

theorem also_qualified {p? : Option Predicate} {names names' : List String} (hsub : names ⊆ names')
    (hp : ∀ p ∈ p?, ∀ f ∈ p.fields, f.QualifiedBy names) (hq : ∀ f ∈ q.fields, f.QualifiedBy names') :
    ∀ p ∈ Predicate.also p? q, ∀ f ∈ p.fields, f.QualifiedBy names' := by
  cases p? with
  | none =>
      rintro p ⟨⟩
      exact hq
  | some first =>
      rintro p ⟨⟩ f hf
      rw [Predicate.fields_logic, List.mem_append] at hf
      obtain hf | hf := hf
      · exact (hp first rfl f hf).mono hsub
      · exact hq f hf

/-- A condition that is put off until the rows are crossed, together with those of the joins. -/
theorem keepWhere_of_joinAll {source : Source R} {joins : List Join} {names : List String}
    {p? : Option Predicate} (hinner : ∀ j ∈ joins, j.kind = .inner)
    (hjoins : JoinsQualified names joins) (hnamed : Named names rows)
    (hp : ∀ p ∈ p?, ∀ f ∈ p.fields, f.QualifiedBy names) (hkept : keepWhere c p? rows = .ok kept)
    (hout : joinAll c source names joins kept = .ok out) :
    ∃ crossed, crossAll source rows (joins.map Join.resource) = .ok crossed ∧
      keepWhere c ((joins.map Join.condition).foldl Predicate.also p?) crossed = .ok out := by
  induction joins generalizing names p? rows kept with
  | nil =>
      cases hout
      exact ⟨rows, rfl, hkept⟩
  | cons j others ih =>
      rw [List.forall_mem_cons] at hinner
      obtain ⟨hj, hothers⟩ := hjoins.cons
      obtain ⟨records, hrecords, hout⟩ := bind_ok_iff.mp hout
      obtain ⟨next, hnext, hout⟩ := bind_ok_iff.mp hout
      have hkept' := keepWhere_also (keepWhere_cross hnamed hp hkept j.resource records)
        (keep_of_joinRows hinner.1 (ofEval_ok_iff.mp hnext))
      obtain ⟨crossed, hcrossed, hwhere⟩ := ih hinner.2 hothers (hnamed.cross j.resource records)
        (also_qualified (List.subset_append_left _ _) hp hj) hkept' hout
      refine ⟨crossed, ?_, hwhere⟩
      rw [List.map_cons, crossAll_cons, hrecords]
      exact hcrossed

/-- The rows that a query with inner joins is about are those of its cross product. -/
theorem rows_crossed {source : Source R} {q : Query} (hinner : ∀ j ∈ q.joins, j.kind = .inner)
    (hjoins : JoinsQualified q.resources q.joins) (h : Execute.rows c source q = .ok out) :
    Execute.rows c source q.crossed = .ok out := by
  obtain ⟨start, joined, hstart, hjoined, hout⟩ := rows_ok_iff.mp h
  -- before the first join, no condition has been put off
  have hkept : keepWhere c none start = .ok start := rfl
  obtain ⟨crossed, hcrossed, hwhere⟩ := keepWhere_of_joinAll hinner hjoins (named_crossProduct hstart)
    (by rintro p ⟨⟩) hkept hjoined
  refine rows_ok_iff.mpr ⟨crossed, crossed, ?_, rfl, ?_⟩
  · exact crossAll_append hstart hcrossed
  · change keepWhere c (List.foldl _ none _) crossed = .ok out
    rw [List.foldl_append]
    cases hfilter : q.filter? with
    | none =>
        rw [hfilter] at hout
        cases hout
        exact hwhere
    | some p =>
        rw [hfilter] at hout
        exact keepWhere_also hwhere hout

end Execute

namespace Query

open Execute

variable {R : Type} {q : Query} {source : Source R} {accessor : Accessor R} {params : List Value}
  {settings : Settings} {result : List ResultRow}

/-- Where a query with inner joins has a result, its cross product has the same one. -/
theorem run_crossed_of_qualified (hinner : ∀ j ∈ q.joins, j.kind = .inner)
    (hjoins : JoinsQualified q.resources q.joins)
    (h : q.run source accessor params settings = .ok result) :
    q.crossed.run source accessor params settings = .ok result := by
  let c : Conditions R := ⟨accessor, settings, params⟩
  obtain ⟨henough, kept, hkept, hresult⟩ := (run_ok_iff (c := c)).mp h
  exact (run_ok_iff (c := c)).mpr ⟨henough, kept, rows_crossed hinner hjoins hkept, hresult⟩

/-- `q.JoinsWritten` holds when in each join condition all fields are written with a resource that is
present at that join: one that the query starts from, or one of the joins up to this one. -/
def JoinsWritten (q : Query) : Prop :=
  ∀ i (hi : i < q.joins.length), ∀ f ∈ q.joins[i].condition.fields,
    f.isWrittenWith (q.resources ++ (q.joins.take (i + 1)).map Join.resource) = true

instance (q : Query) : Decidable q.JoinsWritten :=
  inferInstanceAs (Decidable (∀ i (hi : i < q.joins.length), ∀ f ∈ q.joins[i].condition.fields, _ = true))

/-- **Inner joins are cross products.** A compiled query has only inner joins, and their conditions name
only fields of resources that are present. Where it has a result, the query that crosses all its resources
and keeps what satisfies the join conditions and then its own has the same rows, in the same order. -/
theorem run_crossed {text : String} (hcompile : compile text = .ok q)
    (hinner : ∀ j ∈ q.joins, j.kind = .inner)
    (hwritten : q.JoinsWritten) (h : q.run source accessor params settings = .ok result) :
    q.crossed.run source accessor params settings = .ok result := by
  refine run_crossed_of_qualified hinner (fun i hi f hf => ?_) h
  refine FieldRef.qualifiedBy_of_isWrittenWith (fun resource hmem => ?_) (hwritten i hi f hf)
  refine hasDot_of_compile hcompile (?_ : resource ∈ q.resources ++ q.joins.map Join.resource)
  rw [List.mem_append] at hmem ⊢
  exact hmem.imp_right fun hmem => List.map_subset _ (List.take_subset _ _) hmem

/-- Three resources, one of which is written in capitals, and a condition of the query. -/
theorem run_crossed_of_three :
    let source : Source Nat := fun name => [("a", [1, 2]), ("b", [2, 1]), ("c", [3, 2])].lookup name
    ∃ q result,
      compile "SELECT a.x, c.x FROM a JOIN b ON a.x = b.x JOIN c ON B.x < c.x WHERE c.x <> 2" = .ok q ∧
      q.crossed.render =
        "SELECT a.x, c.x FROM a, b, c WHERE a.x = b.x AND B.x < c.x AND c.x <> 2" ∧
      q.run source .ofNumbers [] .default = .ok result ∧ result.length = 2 ∧
      q.crossed.run source .ofNumbers [] .default = .ok result := by
  intro source
  have hcheck : passes (fun q =>
      passes (fun result => decide (result.length = 2)) (q.run source .ofNumbers [] .default) &&
      decide ((∀ j ∈ q.joins, j.kind = .inner) ∧ q.JoinsWritten ∧ q.crossed.render =
        "SELECT a.x, c.x FROM a, b, c WHERE a.x = b.x AND B.x < c.x AND c.x <> 2"))
      (compile "SELECT a.x, c.x FROM a JOIN b ON a.x = b.x JOIN c ON B.x < c.x WHERE c.x <> 2") =
        true := by
    decide +kernel
  simp only [passes_iff, Bool.and_eq_true, decide_eq_true_eq] at hcheck
  obtain ⟨q, hq, ⟨result, hresult, hlength⟩, hinner, hwritten, hrender⟩ := hcheck
  exact ⟨q, result, hq, hrender, hresult, hlength, run_crossed hq hinner hwritten hresult⟩

end Query

end RecordQuery
