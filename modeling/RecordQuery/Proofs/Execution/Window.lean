import RecordQuery.Proofs.Execution.Rows
/-!
# The window of a result

`START` and `LIMIT` cut a part out of the result that the query has without them (`Query.run_withWindow`),
and windows of one length that follow one another give it back, page by page. The groups are cut before they
are projected, so a window is given also where a group outside of it could not be projected; that is why
the laws start from a query that has its whole result.
-/

namespace RecordQuery

/-- The query with another window. -/
def Query.withWindow (q : Query) (start? limit? : Option Nat) : Query :=
  { q with start?, limit? }

/-- The part of a list that a window leaves: what is behind the items that are skipped, and of that no more
than is wanted. -/
def cut {α : Type} (start? limit? : Option Nat) (items : List α) : List α :=
  let behind := items.drop (start?.getD 0)
  match limit? with
  | some n => behind.take n
  | none => behind

/-- Pages of `n` items that follow one another are the items in front. -/
theorem flatten_pages {α : Type} (items : List α) (n pages : Nat) :
    ((List.range pages).map fun i => (items.drop (i * n)).take n).flatten = items.take (pages * n) := by
  induction pages with
  | zero => simp
  | succ pages ih =>
      rw [List.range_succ, List.map_append, List.flatten_append, ih, Nat.succ_mul, List.take_add]
      simp

namespace Execute

variable {R : Type} {c : Conditions R} {q : Query} {kept : List (CompositeRow R)}
  {rows : List ResultRow}

/-- The rows that groups are projected to, cut as the groups are. -/
theorem project_window {fields : List SelectField} {groups : List (Group R)}
    (h : groups.mapM (project c fields) = .ok rows) (start? limit? : Option Nat) :
    (window (q.withWindow start? limit?) groups).mapM (project c fields) =
      .ok (cut start? limit? rows) := by
  cases limit? with
  | none => exact mapM_drop h _
  | some n => exact mapM_take (mapM_drop h _) n

/-- Grouping and ordering do not look at the window. -/
theorem resultOf_withWindow (hstart : q.start? = none) (hlimit : q.limit? = none)
    (h : resultOf c q kept = .ok rows) (start? limit? : Option Nat) :
    resultOf c (q.withWindow start? limit?) kept = .ok (cut start? limit? rows) := by
  obtain ⟨groups, hgroups, h⟩ := bind_ok_iff.mp h
  obtain ⟨inOrder, hordered, h⟩ := bind_ok_iff.mp h
  have hwhole : window q inOrder = inOrder := by
    unfold window
    rw [hstart, hlimit]
    rfl
  rw [ofEval_ok_iff, hwhole] at h
  exact bind_ok_iff.mpr ⟨groups, hgroups, bind_ok_iff.mpr
    ⟨inOrder, hordered, ofEval_ok_iff.mpr (project_window h start? limit?)⟩⟩

end Execute

namespace Query

open Execute

variable {R : Type} {q : Query} {source : Source R} {accessor : Accessor R} {params : List Value}
  {settings : Settings} {rows : List ResultRow}

theorem run_withWindow_eq (hstart : q.start? = none) (hlimit : q.limit? = none)
    (h : q.run source accessor params settings = .ok rows) (start? limit? : Option Nat) :
    (q.withWindow start? limit?).run source accessor params settings = .ok (cut start? limit? rows) := by
  let c : Conditions R := ⟨accessor, settings, params⟩
  obtain ⟨henough, kept, hkept, hrows⟩ := (run_ok_iff (c := c)).mp h
  exact (run_ok_iff (c := c)).mpr
    ⟨henough, kept, hkept, resultOf_withWindow hstart hlimit hrows start? limit?⟩

/-- **Windows cut the result.** Of the rows that a query has without a window, it gives with one those
behind the rows that are skipped, and as many of them as are wanted. Pages of one length, up to the last
row, are together all rows in their order. -/
theorem run_withWindow (hstart : q.start? = none) (hlimit : q.limit? = none)
    (h : q.run source accessor params settings = .ok rows) :
    (∀ s, (q.withWindow (some s) none).run source accessor params settings = .ok (rows.drop s)) ∧
    (∀ n, (q.withWindow none (some n)).run source accessor params settings = .ok (rows.take n)) ∧
    (∀ s n, (q.withWindow (some s) (some n)).run source accessor params settings =
      .ok ((rows.drop s).take n)) ∧
    ∀ n pages, rows.length ≤ pages * n →
      ∃ parts, ((List.range pages).mapM fun i =>
          (q.withWindow (some (i * n)) (some n)).run source accessor params settings) = .ok parts ∧
        parts.flatten = rows := by
  have hrun := run_withWindow_eq hstart hlimit h
  refine ⟨fun s => hrun (some s) none, fun n => hrun none (some n),
    fun s n => hrun (some s) (some n), fun n pages hpages => ?_⟩
  refine ⟨(List.range pages).map fun i => (rows.drop (i * n)).take n, ?_, ?_⟩
  · rw [mapM_ok_iff, List.forall₂_map_right_iff, List.forall₂_same]
    exact fun i _ => hrun (some (i * n)) (some n)
  · rw [flatten_pages, List.take_of_length_le hpages]

/-- Groups in descending order, on pages of two. -/
theorem run_withWindow_of_groups :
    let source : Source Nat := fun name => [("a", [3, 1, 2, 3, 5, 2])].lookup name
    ∃ q rows parts, compile "SELECT x, count(*) FROM a GROUP BY x ORDER BY x DESC" = .ok q ∧
      q.start? = none ∧ q.limit? = none ∧ q.run source .ofNumbers [] .default = .ok rows ∧
      rows.map (fun row => row.values.map Value.display) =
        [["5", "1"], ["3", "2"], ["2", "2"], ["1", "1"]] ∧
      (q.withWindow (some 1) (some 2)).run source .ofNumbers [] .default =
        .ok ((rows.drop 1).take 2) ∧
      ((List.range 2).mapM fun i =>
        (q.withWindow (some (i * 2)) (some 2)).run source .ofNumbers [] .default) = .ok parts ∧
      parts.flatten = rows := by
  intro source
  have hcheck : passes (fun q => decide (q.start? = none ∧ q.limit? = none) &&
      passes (fun rows : List ResultRow => decide
        (rows.map (fun row => row.values.map Value.display) =
          [["5", "1"], ["3", "2"], ["2", "2"], ["1", "1"]]))
        (q.run source .ofNumbers [] .default))
      (compile "SELECT x, count(*) FROM a GROUP BY x ORDER BY x DESC") = true := by
    decide +kernel
  simp only [passes_iff, Bool.and_eq_true, decide_eq_true_eq] at hcheck
  obtain ⟨q, hq, ⟨hstart, hlimit⟩, rows, hrows, hvalues⟩ := hcheck
  obtain ⟨-, -, hcut, hpages⟩ := run_withWindow hstart hlimit hrows
  have hlength : rows.length ≤ 2 * 2 := by
    have hfour := congrArg List.length hvalues
    rw [List.length_map] at hfour
    exact Nat.le_of_eq hfour
  obtain ⟨parts, hparts, hflatten⟩ := hpages 2 2 hlength
  exact ⟨q, rows, parts, hq, hstart, hlimit, hrows, hvalues, hcut 1 2, hparts, hflatten⟩

end Query

end RecordQuery
