import RecordQuery.Proofs.Agreement
import RecordQuery.Proofs.Execution.Rows
import RecordQuery.Proofs.Number.Digits
import RecordQuery.Proofs.Names
/-!
# Qualified fields

A field is qualified by a resource when the name that the row is asked for has the resource in front of
its first dot (`FieldRef.QualifiedBy`). Such a field is read from the slot of the resource, and the other
slots do not matter: neither how many stand behind (`QualifiedBy.read_append`), nor, as long as their
resources have different names, in which order they stand (`QualifiedBy.read_swap`).

What is evaluated over rows depends on them only through the fields that occur in it
(`Conditions.satisfied_congr`, `Conditions.eval_congr`), so the same holds for it as soon as all of these
are qualified.
-/

namespace RecordQuery

namespace Name

theorem same_iff {a b : String} : same a b = true ↔ lower a = lower b :=
  beq_iff_eq

theorem same_eq_false_iff {a b : String} : same a b = false ↔ lower a ≠ lower b :=
  beq_eq_false_iff_ne

/-- A name is split behind a qualifier without a dot. -/
theorem splitQualifier?_append {qualifier : String} (h : hasDot qualifier = false) (rest : String) :
    splitQualifier? (qualifier ++ "." ++ rest) = some (qualifier, rest) := by
  have htext : (qualifier ++ "." ++ rest).toList = qualifier.toList ++ '.' :: rest.toList := by simp
  have hqualifier : ∀ c ∈ qualifier.toList, (c != '.') = true := by
    intro c hc
    rw [bne_iff_ne]
    rintro rfl
    rw [hasDot, List.contains_eq_mem, decide_eq_false_iff_not] at h
    exact h hc
  have hdot : ∀ c ∈ ('.' :: rest.toList).head?, (c != '.') = false := by
    rintro c ⟨⟩
    rfl
  rw [splitQualifier?, htext, dropWhile_append_stop hqualifier hdot,
    takeWhile_append_stop hqualifier hdot]
  simp

end Name

/-- `f.QualifiedBy resources` holds when the full name of the field starts with one of the resources and a
dot. Names of resources are compared without regard to case. -/
def FieldRef.QualifiedBy (resources : List String) (f : FieldRef) : Prop :=
  ∃ qualifier rest, Name.splitQualifier? f.qualifiedName = some (qualifier, rest) ∧
    ∃ resource ∈ resources, Name.same resource qualifier = true

/-- `f.isWrittenWith resources` holds when the field is written with one of the resources. -/
def FieldRef.isWrittenWith (resources : List String) (f : FieldRef) : Bool :=
  f.resource.any fun written => resources.any fun resource => Name.same resource written

/-- A field that is written with a resource, whose name has no dot, is qualified by it. -/
theorem FieldRef.qualifiedBy_of_isWrittenWith {f : FieldRef} {resources : List String}
    (hdot : ∀ resource ∈ resources, Name.hasDot resource = false)
    (h : f.isWrittenWith resources = true) : f.QualifiedBy resources := by
  rw [isWrittenWith, Option.any_eq_true] at h
  obtain ⟨written, hf, h⟩ := h
  obtain ⟨resource, hmem, hsame⟩ := List.any_eq_true.mp h
  refine ⟨written, f.name, ?_, resource, hmem, hsame⟩
  rw [qualifiedName, hf]
  refine Name.splitQualifier?_append ?_ f.name
  rw [← Name.hasDot_eq_of_same hsame, hdot resource hmem]

theorem FieldRef.QualifiedBy.mono {resources resources' : List String} {f : FieldRef}
    (h : f.QualifiedBy resources) (hsub : resources ⊆ resources') : f.QualifiedBy resources' := by
  obtain ⟨qualifier, rest, hsplit, resource, hmem, hsame⟩ := h
  exact ⟨qualifier, rest, hsplit, resource, hsub hmem, hsame⟩

variable {R : Type}

/-! ## Reading a qualified field -/

namespace CompositeRow

variable {row row' : CompositeRow R} {f : FieldRef}

theorem exists_slot? {qualifier resource : String} (hmem : resource ∈ row.resources)
    (hsame : Name.same resource qualifier = true) : ∃ slot, row.slot? qualifier = some slot := by
  obtain ⟨slot, hslot, rfl⟩ := List.mem_map.mp hmem
  rw [slot?, ← Option.isSome_iff_exists, List.find?_isSome]
  exact ⟨slot, hslot, hsame⟩

theorem read_of_slot? {field qualifier rest : String} {slot : Slot R}
    (hsplit : Name.splitQualifier? field = some (qualifier, rest))
    (hslot : row.slot? qualifier = some slot) (accessor : Accessor R) (resolution : FieldResolution) :
    row.read accessor resolution field = slot.read accessor rest := by
  have hqualified : row.qualifiedSlot? field = some (slot, rest) := by
    rw [qualifiedSlot?, hsplit]
    dsimp only
    rw [hslot]
    rfl
  unfold read
  rw [hqualified]

/-- A row that has the slots of another under all its qualifiers reads a qualified field alike. -/
theorem read_eq_of_slot? (h : f.QualifiedBy row.resources)
    (hslots : ∀ qualifier slot, row.slot? qualifier = some slot → row'.slot? qualifier = some slot)
    (accessor : Accessor R) (resolution : FieldResolution) :
    row'.read accessor resolution f.qualifiedName = row.read accessor resolution f.qualifiedName := by
  obtain ⟨qualifier, rest, hsplit, resource, hmem, hsame⟩ := h
  obtain ⟨slot, hslot⟩ := exists_slot? hmem hsame
  rw [read_of_slot? hsplit hslot, read_of_slot? hsplit (hslots qualifier slot hslot)]

end CompositeRow

namespace FieldRef.QualifiedBy

open CompositeRow

variable {row : CompositeRow R} {f : FieldRef}

/-- Slots behind those that qualify a field do not matter to it. -/
theorem read_append (h : f.QualifiedBy row.resources) (more : CompositeRow R) (accessor : Accessor R)
    (resolution : FieldResolution) : (row ++ more : CompositeRow R).read accessor resolution
      f.qualifiedName = row.read accessor resolution f.qualifiedName := by
  refine read_eq_of_slot? h (fun qualifier slot hslot => ?_) accessor resolution
  rw [slot?] at hslot ⊢
  rw [List.find?_append, hslot]
  rfl

/-- In a row of two slots with different names, their order does not matter to a qualified field. -/
theorem read_swap {s t : Slot R} (hne : Name.same s.resource t.resource = false)
    (h : f.QualifiedBy [s.resource, t.resource]) (accessor : Accessor R)
    (resolution : FieldResolution) :
    CompositeRow.read accessor resolution [t, s] f.qualifiedName =
      CompositeRow.read accessor resolution [s, t] f.qualifiedName := by
  have hrow : f.QualifiedBy (CompositeRow.resources [s, t]) := h
  refine read_eq_of_slot? hrow (fun qualifier slot hslot => ?_) accessor resolution
  simp only [slot?, List.find?_cons, List.find?_nil] at hslot ⊢
  cases hs : Name.same s.resource qualifier with
  | false =>
      rw [hs] at hslot
      cases ht : Name.same t.resource qualifier with
      | false =>
          rw [ht] at hslot
          cases hslot
      | true =>
          rw [ht] at hslot
          exact hslot
  | true =>
      rw [hs] at hslot
      -- the names differ, so the other slot has another qualifier
      have ht : Name.same t.resource qualifier = false := by
        rw [Name.same_eq_false_iff] at hne ⊢
        rw [← Name.same_iff.mp hs]
        exact hne.symm
      rw [ht]
      exact hslot

end FieldRef.QualifiedBy

/-! ## Evaluating over rows -/

namespace Execute.Conditions

variable {c : Conditions R} {row row' : CompositeRow R}

/-- `c.ReadsAlike fields row row'` holds when the rows have the same values, or errors, in the fields. -/
def ReadsAlike (c : Conditions R) (fields : List FieldRef) (row row' : CompositeRow R) : Prop :=
  ∀ f ∈ fields, c.rowAccessor.get row f.qualifiedName = c.rowAccessor.get row' f.qualifiedName

theorem ReadsAlike.agree {fields : List FieldRef} (h : c.ReadsAlike fields row row')
    (params : List Nat) : Context.Agree fields params (c.contextOf [row]) (c.contextOf [row']) where
  rows := .cons h .nil
  params _ _ := rfl

/-- An expression has one result on rows that its fields do not tell apart. -/
theorem eval_congr {e : Expr} (h : c.ReadsAlike e.fields row row') :
    e.eval (c.contextOf [row]) = e.eval (c.contextOf [row']) :=
  e.eval_of_agree (h.agree _)

/-- A predicate is decided alike on rows that its fields do not tell apart. -/
theorem satisfied_congr {p : Predicate} (h : c.ReadsAlike p.fields row row') :
    c.satisfied p row = c.satisfied p row' := by
  have hholds : p.holds c.rowAccessor c.params row = p.holds c.rowAccessor c.params row' :=
    p.eval_of_agree (h.agree _)
  rw [satisfied, satisfied, hholds]

theorem accepts_congr {p : Predicate} (h : c.ReadsAlike p.fields row row') :
    c.accepts p row = c.accepts p row' := by
  rw [accepts, accepts, satisfied_congr h]

theorem decides_congr {p : Predicate} (h : c.ReadsAlike p.fields row row') :
    c.Decides p row ↔ c.Decides p row' := by
  rw [Decides, Decides, satisfied_congr h]

/-- Fields that are qualified by the slots of a row are read alike with more slots behind. -/
theorem readsAlike_extend {fields : List FieldRef}
    (h : ∀ f ∈ fields, f.QualifiedBy row.resources) (resource : String) (record? : Option R) :
    c.ReadsAlike fields (row.extend resource record?) row :=
  fun f hf => (h f hf).read_append [⟨resource, record?⟩] c.accessor c.settings.resolution

end Execute.Conditions

end RecordQuery
