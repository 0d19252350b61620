/-!
# Sorting

A stable sort by insertion: every item goes behind the items before it that are not greater. The sorted
part is kept with the greatest item first, which is where the next item is compared first.
-/

namespace RecordQuery.Sorting

variable {α : Type}

/-- Puts an item among sorted ones, the greatest of which comes first. -/
def place (less : α → α → Bool) (x : α) : List α → List α
  | [] => [x]
  | y :: ys => if less x y then y :: place less x ys else x :: y :: ys

/-- Sorts a list; items that are not less than one another keep their order. -/
def sort (less : α → α → Bool) (xs : List α) : List α :=
  (xs.foldl (fun sorted x => place less x sorted) []).reverse

theorem place_perm (less : α → α → Bool) (x : α) (ys : List α) :
    (place less x ys).Perm (x :: ys) := by
  induction ys with
  | nil => exact .refl _
  | cons y ys ih =>
    unfold place
    split
    · exact (ih.cons y).trans (.swap x y ys)
    · exact .refl _

/-- Sorting keeps every item, as often as it occurs. -/
theorem sort_perm (less : α → α → Bool) (xs : List α) : (sort less xs).Perm xs := by
  have go : ∀ (sorted : List α),
      (xs.foldl (fun sorted x => place less x sorted) sorted).Perm (xs.reverse ++ sorted) := by
    induction xs with
    | nil => intro sorted; exact .refl _
    | cons x xs ih =>
      intro sorted
      simp only [List.foldl_cons, List.reverse_cons, List.append_assoc, List.singleton_append]
      exact (ih _).trans ((place_perm less x sorted).append_left _)
  have := go []
  simp only [List.append_nil] at this
  exact (List.reverse_perm _).trans (this.trans (List.reverse_perm _))

end RecordQuery.Sorting
