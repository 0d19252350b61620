import RecordQuery.Execute.Sorting
import Mathlib.Data.List.Perm.Basic
import Mathlib.Data.List.Forall2
/-!
# The stable sort

What sorting by insertion gives. The result is ascending (`sort_pairwise`) when the test ranks the items of
the list (`Ranks`), and items that are not less than one another keep their order (`sort_filter`), whatever
the test is like elsewhere. Sorting a part of a list gives that part of the sorted one (`filter_sort`), and the
first and the last of the sorted list change as one more item comes in (`head?_sort_concat`,
`getLast?_sort_concat`). Lists of related items are sorted alike (`sort_related`).

The items are placed one after the other, from the last one of the reversed list on (`sort_eq`), so each law
is an induction on that list with a law of `place` as its step.
-/

namespace RecordQuery.Sorting

variable {α β : Type} {less : α → α → Bool} {x : α} {xs ys : List α}

theorem sort_eq (less : α → α → Bool) (xs : List α) :
    sort less xs = (xs.reverse.foldr (place less) []).reverse := by
  rw [sort, List.foldr_reverse]

theorem placed_perm (less : α → α → Bool) (xs : List α) :
    (xs.foldr (place less) []).Perm xs := by
  induction xs with
  | nil => exact .refl _
  | cons x xs ih => exact (place_perm less x _).trans (ih.cons x)

/-! ## Ascending order -/

/-- `Ranks less xs` holds when `less` is a strict order among the items of a list, up to items that are not
less than one another. -/
structure Ranks (less : α → α → Bool) (xs : List α) : Prop where
  asymm : ∀ a ∈ xs, ∀ b ∈ xs, less a b = true → less b a = false
  trans : ∀ a ∈ xs, ∀ b ∈ xs, ∀ c ∈ xs, less a b = false → less b c = false → less a c = false

theorem Ranks.mono (h : Ranks less xs) (hsub : ys ⊆ xs) : Ranks less ys where
  asymm a ha b hb := h.asymm a (hsub ha) b (hsub hb)
  trans a ha b hb c hc := h.trans a (hsub ha) b (hsub hb) c (hsub hc)

/-- What is not less than the first item of a descending list is less than none. -/
theorem Ranks.not_less {y : α} (h : Ranks less (x :: y :: ys))
    (hsorted : (y :: ys).Pairwise fun a b => less a b = false) (hless : less x y = false) :
    ∀ z ∈ y :: ys, less x z = false := by
  intro z hz
  rcases List.mem_cons.mp hz with rfl | hz'
  · exact hless
  · exact h.trans x List.mem_cons_self y (List.mem_cons_of_mem x List.mem_cons_self) z
      (List.mem_cons_of_mem x hz) hless ((List.pairwise_cons.mp hsorted).1 z hz')

/-- Placing an item keeps a list descending. -/
theorem place_pairwise (h : Ranks less (x :: ys)) (hsorted : ys.Pairwise fun a b => less a b = false) :
    (place less x ys).Pairwise fun a b => less a b = false := by
  induction ys with
  | nil => exact List.pairwise_singleton _ x
  | cons y ys ih =>
      have hx : x ∈ x :: y :: ys := List.mem_cons_self
      have hy : y ∈ x :: y :: ys := List.mem_cons_of_mem x List.mem_cons_self
      obtain ⟨hbehind, hothers⟩ := List.pairwise_cons.mp hsorted
      unfold place
      split
      next hless =>
        refine List.pairwise_cons.mpr ⟨fun z hz => ?_, ih (h.mono ?_) hothers⟩
        · rcases List.mem_cons.mp ((place_perm less x ys).mem_iff.mp hz) with rfl | hz
          · exact h.asymm z hx y hy hless
          · exact hbehind z hz
        · exact List.cons_subset_cons x (List.subset_cons_self y ys)
      next hless =>
        exact List.pairwise_cons.mpr ⟨h.not_less hsorted (Bool.eq_false_iff.mpr hless), hsorted⟩

theorem placed_pairwise (h : Ranks less xs) :
    (xs.foldr (place less) []).Pairwise fun a b => less a b = false := by
  induction xs with
  | nil => exact List.Pairwise.nil
  | cons x xs ih =>
      refine place_pairwise (h.mono ?_) (ih (h.mono (List.subset_cons_self x xs)))
      exact List.cons_subset_cons x (placed_perm less xs).subset

/-- A sorted list is ascending. -/
theorem sort_pairwise (h : Ranks less xs) : (sort less xs).Pairwise fun a b => less b a = false := by
  rw [sort_eq, List.pairwise_reverse]
  exact placed_pairwise (h.mono (List.reverse_perm xs).subset)

/-! ## Stability -/

/-- An item is placed in front of all items of its class. -/
theorem place_filter {p : α → Bool} (h : ∀ y ∈ ys, p x = true → p y = true → less x y = false) :
    (place less x ys).filter p = (x :: ys).filter p := by
  induction ys with
  | nil => rfl
  | cons y ys ih =>
      obtain ⟨hy, hys⟩ := List.forall_mem_cons.mp h
      unfold place
      split
      next hless =>
        rw [List.filter_cons, ih hys, List.filter_cons, List.filter_cons, List.filter_cons]
        cases hpx : p x with
        | false => rfl
        | true =>
            -- what the item passes is not of its class
            have hpy : p y = false := by
              refine Bool.eq_false_iff.mpr fun hpy => ?_
              rw [hy hpx hpy] at hless
              cases hless
            rw [hpy]
            rfl
      next => rfl

/-- Items of a class, which are not less than one another, keep their order. -/
theorem sort_filter {p : α → Bool}
    (h : ∀ a ∈ xs, ∀ b ∈ xs, p a = true → p b = true → less a b = false) :
    (sort less xs).filter p = xs.filter p := by
  have hplaced : ∀ ys ⊆ xs, (ys.foldr (place less) []).filter p = ys.filter p := by
    intro ys hsub
    induction ys with
    | nil => rfl
    | cons x ys ih =>
        obtain ⟨hx, hsub⟩ := List.cons_subset.mp hsub
        rw [List.foldr_cons, place_filter, List.filter_cons, ih hsub, List.filter_cons]
        exact fun y hy => h x hx y (hsub ((placed_perm less ys).subset hy))
  rw [sort_eq, List.filter_reverse, hplaced _ (List.reverse_perm xs).subset, List.filter_reverse,
    List.reverse_reverse]

/-- A list stays as it is where no item is less than another. -/
theorem sort_eq_self (h : ∀ a ∈ xs, ∀ b ∈ xs, less a b = false) : sort less xs = xs := by
  have hall := sort_filter (p := fun _ => true) fun a ha b hb _ _ => h a ha b hb
  rw [List.filter_true, List.filter_true] at hall
  exact hall

/-! ## Sorting related lists -/

section Related

variable {R : α → β → Prop} {less' : β → β → Bool} {xs' ys' : List β} {x' : β}

theorem place_related (h : ∀ a a' b b', R a a' → R b b' → less a b = less' a' b') (hx : R x x')
    (hys : List.Forall₂ R ys ys') : List.Forall₂ R (place less x ys) (place less' x' ys') := by
  induction hys with
  | nil => exact .cons hx .nil
  | cons hy hrest ih =>
      rw [place, place, h _ _ _ _ hx hy]
      split
      · exact .cons hy ih
      · exact .cons hx (.cons hy hrest)

/-- Lists of related items, between which the tests decide alike, are sorted alike. -/
theorem sort_related (h : ∀ a a' b b', R a a' → R b b' → less a b = less' a' b')
    (hxs : List.Forall₂ R xs xs') : List.Forall₂ R (sort less xs) (sort less' xs') :=
  List.rel_reverse (List.rel_foldl (fun _ _ hsorted _ _ hx => place_related h hx hsorted) .nil hxs)

end Related

/-- Sorting what a function makes of the items is sorting the items by that. -/
theorem sort_map {less : β → β → Bool} (f : α → β) (xs : List α) :
    sort less (xs.map f) = (sort (fun a b => less (f a) (f b)) xs).map f := by
  have hrelated : List.Forall₂ (fun b a => b = f a) (sort less (xs.map f))
      (sort (fun a b => less (f a) (f b)) xs) := by
    apply sort_related
    · rintro _ a _ b rfl rfl
      rfl
    · rw [List.forall₂_map_left_iff, List.forall₂_same]
      exact fun _ _ => rfl
  rwa [← List.forall₂_map_right_iff, List.forall₂_eq_eq_eq] at hrelated

/-! ## Sorting a part of a list -/

/-- An item that is not less than the first goes in front. -/
theorem place_eq_cons (h : ∀ y ∈ ys.head?, less x y = false) : place less x ys = x :: ys := by
  cases ys with
  | nil => rfl
  | cons y ys => exact if_neg (Bool.eq_false_iff.mp (h y rfl))

/-- An item is placed among those with a property as it is among all of them. -/
theorem filter_place {p : α → Bool} (h : Ranks less (x :: ys))
    (hsorted : ys.Pairwise fun a b => less a b = false) :
    (place less x ys).filter p = if p x = true then place less x (ys.filter p) else ys.filter p := by
  induction ys with
  | nil => cases hx : p x <;> simp [place, hx]
  | cons y ys ih =>
      cases hless : less x y with
      | true =>
          have hpass : ∀ zs, place less x (y :: zs) = y :: place less x zs := fun zs => if_pos hless
          rw [hpass, List.filter_cons, List.filter_cons,
            ih (h.mono (List.cons_subset_cons x (List.subset_cons_self y ys))) (List.pairwise_cons.mp hsorted).2]
          cases p y <;> cases p x <;> simp [hpass]
      | false =>
          have hnot := h.not_less hsorted hless
          have hfront : ∀ z ∈ ((y :: ys).filter p).head?, less x z = false := fun z hz =>
            hnot z (List.mem_of_mem_filter (List.mem_of_mem_head? hz))
          rw [place_eq_cons fun z hz => hnot z (List.mem_of_mem_head? hz), List.filter_cons,
            place_eq_cons hfront]

/-- What is left of a sorted list is what was left, sorted. -/
theorem filter_sort {p : α → Bool} (h : Ranks less xs) :
    (sort less xs).filter p = sort less (xs.filter p) := by
  have hplaced : ∀ ys ⊆ xs, (ys.foldr (place less) []).filter p = (ys.filter p).foldr (place less) [] := by
    intro ys hsub
    induction ys with
    | nil => rfl
    | cons x ys ih =>
        obtain ⟨-, hsub'⟩ := List.cons_subset.mp hsub
        have hranks : Ranks less (x :: ys.foldr (place less) []) :=
          h.mono (List.Subset.trans (List.cons_subset_cons x (placed_perm less ys).subset) hsub)
        rw [List.foldr_cons, filter_place hranks (placed_pairwise (h.mono hsub')), ih hsub', List.filter_cons]
        split <;> rfl
  rw [sort_eq, sort_eq, List.filter_reverse, hplaced _ (List.reverse_perm xs).subset, List.filter_reverse]

/-! ## The first and the last of a sorted list -/

theorem sort_concat (less : α → α → Bool) (xs : List α) (x : α) :
    sort less (xs ++ [x]) = (place less x (sort less xs).reverse).reverse := by
  rw [sort, sort, List.foldl_append, List.reverse_reverse]
  rfl

/-- One more item at the end is the last of the sorted list, unless it is less than the last. -/
theorem getLast?_sort_concat (less : α → α → Bool) (xs : List α) (x : α) :
    (sort less (xs ++ [x])).getLast? =
      some (((sort less xs).getLast?.map fun y => if less x y = true then y else x).getD x) := by
  rw [sort_concat, List.getLast?_reverse, ← List.head?_reverse]
  cases (sort less xs).reverse with
  | nil => rfl
  | cons y ys =>
      unfold place
      split
      next hless => simp [hless]
      next hless => simp [hless]

/-- What is less than the last item of a descending list is behind all of them. -/
theorem getLast?_place (h : Ranks less (x :: ys)) (hsorted : ys.Pairwise fun a b => less a b = false) :
    (place less x ys).getLast? = some ((ys.getLast?.map fun y => if less x y = true then x else y).getD x) := by
  induction ys with
  | nil => rfl
  | cons y ys ih =>
      cases hless : less x y with
      | true =>
          have hpass : place less x (y :: ys) = y :: place less x ys := if_pos hless
          rw [hpass, List.getLast?_cons, List.getLast?_cons,
            ih (h.mono (List.cons_subset_cons x (List.subset_cons_self y ys))) (List.pairwise_cons.mp hsorted).2]
          cases ys.getLast? <;> simp [hless]
      | false =>
          have hlast : less x (ys.getLast?.getD y) = false :=
            h.not_less hsorted hless _ (List.mem_of_getLast? List.getLast?_cons)
          rw [place_eq_cons (by rintro _ ⟨⟩; exact hless), List.getLast?_cons, List.getLast?_cons]
          simp [hlast]

/-- One more item at the end is the first of the sorted list if it is less than the first. -/
theorem head?_sort_concat (h : Ranks less (xs ++ [x])) :
    (sort less (xs ++ [x])).head? =
      some (((sort less xs).head?.map fun y => if less x y = true then x else y).getD x) := by
  have hperm := (List.reverse_perm _).trans (sort_perm less xs)
  rw [sort_concat, List.head?_reverse, getLast?_place, List.getLast?_reverse]
  · refine h.mono (List.cons_subset.mpr ⟨by simp, fun y hy => ?_⟩)
    exact List.mem_append_left _ (hperm.subset hy)
  · exact List.pairwise_reverse.mpr (sort_pairwise (h.mono (List.subset_append_left xs [x])))

end RecordQuery.Sorting
