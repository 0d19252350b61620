import Mathlib.Data.List.Perm.Basic
/-!
# Computations that succeed

What a computation with errors gives when it succeeds: a sequence of two succeeds when both do, and a
list of computations when all of them do, with their results in the order of the list. `Keeps r r'` relates
a computation to one that gives the same wherever the first gives anything; it passes through sequencing
and lists, so a computation keeps its result when its parts keep theirs. `BothGive P r r'` relates two
computations of which neither is the better one: their results are related by `P`, and their errors are the
same.
-/

namespace RecordQuery

variable {ε α β γ : Type}

theorem bind_ok_iff {x : Except ε α} {f : α → Except ε β} {b : β} :
    x >>= f = .ok b ↔ ∃ a, x = .ok a ∧ f a = .ok b := by
  cases x with
  | error e =>
      refine ⟨?_, ?_⟩
      · rintro ⟨⟩
      · rintro ⟨a, ⟨⟩, -⟩
  | ok a =>
      refine ⟨fun h => ⟨a, rfl, h⟩, ?_⟩
      rintro ⟨_, ⟨⟩, h⟩
      exact h

theorem pure_ok_iff {a b : α} : (pure a : Except ε α) = .ok b ↔ a = b :=
  ⟨Except.ok.inj, congrArg _⟩

/-- `passes test r` holds when a computation succeeds with a result that passes the test. -/
def passes (test : α → Bool) : Except ε α → Bool
  | .ok a => test a
  | .error _ => false

theorem passes_iff {test : α → Bool} {r : Except ε α} :
    passes test r = true ↔ ∃ a, r = .ok a ∧ test a = true := by
  cases r <;> simp [passes]

/-- Two lists on which functions agree item by item have the same results under them. -/
theorem mapM_eq_mapM {f : α → Except ε γ} {g : β → Except ε γ} {as : List α} {bs : List β}
    (h : List.Forall₂ (fun a b => f a = g b) as bs) : as.mapM f = bs.mapM g := by
  induction h with
  | nil => rfl
  | cons hab _ ih => rw [List.mapM_cons, List.mapM_cons, hab, ih]

/-- A list of computations gives the results of all of them. -/
theorem mapM_ok_iff {f : α → Except ε β} {as : List α} {bs : List β} :
    as.mapM f = .ok bs ↔ List.Forall₂ (fun a b => f a = .ok b) as bs := by
  induction as generalizing bs with
  | nil =>
      rw [List.mapM_nil, List.forall₂_nil_left_iff, pure_ok_iff]
      exact eq_comm
  | cons a as ih =>
      simp only [List.mapM_cons, bind_ok_iff, pure_ok_iff, List.forall₂_cons_left_iff, ih]
      refine ⟨?_, ?_⟩
      · rintro ⟨b, hb, bs', hbs, rfl⟩
        exact ⟨b, bs', hb, hbs, rfl⟩
      · rintro ⟨b, bs', hb, hbs, rfl⟩
        exact ⟨b, hb, bs', hbs, rfl⟩

/-- Where a function tells the results that there are, a list of computations gives those, and succeeds
when each of them does. -/
theorem mapM_ok_iff_map {f : α → Except ε β} {g : α → β} (hg : ∀ a b, f a = .ok b → g a = b)
    {as : List α} {bs : List β} :
    as.mapM f = .ok bs ↔ (∀ a ∈ as, ∃ b, f a = .ok b) ∧ bs = as.map g := by
  rw [mapM_ok_iff]
  refine ⟨fun h => ?_, ?_⟩
  · induction h with
    | nil => exact ⟨List.forall_mem_nil _, rfl⟩
    | cons hab _ ih =>
        refine ⟨List.forall_mem_cons.mpr ⟨⟨_, hab⟩, ih.1⟩, ?_⟩
        rw [List.map_cons, hg _ _ hab, ih.2]
  · rintro ⟨h, rfl⟩
    rw [List.forall₂_map_right_iff, List.forall₂_same]
    intro a ha
    obtain ⟨b, hb⟩ := h a ha
    rw [hg a b hb, hb]

/-- A part of a list has that part of the results. -/
theorem mapM_drop {f : α → Except ε β} {as : List α} {bs : List β} (h : as.mapM f = .ok bs) (n : Nat) :
    (as.drop n).mapM f = .ok (bs.drop n) :=
  mapM_ok_iff.mpr (List.forall₂_drop n (mapM_ok_iff.mp h))

theorem mapM_take {f : α → Except ε β} {as : List α} {bs : List β} (h : as.mapM f = .ok bs) (n : Nat) :
    (as.take n).mapM f = .ok (bs.take n) :=
  mapM_ok_iff.mpr (List.forall₂_take n (mapM_ok_iff.mp h))

/-- In another order, the results are the same in that order. -/
theorem mapM_perm {f : α → Except ε β} {as as' : List α} {bs : List β} (h : as.mapM f = .ok bs)
    (hperm : as'.Perm as) : ∃ bs', as'.mapM f = .ok bs' ∧ bs'.Perm bs := by
  obtain ⟨bs', hbs', hp⟩ := List.perm_comp_forall₂ hperm (mapM_ok_iff.mp h)
  exact ⟨bs', mapM_ok_iff.mpr hbs', hp⟩

/-! ## Giving what another computation gives -/

/-- `Keeps r r'` holds when `r'` has the result of `r`, if there is one. Where `r` fails, nothing is said
of `r'`. -/
def Keeps (r r' : Except ε α) : Prop :=
  ∀ a, r = .ok a → r' = .ok a

namespace Keeps

theorem refl (r : Except ε α) : Keeps r r :=
  fun _ h => h

theorem bind {r r' : Except ε α} {f f' : α → Except ε β} (h : Keeps r r')
    (hf : ∀ a, Keeps (f a) (f' a)) : Keeps (r >>= f) (r' >>= f') := by
  intro b hb
  obtain ⟨a, ha, hfa⟩ := bind_ok_iff.mp hb
  exact bind_ok_iff.mpr ⟨a, h a ha, hf a b hfa⟩

theorem map {r r' : Except ε α} (f : α → β) (h : Keeps r r') : Keeps (r.map f) (r'.map f) := by
  intro b hb
  cases r with
  | error e => cases hb
  | ok a =>
      rw [h a rfl]
      exact hb

theorem mapError {ε' : Type} {r r' : Except ε α} (g : ε → ε') (h : Keeps r r') :
    Keeps (r.mapError g) (r'.mapError g) := by
  intro b hb
  cases r with
  | error e => cases hb
  | ok a =>
      rw [h a rfl]
      exact hb

theorem ite {c : Prop} [Decidable c] {r r' s s' : Except ε α} (h : Keeps r r') (hs : Keeps s s') :
    Keeps (if c then r else s) (if c then r' else s') := by
  split
  · exact h
  · exact hs

theorem mapM {f f' : α → Except ε β} (h : ∀ a, Keeps (f a) (f' a)) (as : List α) :
    Keeps (as.mapM f) (as.mapM f') := by
  intro bs hbs
  exact mapM_ok_iff.mpr ((mapM_ok_iff.mp hbs).imp fun a b hab => h a b hab)

end Keeps

/-! ## Giving what is related -/

/-- `BothGive P r r'` holds when `r` and `r'` both have results, which `P` relates, or fail with one error. -/
inductive BothGive (P : α → β → Prop) : Except ε α → Except ε β → Prop
  | ok {a b} (h : P a b) : BothGive P (.ok a) (.ok b)
  | error (e) : BothGive P (.error e) (.error e)

namespace BothGive

variable {δ : Type} {P : α → β → Prop} {Q : γ → δ → Prop} {r : Except ε α} {r' : Except ε β}

theorem refl {P : α → α → Prop} (hP : ∀ a, P a a) (r : Except ε α) : BothGive P r r := by
  cases r with
  | error e => exact error e
  | ok a => exact ok (hP a)

theorem eq {r r' : Except ε α} (h : BothGive Eq r r') : r = r' := by
  cases h with
  | error e => rfl
  | ok h => rw [h]

theorem bind {f : α → Except ε γ} {f' : β → Except ε δ} (h : BothGive P r r')
    (hf : ∀ a b, P a b → BothGive Q (f a) (f' b)) : BothGive Q (r >>= f) (r' >>= f') := by
  cases h with
  | error e => exact error e
  | ok h => exact hf _ _ h

/-- What follows one and the same computation. -/
theorem bind_same {f : α → Except ε γ} {f' : α → Except ε δ} (r : Except ε α)
    (hf : ∀ a, BothGive Q (f a) (f' a)) : BothGive Q (r >>= f) (r >>= f') := by
  cases r with
  | error e => exact error e
  | ok a => exact hf a

theorem map {f : α → γ} {f' : β → δ} (h : BothGive P r r') (hf : ∀ a b, P a b → Q (f a) (f' b)) :
    BothGive Q (r.map f) (r'.map f') := by
  cases h with
  | error e => exact error e
  | ok h => exact ok (hf _ _ h)

theorem mapError {ε' : Type} (g : ε → ε') (h : BothGive P r r') :
    BothGive P (r.mapError g) (r'.mapError g) := by
  cases h with
  | error e => exact error (g e)
  | ok h => exact ok h

theorem mapM {f : γ → Except ε α} {f' : δ → Except ε β} {cs : List γ} {ds : List δ}
    (h : List.Forall₂ (fun c d => BothGive P (f c) (f' d)) cs ds) :
    BothGive (List.Forall₂ P) (cs.mapM f) (ds.mapM f') := by
  induction h with
  | nil => exact ok .nil
  | cons hcd _ ih =>
      rw [List.mapM_cons, List.mapM_cons]
      exact hcd.bind fun a b hab => ih.bind fun as bs habs => ok (.cons hab habs)

end BothGive

end RecordQuery
