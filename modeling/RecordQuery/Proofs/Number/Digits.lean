import RecordQuery.Number.Digits
import RecordQuery.Number.Powers
import Mathlib.Algebra.Group.Nat.Defs
/-!
# Numerals read back

What is written in base ten is read as the same number, with zeros in front of it or not, and what
digits in front of some text are read as.
-/

namespace RecordQuery

/-- What is taken ends where the property does. -/
theorem takeWhile_append_stop {α : Type} {p : α → Bool} {a rest : List α} (ha : ∀ c ∈ a, p c = true)
    (hrest : ∀ c ∈ rest.head?, p c = false) : (a ++ rest).takeWhile p = a := by
  rw [List.takeWhile_append_of_pos ha]
  cases rest with
  | nil => simp
  | cons c rest =>
      rw [List.takeWhile_cons_of_neg (by rw [hrest c rfl]; exact Bool.false_ne_true),
        List.append_nil]

theorem dropWhile_append_stop {α : Type} {p : α → Bool} {a rest : List α} (ha : ∀ c ∈ a, p c = true)
    (hrest : ∀ c ∈ rest.head?, p c = false) : (a ++ rest).dropWhile p = rest := by
  have hall := List.takeWhile_append_dropWhile (p := p) (l := a ++ rest)
  rw [takeWhile_append_stop ha hrest] at hall
  exact List.append_cancel_left hall

namespace Digits

theorem value_eq (digits : List Char) : value digits = Nat.ofDigitChars 10 digits 0 :=
  rfl

@[simp]
theorem value_render (n : Nat) : value (render n) = n :=
  Nat.ofDigitChars_ten_toDigits

theorem render_ne_nil (n : Nat) : render n ≠ [] :=
  Nat.toDigits_ne_nil

theorem isDigit_of_mem_render {n : Nat} {c : Char} (h : c ∈ render n) : c.isDigit = true :=
  Nat.isDigit_of_mem_toDigits (by decide) (by decide) h

theorem tenPow_eq (n : Nat) : tenPow n = 10 ^ n :=
  rfl

/-- The digits of two numerals in a row. -/
theorem value_append (a b : List Char) : value (a ++ b) = tenPow b.length * value a + value b := by
  rw [value_eq, Nat.ofDigitChars_append, Nat.ofDigitChars_eq_ofDigitChars_zero, tenPow_eq]
  rfl

theorem value_replicate_zero (n : Nat) : value (List.replicate n '0') = 0 := by
  rw [value_eq, Nat.ofDigitChars_replicate_zero, Nat.mul_zero]

theorem value_cons (c : Char) (digits : List Char) :
    value (c :: digits) = tenPow digits.length * digitValue c + value digits := by
  rw [← List.singleton_append, value_append]
  simp [value]

theorem count_pos (n : Nat) : 0 < count n :=
  Nat.length_toDigits_pos

/-- A number has so many digits at most when it is below the power of ten. -/
theorem count_le_iff {n k : Nat} (hk : 0 < k) : count n ≤ k ↔ n < tenPow k :=
  Nat.length_toDigits_le_iff (by decide) hk

theorem lt_tenPow_count (n : Nat) : n < tenPow (count n) :=
  (count_le_iff (count_pos n)).mp (Nat.le_refl _)

theorem tenPow_count_pred_le {n : Nat} (hn : n ≠ 0) : tenPow (count n - 1) ≤ n := by
  by_cases h : count n = 1
  · rw [h]
    show 1 ≤ n
    omega
  · have hpos := count_pos n
    have hnot : ¬count n ≤ count n - 1 := by omega
    rw [count_le_iff (by omega)] at hnot
    omega

/-- A number other than zero is written without a zero in front. -/
theorem head?_render {n : Nat} (h : n ≠ 0) : (render n).head? ≠ some '0' := by
  unfold render
  induction n using Nat.strongRecOn with
  | ind n ih =>
    by_cases hlt : n < 10
    · rw [Nat.toDigits_of_lt_base hlt]
      have hdigit : ∀ d < 10, d ≠ 0 → d.digitChar ≠ '0' := by decide
      simpa using hdigit n hlt h
    · rw [Nat.toDigits_of_base_le (by decide) (by omega), List.head?_append]
      -- the first digit is that of the tenth, which has digits
      have hfirst := ih (n / 10) (by omega) (by omega)
      cases hhead : (Nat.toDigits 10 (n / 10)).head? with
      | none => exact absurd (List.head?_eq_none_iff.mp hhead) Nat.toDigits_ne_nil
      | some c => rwa [hhead] at hfirst

/-! ## Filled up with zeros -/

theorem isDigit_of_mem_padded {width n : Nat} {c : Char} (h : c ∈ padded width n) :
    c.isDigit = true := by
  rcases List.mem_append.mp h with hzero | hdigit
  · rw [List.eq_of_mem_replicate hzero]
    rfl
  · exact isDigit_of_mem_render hdigit

@[simp]
theorem value_padded (width n : Nat) : value (padded width n) = n := by
  rw [padded, value_append, value_replicate_zero, value_render, Nat.mul_zero, Nat.zero_add]

/-- A number that fits takes exactly the width it is given. -/
theorem length_padded {width n : Nat} (hwidth : 0 < width) (h : n < tenPow width) :
    (padded width n).length = width := by
  have hle := (count_le_iff hwidth).mpr h
  rw [padded, List.length_append, List.length_replicate]
  show width - count n + count n = width
  omega

theorem padded_ne_nil (width n : Nat) : padded width n ≠ [] :=
  List.append_ne_nil_of_right_ne_nil _ (render_ne_nil n)

/-! ## Digits in front -/

/-- Digits end where something else stands. -/
theorem split_append_stop {digits rest : List Char} (hdigits : ∀ c ∈ digits, c.isDigit = true)
    (hrest : ∀ c ∈ rest.head?, c.isDigit = false) : split (digits ++ rest) = (digits, rest) := by
  rw [split, takeWhile_append_stop hdigits hrest, dropWhile_append_stop hdigits hrest]

theorem split_render (n : Nat) : split (render n) = (render n, []) := by
  have hdigits : ∀ c ∈ render n, c.isDigit = true := fun _ h => isDigit_of_mem_render h
  have hstop : ∀ c ∈ ([] : List Char).head?, c.isDigit = false := by simp
  simpa using split_append_stop hdigits hstop

theorem natural?_of_digits {digits : List Char} (hne : digits ≠ [])
    (hdigits : ∀ c ∈ digits, c.isDigit = true) : natural? digits = some (value digits) := by
  unfold natural?
  rw [if_pos]
  rw [Bool.and_eq_true, List.all_eq_true]
  refine ⟨?_, hdigits⟩
  cases digits with
  | nil => contradiction
  | cons c digits => rfl

theorem natural?_render (n : Nat) : natural? (render n) = some n := by
  rw [natural?_of_digits (render_ne_nil n) fun c hc => isDigit_of_mem_render hc, value_render]

end Digits

end RecordQuery
