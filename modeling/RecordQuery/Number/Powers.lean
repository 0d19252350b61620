/-!
# Powers of ten and of two

The powers that scales and exponents stand for, over the natural numbers. They have names of their own
because they are the units in which everything else here is counted: a decimal is so many
`tenPow`ths, and a number of the binary format so many `twoPow`s or so many of their reciprocals.
-/

namespace RecordQuery

/-- The power of ten with `n` zeros. -/
def tenPow (n : Nat) : Nat :=
  Nat.pow 10 n

/-- The `n`th power of two. -/
def twoPow (n : Nat) : Nat :=
  Nat.pow 2 n

@[simp]
theorem tenPow_zero : tenPow 0 = 1 :=
  rfl

theorem tenPow_succ (n : Nat) : tenPow (n + 1) = tenPow n * 10 :=
  rfl

theorem tenPow_pos (n : Nat) : 0 < tenPow n := by
  induction n with
  | zero => decide
  | succ n ih =>
    rw [tenPow_succ]
    omega

/-- Scales add up. -/
theorem tenPow_add (m n : Nat) : tenPow (m + n) = tenPow m * tenPow n := by
  induction n with
  | zero => simp
  | succ n ih => rw [← Nat.add_assoc, tenPow_succ, tenPow_succ, ih, Nat.mul_assoc]

@[simp]
theorem twoPow_zero : twoPow 0 = 1 :=
  rfl

theorem twoPow_succ (n : Nat) : twoPow (n + 1) = twoPow n * 2 :=
  rfl

theorem twoPow_pos (n : Nat) : 0 < twoPow n := by
  induction n with
  | zero => decide
  | succ n ih =>
    rw [twoPow_succ]
    omega

end RecordQuery
