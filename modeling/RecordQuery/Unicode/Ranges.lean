/-!
# Tables over code points

The two shapes in which the character tables of this library are written, each with the one
function that reads it. A property of characters is a list of inclusive ranges; a mapping from
characters to characters is a list of runs, each run moving every `step`-th code point from `first`
to `last` by one distance.
-/

namespace RecordQuery.Unicode

/-- `inRanges ranges c` holds when the code point of `c` lies in one of the inclusive ranges. -/
def inRanges (ranges : List (Nat × Nat)) (c : Char) : Bool :=
  ranges.any fun r => Nat.ble r.1 c.toNat && Nat.ble c.toNat r.2

/-- A run of code points `first, first + step, …, last`, all moved by `distance`. -/
structure Run where
  first : Nat
  last : Nat
  step : Nat
  distance : Int

/-- `run.covers n` holds when the run moves the code point `n`. -/
def Run.covers (run : Run) (n : Nat) : Bool :=
  Nat.ble run.first n && Nat.ble n run.last && (n - run.first) % run.step == 0

/-- `move runs c` is where the first run that covers `c` takes it; a character that no run covers
stays. -/
def move (runs : List Run) (c : Char) : Char :=
  match runs.find? (·.covers c.toNat) with
  | some run => Char.ofNat (c.toNat + run.distance).toNat
  | none => c

/-- `inRanges` is membership in one of the ranges, read as a statement about numbers. -/
theorem inRanges_eq_true_iff {ranges : List (Nat × Nat)} {c : Char} :
    inRanges ranges c = true ↔ ∃ r ∈ ranges, r.1 ≤ c.toNat ∧ c.toNat ≤ r.2 := by
  simp [inRanges]

/-- A character that no run covers is a fixed point of the mapping. -/
theorem move_of_uncovered {runs : List Run} {c : Char}
    (h : ∀ run ∈ runs, run.covers c.toNat = false) : move runs c = c := by
  have : runs.find? (·.covers c.toNat) = none := by
    rw [List.find?_eq_none]
    intro run hr
    simp [h run hr]
  simp [move, this]

end RecordQuery.Unicode
