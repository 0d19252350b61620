/-!
# Integers of 64 bits

Whole numbers are held in 64 bits with a sign. No operation of this library wraps: it computes over
all integers and asks `integer64?` whether the result fits.
-/

namespace RecordQuery

/-- The 64-bit integer with the given value, if it fits. -/
def integer64? (n : Int) : Option Int64 :=
  if -9223372036854775808 ≤ n ∧ n < 9223372036854775808 then some (Int64.ofInt n) else none

/-- What fits keeps its value. -/
theorem toInt_of_integer64? {n : Int} {m : Int64} (h : integer64? n = some m) : m.toInt = n := by
  unfold integer64? at h
  split at h
  next bounds =>
    cases h
    exact Int64.toInt_ofInt_of_le bounds.1 bounds.2
  next => cases h

/-- Every 64-bit integer fits. -/
theorem integer64?_toInt (m : Int64) : integer64? m.toInt = some m := by
  unfold integer64?
  rw [if_pos ⟨m.le_toInt, m.toInt_lt⟩, Int64.ofInt_toInt]

end RecordQuery
