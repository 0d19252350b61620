/-!
# Rounding a quotient

The one place where a ratio of natural numbers is rounded to a natural number. A ratio that lies
strictly between two integers goes to the nearer one; one that lies exactly half-way goes where the
tie rule says.
-/

namespace RecordQuery

/-- Where a ratio half-way between two integers goes. -/
inductive Tie where
  /-- to the even one -/
  | even
  /-- to the larger one -/
  | away
deriving DecidableEq, Repr

/-- `roundQuotient tie num den` is `num / den` rounded to the nearest integer. -/
def roundQuotient (tie : Tie) (num den : Nat) : Nat :=
  let below := num / den
  let twice := 2 * (num % den)
  if twice < den then below
  else if den < twice then below + 1
  else
    match tie with
    | .away => below + 1
    | .even => if below % 2 = 0 then below else below + 1

/-- The rounded quotient is one of the two integers around the exact one. -/
theorem roundQuotient_mem (tie : Tie) (num den : Nat) :
    roundQuotient tie num den = num / den ∨ roundQuotient tie num den = num / den + 1 := by
  unfold roundQuotient
  cases tie <;> grind

/-- A quotient without remainder is not changed. -/
theorem roundQuotient_of_dvd (tie : Tie) {num den : Nat} (pos : 0 < den) (h : num % den = 0) :
    roundQuotient tie num den = num / den := by
  simp [roundQuotient, h, pos]

end RecordQuery
