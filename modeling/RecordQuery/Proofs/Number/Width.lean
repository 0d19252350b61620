import RecordQuery.Proofs.Number.Digits
/-!
# Numerals of one width

Digits that are as many say which number they stand for: it is below the power of ten with as many zeros
(`Digits.value_lt`), and the order of the numbers is the order of the digits as texts
(`Digits.value_lt_value_iff`). So digits are the number they stand for, filled up to their width
(`Digits.padded_value`).
-/

namespace RecordQuery.Digits

/-- What is read as a number is digits, and at least one. -/
theorem natural?_eq_some_iff {digits : List Char} {n : Nat} :
    natural? digits = some n ↔
      digits ≠ [] ∧ (∀ c ∈ digits, c.isDigit = true) ∧ value digits = n := by
  refine ⟨fun h => ?_, fun ⟨hne, hdigits, hvalue⟩ => ?_⟩
  · unfold natural? at h
    split at h
    next hall =>
      rw [Bool.and_eq_true, Bool.not_eq_true', List.isEmpty_eq_false_iff, List.all_eq_true] at hall
      exact ⟨hall.1, hall.2, Option.some.inj h⟩
    next => cases h
  · rw [natural?_of_digits hne hdigits, hvalue]

/-! ## One digit -/

theorem isDigit_iff {c : Char} : c.isDigit = true ↔ 48 ≤ c.toNat ∧ c.toNat ≤ 57 := by
  rw [Char.isDigit, Bool.and_eq_true, decide_eq_true_eq, decide_eq_true_eq]
  exact Iff.rfl

theorem digitValue_lt {c : Char} (h : c.isDigit = true) : digitValue c < 10 := by
  have hbounds := isDigit_iff.mp h
  show c.toNat - 48 < 10
  omega

/-- Digits are in the order of what they stand for. -/
theorem digitValue_lt_digitValue_iff {c d : Char} (hc : c.isDigit = true) (hd : d.isDigit = true) :
    digitValue c < digitValue d ↔ c < d := by
  have hcode : c < d ↔ c.toNat < d.toNat := Iff.rfl
  have hlow := (isDigit_iff.mp hc).1
  have hlow' := (isDigit_iff.mp hd).1
  rw [hcode]
  show c.toNat - 48 < d.toNat - 48 ↔ _
  omega

theorem digitValue_eq_digitValue_iff {c d : Char} (hc : c.isDigit = true) (hd : d.isDigit = true) :
    digitValue c = digitValue d ↔ c = d := by
  refine ⟨fun h => ?_, congrArg _⟩
  have hlow := (isDigit_iff.mp hc).1
  have hlow' := (isDigit_iff.mp hd).1
  have hcode : c.toNat - 48 = d.toNat - 48 := h
  exact Char.toNat_inj.mp (by omega)

/-! ## Places -/

/-- What stands in the places behind does not make up for a smaller digit. -/
theorem place_lt_place {base x y u : Nat} (hu : u < base) (h : x < y) (v : Nat) :
    base * x + u < base * y + v :=
  calc base * x + u < base * x + base := Nat.add_lt_add_left hu _
    _ = base * (x + 1) := (Nat.mul_succ _ _).symm
    _ ≤ base * y := Nat.mul_le_mul_left _ h
    _ ≤ base * y + v := Nat.le_add_right _ _

/-- Of two digits in front the smaller one decides, and if they are the same what stands behind them. -/
theorem place_lt_place_iff {base x y u v : Nat} (hu : u < base) (hv : v < base) :
    base * x + u < base * y + v ↔ x < y ∨ x = y ∧ u < v := by
  rcases Nat.lt_trichotomy x y with h | rfl | h
  · exact iff_of_true (place_lt_place hu h v) (.inl h)
  · rw [Nat.add_lt_add_iff_left]
    simp
  · have hgreater := place_lt_place hv h u
    exact iff_of_false (Nat.lt_asymm hgreater) (by omega)

/-! ## Digits in a row -/

variable {a b : List Char}

theorem value_lt (h : ∀ c ∈ a, c.isDigit = true) : value a < tenPow a.length := by
  induction a with
  | nil => exact Nat.one_pos
  | cons c a ih =>
      have hdigit := digitValue_lt (h c (by simp))
      have hrest := ih fun d hd => h d (by simp [hd])
      rw [value_cons, List.length_cons, tenPow_succ]
      exact place_lt_place hrest hdigit 0

/-- Numbers with as many digits are in the order of the digits. -/
theorem value_lt_value_iff (ha : ∀ c ∈ a, c.isDigit = true) (hb : ∀ c ∈ b, c.isDigit = true)
    (hlength : a.length = b.length) : value a < value b ↔ a < b := by
  induction a generalizing b with
  | nil =>
      obtain rfl := List.length_eq_zero_iff.mp hlength.symm
      exact iff_of_false (Nat.lt_irrefl _) (List.lt_irrefl _)
  | cons c a ih =>
      cases b with
      | nil => cases hlength
      | cons d b =>
          have hrest : a.length = b.length := Nat.succ.inj hlength
          have hc := ha c List.mem_cons_self
          have hd := hb d List.mem_cons_self
          have ha' : ∀ e ∈ a, e.isDigit = true := fun e he => ha e (List.mem_cons_of_mem _ he)
          have hb' : ∀ e ∈ b, e.isDigit = true := fun e he => hb e (List.mem_cons_of_mem _ he)
          have hlt : value b < tenPow a.length := hrest ▸ value_lt hb'
          rw [value_cons, value_cons, ← hrest, place_lt_place_iff (value_lt ha') hlt,
            List.cons_lt_cons_iff, digitValue_lt_digitValue_iff hc hd, digitValue_eq_digitValue_iff hc hd,
            ih ha' hb' hrest]

theorem eq_of_value (ha : ∀ c ∈ a, c.isDigit = true) (hb : ∀ c ∈ b, c.isDigit = true)
    (hlength : a.length = b.length) (h : value a = value b) : a = b := by
  have hab : ¬a < b := fun hlt => by
    rw [← value_lt_value_iff ha hb hlength] at hlt
    omega
  have hba : ¬b < a := fun hlt => by
    rw [← value_lt_value_iff hb ha hlength.symm] at hlt
    omega
  exact List.le_antisymm hba hab

/-- Digits are the number they stand for, filled up to their width. -/
theorem padded_value (ha : ∀ c ∈ a, c.isDigit = true) (hne : a ≠ []) :
    padded a.length (value a) = a := by
  have hlength := length_padded (List.length_pos_iff.mpr hne) (value_lt ha)
  exact eq_of_value (fun c hc => isDigit_of_mem_padded hc) ha hlength (value_padded _ _)

/-- Numbers that fit are in the order of their texts. -/
theorem padded_lt_padded_iff {width m n : Nat} (hwidth : 0 < width) (hm : m < tenPow width)
    (hn : n < tenPow width) : padded width m < padded width n ↔ m < n := by
  have hlength : (padded width m).length = (padded width n).length := by
    rw [length_padded hwidth hm, length_padded hwidth hn]
  rw [← value_lt_value_iff (fun _ h => isDigit_of_mem_padded h) (fun _ h => isDigit_of_mem_padded h)
    hlength, value_padded, value_padded]

/-! ## Fields in a row -/

/-- Of two texts that start with as many characters, these decide unless they are the same. -/
theorem append_lt_append_iff {x y : List Char} (h : a.length = b.length) :
    a ++ x < b ++ y ↔ a < b ∨ a = b ∧ x < y := by
  induction a generalizing b with
  | nil =>
      obtain rfl := List.length_eq_zero_iff.mp h.symm
      simp
  | cons c a ih =>
      cases b with
      | nil => cases h
      | cons d b =>
          rw [List.cons_append, List.cons_append, List.cons_lt_cons_iff, List.cons_lt_cons_iff,
            ih (Nat.succ.inj h), List.cons.injEq, and_or_left, or_assoc, and_assoc]

/-- A text that starts with a number of fixed width tells the number and the rest. -/
theorem padded_append_inj {width m n : Nat} (hwidth : 0 < width) (hm : m < tenPow width)
    (hn : n < tenPow width) {x y : List Char} (h : padded width m ++ x = padded width n ++ y) :
    m = n ∧ x = y := by
  have hlength : (padded width m).length = (padded width n).length := by
    rw [length_padded hwidth hm, length_padded hwidth hn]
  obtain ⟨hpadded, hrest⟩ := List.append_inj h hlength
  refine ⟨?_, hrest⟩
  rw [← value_padded width m, hpadded, value_padded]

/-- In a text that starts with a number of fixed width the number decides first. -/
theorem padded_append_lt_iff {width m n : Nat} (hwidth : 0 < width) (hm : m < tenPow width)
    (hn : n < tenPow width) {x y : List Char} :
    padded width m ++ x < padded width n ++ y ↔ m < n ∨ m = n ∧ x < y := by
  have hlength : (padded width m).length = (padded width n).length := by
    rw [length_padded hwidth hm, length_padded hwidth hn]
  have heq : padded width m = padded width n ↔ m = n := by
    refine ⟨fun h => ?_, congrArg _⟩
    rw [← value_padded width m, h, value_padded]
  rw [append_lt_append_iff hlength, padded_lt_padded_iff hwidth hm hn, heq]

end RecordQuery.Digits
