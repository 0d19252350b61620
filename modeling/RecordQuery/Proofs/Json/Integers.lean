import RecordQuery.Json.Reading
import RecordQuery.Proofs.Literal.Typing
/-!
# Integers in documents

The text of an integer is a document. It is read as a 64-bit integer where it is one, and otherwise in
the binary format (`Json.read?_toString`).
-/

namespace RecordQuery

namespace Json

theorem le_foldl_digits (n : Nat) (digits : List Char) :
    n ≤ digits.foldl (fun n c => 10 * n + Digits.digitValue c) n := by
  induction digits generalizing n with
  | nil => exact Nat.le_refl n
  | cons c rest ih => exact Nat.le_trans (by omega) (ih (10 * n + Digits.digitValue c))

/-- No digit is left of a number that fits 64 bits. -/
theorem significand_of_lt {n : Nat} {digits : List Char}
    (h : digits.foldl (fun n c => 10 * n + Digits.digitValue c) n < 18446744073709551616) :
    significand n digits = (digits.foldl (fun n c => 10 * n + Digits.digitValue c) n, []) := by
  induction digits generalizing n with
  | nil => rfl
  | cons c rest ih =>
      have hnext := Nat.lt_of_le_of_lt (le_foldl_digits (10 * n + Digits.digitValue c) rest) h
      rw [significand, if_pos hnext, ih h]
      rfl

/-- An integer that fits 64 bits without its sign is the nearest number of the binary format. -/
theorem finite?_render (negative : Bool) {m : Nat} (h : m < 18446744073709551616) :
    finite? negative (Digits.render m) [] 0 =
      if Binary64.isFinite (Binary64.ofRatio negative m 1) then
        some (.float (Binary64.ofRatio negative m 1))
      else none := by
  have hvalue := Digits.value_render m
  rw [Digits.value] at hvalue
  have hsignificand := significand_of_lt (n := 0) (hvalue.symm ▸ h)
  rw [hvalue] at hsignificand
  have hunscaled : ∀ x : Float, timesTenPow x 0 = x := fun x => if_pos rfl
  unfold finite?
  simp only [hsignificand, significand, List.length_nil, Nat.sub_self, Int.ofNat_zero, Int.add_zero,
    Int.sub_zero, hunscaled]

/-- The digits of a number, with nothing behind them. -/
theorem number?_render (negative : Bool) {m : Nat} (hsign : negative = true → m ≠ 0) :
    number? negative (Digits.render m) =
      match integer64? (if negative then -(m : Int) else m) with
      | some n => some (.integer n, [])
      | none => (finite? negative (Digits.render m) [] 0).map (·, []) := by
  have hnonempty : (Digits.render m).isEmpty = false :=
    List.isEmpty_eq_false_iff.mpr (Digits.render_ne_nil m)
  have hleading : ((Digits.render m).length != 1 && (Digits.render m).head? == some '0') = false := by
    by_cases hzero : m = 0
    · subst hzero
      rfl
    · simp [Digits.head?_render hzero]
  have hinteger : (negative && m == 0) = false := by
    cases negative with
    | false => rfl
    | true => simp [hsign rfl]
  unfold number?
  simp only [Digits.split_render, hnonempty, hleading, Bool.or_false, Bool.false_eq_true, if_false,
    fraction?, exponent?, Option.bind_eq_bind, Option.bind_some, Digits.value_render, hinteger,
    List.isEmpty_nil, Option.isNone_none, Bool.not_false, Bool.and_self, if_true]
  cases integer64? (if negative then -(m : Int) else m) with
  | some n => rfl
  | none => cases h : finite? negative (Digits.render m) [] 0 <;> simp [h]

/-- An integer starts with its sign or with a digit, which start nothing but a number. -/
theorem document?_toString (fuel depth : Nat) (n : Int) :
    document? (fuel + 1) depth (toString n).toList =
      number? (n < 0) (Digits.render n.natAbs) := by
  obtain ⟨c, cs, hcs, hc⟩ := (Numeral.ofInt n).exists_head
  rw [Numeral.magnitude_ofInt] at hcs
  rw [← Numeral.text_ofInt, Numeral.text, Numeral.magnitude_ofInt, hcs]
  by_cases hneg : n < 0
  · rw [if_pos (by simp [Numeral.ofInt, hneg]), decide_eq_true hneg]
    rfl
  · rw [if_neg (by simp [Numeral.ofInt, hneg]), decide_eq_false hneg]
    have hspace : skipSpace (c :: cs) = c :: cs := by
      refine List.dropWhile_cons_of_neg ?_
      rw [isSpace]
      simp only [Bool.or_eq_true, beq_iff_eq]
      rintro (((rfl | rfl) | rfl) | rfl) <;> exact absurd hc (by decide)
    rw [document?, hspace]
    split
    all_goals first
      | rfl
      | (next heq => cases heq; exact absurd hc (by decide))

/-- An integer is read as one of 64 bits, if it is one, and else in the binary format. -/
theorem read?_toString (n : Int) :
    read? (toString n) =
      match integer64? n with
      | some i => some (.integer i)
      | none => finite? (n < 0) (Digits.render n.natAbs) [] 0 := by
  have hsign : decide (n < 0) = true → n.natAbs ≠ 0 := by
    intro hneg
    have := of_decide_eq_true hneg
    omega
  have hvalue : (if decide (n < 0) = true then -(n.natAbs : Int) else n.natAbs) = n := by
    split
    next hneg =>
      have := of_decide_eq_true hneg
      omega
    next hneg =>
      have := of_decide_eq_false (Bool.eq_false_iff.mpr hneg)
      omega
  rw [read?, document?_toString, number?_render _ hsign, hvalue]
  cases integer64? n with
  | some i => rfl
  | none => cases finite? (n < 0) (Digits.render n.natAbs) [] 0 <;> rfl

theorem read?_integer {n : Int} {i : Int64} (h : integer64? n = some i) :
    read? (toString n) = some (.integer i) := by
  rw [read?_toString, h]

end Json

end RecordQuery
