import RecordQuery.Value.Json
import RecordQuery.Proofs.Binary64.Whole
import RecordQuery.Proofs.FieldComparisons
import RecordQuery.Proofs.Json.Integers
import RecordQuery.Proofs.Literal.Decimal
import RecordQuery.Proofs.Value.Symmetry
/-!
# Whole numbers in data and in queries

The digits of a whole number stand for a value in a document and for a literal in a query. Up to 64 bits
with a sign both are the same integer. Above, the literal is the decimal with exactly these digits, and
the document goes through the binary format first. There the numbers below `2 ^ 64` are multiples of
`2048`, so the two agree on the multiples and on nothing else (`Predicate.equal_whole_iff`).
-/

namespace RecordQuery

/-- A whole number of up to 28 digits is looked up in the format as it is. -/
theorem Binary64.ofDecimal_whole {negative : Bool} {num : Nat} (hpos : 0 < num)
    (hbound : num * 10 ≤ Decimal.coefficientBound) :
    ofDecimal negative num 0 = ofRatio negative num 1 := by
  have hcount : Digits.count num ≤ 29 := by
    rw [Digits.count_le_iff (by decide)]
    refine Nat.lt_of_lt_of_le (m := Decimal.coefficientBound) ?_ (by decide)
    omega
  unfold ofDecimal
  simp only
  rw [if_neg hpos.ne', if_neg (by omega), if_neg (by omega), if_pos (by decide)]
  simp

theorem Literal.not_exceedsDecimal_whole (negative : Bool) {num : Nat} (hpos : 0 < num)
    (hbound : num * 10 ≤ Decimal.coefficientBound) :
    exceedsDecimal (Binary64.ofRatio negative num 1) = false := by
  apply not_exceedsDecimal_ofRatio hpos Nat.one_pos
  · exact Nat.mul_pos hpos (tenPow_pos 28)
  · have hten : tenPow 28 = 10000000000000000000000000000 := rfl
    rw [Nat.mul_one, hten]
    unfold Decimal.coefficientBound at hbound
    omega

/-- What is in the decimal range is finite. -/
theorem Literal.isFinite_of_not_exceedsDecimal {x : Float} (h : exceedsDecimal x = false) :
    Binary64.isFinite x = true := by
  rw [exceedsDecimal, Bool.or_eq_false_iff, decide_eq_false_iff_not] at h
  have hceiling : Binary64.magnitudeBits decimalCeiling ≤ Binary64.infinityBits := by decide
  exact decide_eq_true (by omega)

/-! ## In a query -/

namespace Literal

theorem ofText_of_integer64? {n : Int} {i : Int64} (h : integer64? n = some i) :
    ofText (toString n) = .integer i := by
  rw [← toInt_of_integer64? h]
  exact ofText_integer i

/-- A whole number as a decimal without places. -/
def wholeDecimal (n : Int) (h : n.natAbs < Decimal.coefficientBound) : Decimal :=
  { Decimal.zero with negative := n < 0, coefficient := n.natAbs, coefficient_lt := h }

theorem render_wholeDecimal (n : Int) (h : n.natAbs < Decimal.coefficientBound) :
    (wholeDecimal n h).render.toList = (Numeral.ofInt n).text := by
  rw [← Decimal.text_numeral]
  congr 1
  simp [Decimal.numeral, wholeDecimal, Decimal.zero, Numeral.ofInt]

theorem signed_wholeDecimal (n : Int) (h : n.natAbs < Decimal.coefficientBound) :
    (wholeDecimal n h).Signed := by
  intro hnegative hzero
  have hn : n < 0 := of_decide_eq_true hnegative
  have hzero : n.natAbs = 0 := hzero
  omega

/-- A whole number that is too large for 64 bits is a decimal with its digits. -/
theorem ofText_whole {n : Int} (hlarge : integer64? n = none) (hzero : n ≠ 0)
    (hbound : n.natAbs * 10 ≤ Decimal.coefficientBound) (h : n.natAbs < Decimal.coefficientBound) :
    ofText (toString n) = .decimal (wholeDecimal n h) := by
  have hform : (Numeral.ofInt n).form = .whole := if_pos ⟨rfl, rfl⟩
  have hdigits : (Numeral.ofInt n).digits = n.natAbs := by
    simp [Numeral.digits, Numeral.ofInt]
  have hexponent : (Numeral.ofInt n).lastExponent = 0 := rfl
  have hread : Decimal.read? (Numeral.ofInt n).text = some (wholeDecimal n h) := by
    rw [← render_wholeDecimal n h]
    exact Decimal.read?_render (signed_wholeDecimal n h)
  have hpos : 0 < n.natAbs := by omega
  have htext : toString n = String.ofList (Numeral.ofInt n).text := by
    rw [Numeral.text_ofInt, String.ofList_toList]
  rw [htext, Numeral.ofText_text, hform]
  show ofWhole _ = _
  rw [ofWhole, Numeral.wholeValue_ofInt, hlarge]
  show ofNumeral _ = _
  rw [ofNumeral, Numeral.read?_text, hread, hdigits, hexponent, Binary64.ofDecimal_whole hpos hbound]
  simp [not_exceedsDecimal_whole _ hpos hbound]

end Literal

/-! ## In a document -/

/-- A whole number that fits 64 bits without its sign only goes through the binary format. -/
theorem Json.read?_whole {n : Int} (hlarge : integer64? n = none) (hzero : n ≠ 0)
    (hbound : n.natAbs < 18446744073709551616) :
    read? (toString n) = some (.float (Binary64.ofRatio (n < 0) n.natAbs 1)) := by
  have hdecimal : n.natAbs * 10 ≤ Decimal.coefficientBound := by
    unfold Decimal.coefficientBound
    omega
  have hfinite := Literal.isFinite_of_not_exceedsDecimal
    (Literal.not_exceedsDecimal_whole (n < 0) (by omega) hdecimal)
  rw [read?_toString, hlarge]
  show finite? _ _ _ _ = _
  rw [finite?_render _ hbound]
  exact if_pos hfinite

namespace Value

/-- A whole number of `53 + k` digits in a document is the decimal of the nearest multiple of `2 ^ k`. -/
theorem ofJsonNumber_ofRatio {num k : Nat} (h : Binary64.HasBits num k) (hk : k ≤ 39) (negative : Bool) :
    ∃ d, ofJsonNumber (Binary64.ofRatio negative num 1) = .decimal d ∧ d.negative = negative ∧
      d.coefficient = wholeNearest num (twoPow k) ∧ d.scale = 0 := by
  obtain ⟨d, hd, hparts⟩ := Decimal.ofFloat?_ofRatio h (by omega) negative
  refine ⟨d, ?_, hparts⟩
  have hpow : twoPow k ≤ twoPow 39 := Nat.pow_le_pow_right (by decide) hk
  have hbound : num * 10 ≤ Decimal.coefficientBound := by
    have hhigh : num ≤ 2 * Binary64.hiddenBit * twoPow 39 :=
      h.high.le.trans (Nat.mul_le_mul_left _ hpow)
    calc num * 10 ≤ 2 * Binary64.hiddenBit * twoPow 39 * 10 := Nat.mul_le_mul_right 10 hhigh
      _ ≤ Decimal.coefficientBound := by decide
  rw [ofJsonNumber, Literal.not_exceedsDecimal_whole negative h.pos hbound, hd]
  rfl

/-- Decimals of one sign without places agree when their coefficients are the same. -/
theorem agrees_decimal_iff {d e : Decimal} (hnegative : d.negative = e.negative) (hd : d.scale = 0)
    (he : e.scale = 0) :
    (Value.decimal d).agrees (.decimal e) = true ↔ d.coefficient = e.coefficient := by
  have hsame : (Value.decimal d).agrees (.decimal e) = (some (d.compare e) == some .eq) := rfl
  rw [hsame, beq_iff_eq, Option.some.injEq, Decimal.compare, hd, he, tenPow_zero, Nat.cast_one,
    mul_one, mul_one, compare_eq_iff_eq, Decimal.signed, Decimal.signed, hnegative]
  split <;> omega

theorem agrees_integer (n : Int64) : (Value.integer n).agrees (.integer n) = true := by
  show (some (Ord.compare n.toInt n.toInt) == some .eq) = true
  rw [compare_eq_iff_eq.mpr rfl]
  rfl

end Value

/-! ## Against each other -/

/-- `HeldExactly n` holds for the whole numbers below `2 ^ 64` that a document and a query both hold as
they are written: the integers of 64 bits, and above them the multiples of `2048`. -/
def HeldExactly (n : Int) : Prop :=
  n < 9223372036854775808 ∨ 2048 ∣ n

/-- What the digits of a whole number stand for in a document agrees with what they stand for in a query,
exactly when both hold the number as it is written. -/
theorem exists_read_agrees {n : Int} (low : -9223372036854775808 ≤ n) (high : n < 18446744073709551616) :
    ∃ j, Json.read? (toString n) = some j ∧
      ((Value.ofJson j).agrees (.ofLiteral (.ofText (toString n))) = true ↔ HeldExactly n) := by
  by_cases hfits : n < 9223372036854775808
  · have hinteger : integer64? n = some (Int64.ofInt n) := if_pos ⟨low, hfits⟩
    rw [Literal.ofText_of_integer64? hinteger]
    exact ⟨_, Json.read?_integer hinteger, iff_of_true (Value.agrees_integer _) (.inl hfits)⟩
  · obtain ⟨m, rfl⟩ : ∃ m : Nat, n = m := ⟨n.toNat, by omega⟩
    have hlarge : integer64? (m : Int) = none := if_neg (by omega)
    have hbits : Binary64.HasBits m 11 := by
      constructor
      · show 4503599627370496 * 2048 ≤ m
        omega
      · show m < 2 * 4503599627370496 * 2048
        omega
    have hbound : (m : Int).natAbs * 10 ≤ Decimal.coefficientBound := by
      unfold Decimal.coefficientBound
      omega
    have hlt : (m : Int).natAbs < Decimal.coefficientBound := by omega
    obtain ⟨d, hd, hnegative, hcoefficient, hscale⟩ :=
      Value.ofJsonNumber_ofRatio hbits (by decide) (decide ((m : Int) < 0))
    refine ⟨_, Json.read?_whole hlarge (by omega) (by omega), ?_⟩
    rw [Literal.ofText_whole hlarge (by omega) hbound hlt]
    show (Value.ofJsonNumber (Binary64.ofRatio _ m 1)).agrees (.decimal _) = true ↔ _
    rw [hd, Value.agrees_decimal_iff hnegative hscale rfl, hcoefficient]
    show wholeNearest m 2048 = m ↔ _
    rw [wholeNearest_eq_iff (by decide), HeldExactly]
    omega

namespace Predicate

/-- A name, `=` and the digits of a whole number compile, and a record is decided by whether the value of
its field agrees with the literal. -/
theorem compile_equal_whole {name : String} (hname : Lexer.IsName name) (n : Int) :
    ∃ p, compile (name ++ " = " ++ toString n) = .ok p ∧
      ∀ fields params v, Value.field? fields name = some v →
        p.holds .ofObjects params (.object fields) =
          .ok (v.agrees (.ofLiteral (.ofText (toString n)))) := by
  have htext : String.ofList (Numeral.ofInt n).text = toString n := by
    rw [Numeral.text_ofInt, String.ofList_toList]
  have hwritten : name ++ " = " ++ toString n = comparisonText name .equal (toString n) := by
    simp [comparisonText, CompareOp.text, String.append_assoc]
  have hcompile := compile_fieldAgainst_numeral hname .equal (Numeral.ofInt n)
  rw [htext, ← hwritten] at hcompile
  refine ⟨_, hcompile, fun fields params v hfield => ?_⟩
  rw [holds_fieldAgainst hfield (by decide), compareValues_equal]

/-- **Whole numbers in data and in queries.** The text of a whole number of up to 64 bits is read as a
document, and a name, `=` and this text compile to a predicate. On every record whose field holds what the
document stands for the predicate is decided; and it holds, as the two values agree, exactly when the number
is below `2 ^ 63` or a multiple of `2048`. -/
theorem equal_whole_iff (n : Int) (low : -9223372036854775808 ≤ n) (high : n < 18446744073709551616)
    {name : String} (hname : Lexer.IsName name) :
    ∃ j p, Json.read? (toString n) = some j ∧ compile (name ++ " = " ++ toString n) = .ok p ∧
      ((Value.ofJson j).agrees (.ofLiteral (.ofText (toString n))) = true ↔ HeldExactly n) ∧
      ∀ fields params, Value.field? fields name = some (.ofJson j) →
        ∃ b, p.holds .ofObjects params (.object fields) = .ok b ∧ (b = true ↔ HeldExactly n) := by
  obtain ⟨j, hread, hagrees⟩ := exists_read_agrees low high
  obtain ⟨p, hcompile, hholds⟩ := compile_equal_whole hname n
  refine ⟨j, p, hread, hcompile, hagrees, fun fields params hfield => ?_⟩
  exact ⟨_, hholds fields params _ hfield, hagrees⟩

/-- The first number above the integers is held. -/
theorem equal_whole_of_first :
    (-9223372036854775808 : Int) ≤ 9223372036854775808 ∧
      (9223372036854775808 : Int) < 18446744073709551616 ∧ Lexer.IsName "x" ∧
      ∃ j p, Json.read? (toString (9223372036854775808 : Int)) = some j ∧
        compile ("x" ++ " = " ++ toString (9223372036854775808 : Int)) = .ok p ∧
        p.holds .ofObjects [] (.object [("x", .ofJson j)]) = .ok true := by
  have low : (-9223372036854775808 : Int) ≤ 9223372036854775808 := by decide
  have high : (9223372036854775808 : Int) < 18446744073709551616 := by decide
  obtain ⟨j, p, hread, hcompile, -, hdecides⟩ := equal_whole_iff _ low high Lexer.isName_x
  obtain ⟨b, hholds, hb⟩ := hdecides [("x", .ofJson j)] [] rfl
  have hheld : HeldExactly 9223372036854775808 := by
    unfold HeldExactly
    decide
  rw [hb.mpr hheld] at hholds
  exact ⟨low, high, Lexer.isName_x, j, p, hread, hcompile, hholds⟩

/-- The one after it is not. -/
theorem equal_whole_fails :
    ∃ j p, Json.read? "9223372036854775809" = some j ∧ compile "x = 9223372036854775809" = .ok p ∧
      (Value.ofJson j).agrees (.ofLiteral (.ofText "9223372036854775809")) = false ∧
      p.holds .ofObjects [] (.object [("x", .ofJson j)]) = .ok false := by
  have htext : toString (9223372036854775809 : Int) = "9223372036854775809" := by decide
  have hnot : ¬HeldExactly 9223372036854775809 := by
    unfold HeldExactly
    decide
  obtain ⟨j, hread, hagrees⟩ := exists_read_agrees (n := 9223372036854775809) (by decide) (by decide)
  obtain ⟨p, hcompile, hholds⟩ := compile_equal_whole Lexer.isName_x 9223372036854775809
  have hdiffers := Bool.eq_false_iff.mpr fun h => hnot (hagrees.mp h)
  have hdecided := hholds [("x", .ofJson j)] [] _ rfl
  rw [hdiffers] at hdecided
  rw [htext] at hread hcompile hdiffers
  exact ⟨j, p, hread, hcompile, hdiffers, hdecided⟩

end Predicate

end RecordQuery
