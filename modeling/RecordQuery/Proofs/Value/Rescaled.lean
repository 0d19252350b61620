import RecordQuery.Expr.Eval
import RecordQuery.Predicate.Compare
import RecordQuery.Proofs.Results
import RecordQuery.Proofs.Value.Keys
import Mathlib.Data.List.Forall2
import Mathlib.Data.Rat.Floor
/-!
# Decimals at two scales

The scale of a decimal is part of its text and no part of its value. `Value.Rescaled` relates values that are
the same up to the scale of a decimal. Comparing, sorting and grouping cannot tell such values apart
(`Value.Rescaled.compareValues_eq`, `sortCompare_eq`, `groupKey_eq`), as long as the two decimals have one
binary form as well: against a binary number a decimal is compared in the binary format, and rounding there
goes by way of the scale (`Decimal.toFloat`).

The functions that hand an argument on, or whose result has nothing of the scale of an argument in it, are
those of `weighsArguments`: of related arguments their results are related. The others show the text of an
argument, as `concat` does, or give a decimal whose scale comes of the scales that they are given, as sums and
products do, and with the scale its binary form.
-/

namespace RecordQuery

/-! ## Related lists -/

section RelatedLists

variable {α β γ : Type} {P : α → β → Prop} {as : List α} {bs : List β}

theorem isEmpty_eq_of_forall₂ (h : List.Forall₂ P as bs) : as.isEmpty = bs.isEmpty := by
  cases h <;> rfl

theorem any_eq_of_forall₂ {f : α → Bool} {g : β → Bool} (hfg : ∀ a b, P a b → f a = g b)
    (h : List.Forall₂ P as bs) : as.any f = bs.any g := by
  induction h with
  | nil => rfl
  | cons hab _ ih => rw [List.any_cons, List.any_cons, hfg _ _ hab, ih]

/-- Related lists that are paired with the same list. -/
theorem forall₂_zip_same (h : List.Forall₂ P as bs) (cs : List γ) :
    List.Forall₂ (fun a b => P a.1 b.1 ∧ a.2 = b.2) (as.zip cs) (bs.zip cs) := by
  induction h generalizing cs with
  | nil => exact .nil
  | cons hab _ ih =>
      cases cs with
      | nil => exact .nil
      | cons c cs => exact .cons ⟨hab, rfl⟩ (ih cs)

end RelatedLists

/-! ## Values -/

/-- `a.Rescaled b` holds for decimals of one value that have one binary form. -/
structure Decimal.Rescaled (a b : Decimal) : Prop where
  toRat : a.toRat = b.toRat
  toFloat : a.toFloat = b.toFloat

/-- `v.Rescaled w` holds when the values are the same up to the scale of a decimal. -/
inductive Value.Rescaled : Value → Value → Prop
  | refl (v : Value) : Rescaled v v
  | decimal {a b : Decimal} (h : a.Rescaled b) : Rescaled (.decimal a) (.decimal b)

/-- A decimal is compared by what it is. -/
theorem Decimal.compare_congr {a b : Decimal} (h : a.toRat = b.toRat) (c : Decimal) :
    a.compare c = b.compare c := by
  have hle : (a.compare c).isLE = (b.compare c).isLE := by
    rw [Bool.eq_iff_iff, isLE_compare_iff, isLE_compare_iff, h]
  have hge : (c.compare a).isLE = (c.compare b).isLE := by
    rw [Bool.eq_iff_iff, isLE_compare_iff, isLE_compare_iff, h]
  rw [compare_swap a c, compare_swap b c] at hge
  revert hle hge
  cases a.compare c <;> cases b.compare c <;> decide

namespace Value.Rescaled

variable {v v' w w' : Value}

/-! ## What they have in common -/

theorem isNull_eq (h : v.Rescaled v') : v.isNull = v'.isNull := by
  cases h <;> rfl

theorem typeName_eq (h : v.Rescaled v') : v.typeName = v'.typeName := by
  cases h <;> rfl

theorem sortRank_eq (h : v.Rescaled v') : v.sortRank = v'.sortRank := by
  cases h <;> rfl

theorem toFloat?_eq (h : v.Rescaled v') : v.toFloat? = v'.toFloat? := by
  cases h with
  | refl => rfl
  | decimal h => exact congrArg some h.toFloat

theorem groupKey_eq (h : v.Rescaled v') : v.groupKey = v'.groupKey := by
  cases h with
  | refl => rfl
  | decimal h => rw [groupKey, groupKey, Decimal.normalize_eq_iff.mpr h.toRat]

/-! ## Comparing -/

theorem compareNumbers?_left (h : v.Rescaled v') (w : Value) :
    compareNumbers? v w = compareNumbers? v' w := by
  cases h with
  | refl => rfl
  | @decimal a b h =>
      rw [compareNumbers?_eq, compareNumbers?_eq, (decimal h).toFloat?_eq]
      cases w.toDecimal? with
      | none => rfl
      | some y => exact congrArg some (Decimal.compare_congr h.toRat y)

theorem compare?_left (h : v.Rescaled v') (w : Value) : compare? v w = compare? v' w := by
  cases h with
  | refl => rfl
  | decimal h =>
      have hnumbers : ∀ d, compare? (.decimal d) w = compareNumbers? (.decimal d) w := by
        intro d
        cases w <;> rfl
      rw [hnumbers, hnumbers, (decimal h).compareNumbers?_left]

/-- Related values compare alike. -/
theorem compare?_eq (hv : v.Rescaled v') (hw : w.Rescaled w') : compare? v w = compare? v' w' := by
  rw [hv.compare?_left, compare?_swap w v', hw.compare?_left, ← compare?_swap w' v']

theorem sortCompare_eq (hv : v.Rescaled v') (hw : w.Rescaled w') :
    sortCompare v w = sortCompare v' w' := by
  rw [sortCompare, sortCompare, hv.compare?_eq hw, hv.sortRank_eq, hw.sortRank_eq]

/-- A decimal agrees with what compares as equal to it. -/
theorem agrees_decimal (d : Decimal) (w : Value) :
    (Value.decimal d).agrees w = ((Value.decimal d).compare? w == some .eq) := by
  cases w <;> rfl

theorem decimal_agrees (v : Value) (d : Decimal) :
    v.agrees (.decimal d) = (v.compare? (.decimal d) == some .eq) := by
  cases v <;> rfl

theorem agrees_eq (hv : v.Rescaled v') (hw : w.Rescaled w') : v.agrees w = v'.agrees w' := by
  cases hv with
  | refl =>
      cases hw with
      | refl => rfl
      | decimal hw => rw [decimal_agrees, decimal_agrees, (refl v).compare?_eq (decimal hw)]
  | decimal hv =>
      rw [agrees_decimal, (decimal hv).compare?_eq hw]
      cases hw <;> exact (agrees_decimal _ _).symm

/-- No operator but those that look at texts tells related values apart. -/
theorem compareValues_eq {op : CompareOp} (hlike : op ≠ .like) (hin : op ≠ .isIn) (hv : v.Rescaled v')
    (hw : w.Rescaled w') : compareValues op v w = compareValues op v' w' := by
  have hcompare := hv.compare?_eq hw
  have hagrees := hv.agrees_eq hw
  cases op with
  | like => exact absurd rfl hlike
  | isIn => exact absurd rfl hin
  | _ => simp only [compareValues, hv.isNull_eq, hw.isNull_eq, hcompare, hagrees]

end Value.Rescaled

/-! ## Whole parts -/

namespace Decimal

theorem signed_shorten (d : Decimal) {places : Nat} (pos : 0 < places) (carry : Bool) :
    (d.shorten places pos carry).signed =
      if d.negative then -((d.coefficient / tenPow places + carry.toNat : Nat) : Int)
      else (d.coefficient / tenPow places + carry.toNat : Nat) := by
  unfold signed shorten
  -- the sign is lost only where nothing is left
  cases d.negative <;> cases carry <;> grind

theorem isInteger_iff (d : Decimal) :
    d.isInteger = true ↔ (tenPow d.scale : Int) ∣ d.coefficient := by
  rw [isInteger, beq_iff_eq, Int.natCast_dvd_natCast, Nat.dvd_iff_mod_eq_zero]

/-- Away from zero there is one more unless there is no fraction. -/
theorem neg_ediv_tenPow (d : Decimal) : -(d.coefficient : Int) / tenPow d.scale =
    -((d.coefficient / tenPow d.scale + (!d.isInteger).toNat : Nat) : Int) := by
  have hsign : (tenPow d.scale : Int).sign = 1 :=
    Int.sign_eq_one_of_pos (by exact_mod_cast tenPow_pos d.scale)
  rw [Int.neg_ediv, hsign, ← Int.natCast_ediv]
  simp only [← isInteger_iff]
  cases d.isInteger with
  | true => simp
  | false => simp; ring

theorem signed_floor (d : Decimal) : d.floor.signed = ⌊d.toRat⌋ := by
  rw [toRat, Rat.floor_intCast_div_natCast, floor]
  split
  · rw [signed_shorten, signed]
    cases d.negative with
    | true => simp [neg_ediv_tenPow]
    | false => simp
  next hscale =>
    rw [Nat.eq_zero_of_not_pos hscale, tenPow_zero, Nat.cast_one, Int.ediv_one]

theorem signed_ceil (d : Decimal) : d.ceil.signed = ⌈d.toRat⌉ := by
  rw [toRat, Rat.ceil_intCast_div_natCast, ceil]
  split
  · rw [signed_shorten, signed]
    cases d.negative with
    | true => simp
    | false => simp [neg_ediv_tenPow]
  next hscale =>
    rw [Nat.eq_zero_of_not_pos hscale, tenPow_zero, Nat.cast_one, Int.ediv_one, neg_neg]

theorem scale_floor (d : Decimal) : d.floor.scale = 0 := by
  unfold floor
  split
  · exact Nat.sub_self d.scale
  next hscale => exact Nat.eq_zero_of_not_pos hscale

theorem scale_ceil (d : Decimal) : d.ceil.scale = 0 := by
  unfold ceil
  split
  · exact Nat.sub_self d.scale
  next hscale => exact Nat.eq_zero_of_not_pos hscale

/-- Without decimal places, a decimal other than zero is told by its value. -/
theorem eq_of_signed {a b : Decimal} (ha : a.scale = 0) (hb : b.scale = 0) (h : a.signed = b.signed)
    (hne : a.signed ≠ 0) : a = b := by
  have hcoefficient : a.coefficient = b.coefficient := by
    rw [← natAbs_signed, h, natAbs_signed]
  have hnegative : a.negative = b.negative := by
    unfold signed at h hne
    grind
  cases a
  cases b
  cases ha
  cases hb
  cases hcoefficient
  cases hnegative
  rfl

end Decimal

namespace Value

theorem ofDecimal_of_scale_zero {d : Decimal} (h : d.scale = 0) :
    ofDecimal d = ((integer64? d.signed).map integer).getD (.decimal d) := by
  have hinteger : d.isInteger = true := by
    rw [Decimal.isInteger, h, tenPow_zero, Nat.mod_one]
    rfl
  have htruncate : d.truncate = d.signed := by
    rw [Decimal.truncate, h, tenPow_zero, Nat.div_one]
    rfl
  rw [ofDecimal, if_pos hinteger, Decimal.toInt64?, htruncate]
  cases integer64? d.signed <;> rfl

/-- Without decimal places, decimals of one value are one value. -/
theorem ofDecimal_eq_of_signed {a b : Decimal} (ha : a.scale = 0) (hb : b.scale = 0)
    (h : a.signed = b.signed) : ofDecimal a = ofDecimal b := by
  rw [ofDecimal_of_scale_zero ha, ofDecimal_of_scale_zero hb]
  by_cases hzero : a.signed = 0
  · rw [← h, hzero]
    rfl
  · rw [Decimal.eq_of_signed ha hb h hzero]

end Value

/-! ## Functions -/

namespace ScalarFunction

/-- `f.weighs` holds for the functions that give an argument or what has no scale of an argument in it. -/
def weighs : ScalarFunction → Bool
  | coalesce | ceil | floor | sqrt | log | log10 | exp | pow | length => true
  | abs | round | upper | lower | concat => false

variable {f : ScalarFunction} {v v' w w' : Value} {vs vs' : List Value}

theorem anyNumber_eq (f : ScalarFunction) (h : v.Rescaled v') : anyNumber f v = anyNumber f v' := by
  rw [anyNumber, anyNumber, h.toFloat?_eq, h.typeName_eq]

theorem ofFloatFunction_eq (f : ScalarFunction) (g : Float → Float) (h : v.Rescaled v') :
    ofFloatFunction f g v = ofFloatFunction f g v' := by
  rw [ofFloatFunction, ofFloatFunction, anyNumber_eq f h]

theorem toWhole_eq (f : ScalarFunction) {ofFloat : Float → Float} {ofDecimal : Decimal → Decimal}
    (hwhole : ∀ d e, d.toRat = e.toRat → Value.ofDecimal (ofDecimal d) = .ofDecimal (ofDecimal e))
    (h : v.Rescaled v') : toWhole f ofFloat ofDecimal v = toWhole f ofFloat ofDecimal v' := by
  cases h with
  | refl => rfl
  | decimal h => exact congrArg Except.ok (hwhole _ _ h.toRat)

theorem power_eq (hv : v.Rescaled v') (hw : w.Rescaled w') : power v w = power v' w' := by
  have hx := anyNumber_eq pow hv
  have hy := anyNumber_eq pow hw
  -- a decimal is raised, and raises, in the binary format only
  cases hv with
  | refl =>
      cases hw with
      | refl => rfl
      | decimal => cases v <;> simp only [power, hy]
  | decimal => cases hw <;> simp only [power, hx, hy]

theorem lengthOf_eq (h : v.Rescaled v') : lengthOf v = lengthOf v' := by
  cases h <;> rfl

theorem firstPresent_rescaled (h : List.Forall₂ Value.Rescaled vs vs') :
    (firstPresent vs).Rescaled (firstPresent vs') := by
  induction h with
  | nil => exact .refl _
  | @cons v v' rest rest' hv _ ih =>
      have hstep : ∀ v rest, firstPresent (v :: rest) = if v.isNull then firstPresent rest else v := by
        intro v rest
        cases hnull : v.isNull <;> simp [firstPresent, hnull]
      rw [hstep, hstep, hv.isNull_eq]
      split
      · exact ih
      · exact hv

theorem apply_rescaled (hf : f.weighs = true) (h : List.Forall₂ Value.Rescaled vs vs') :
    BothGive Value.Rescaled (f.apply vs) (f.apply vs') := by
  have hsame : ∀ {r r' : Except EvalError Value}, r = r' → BothGive Value.Rescaled r r' := by
    rintro r _ rfl
    exact .refl .refl r
  have hfirst : (vs.headD .null).Rescaled (vs'.headD .null) := by
    cases h with
    | nil => exact .refl _
    | cons hv => exact hv
  have hsecond : (vs[1]?.getD Value.null).Rescaled (vs'[1]?.getD Value.null) := by
    cases h with
    | nil => exact .refl _
    | cons _ hrest =>
        cases hrest with
        | nil => exact .refl _
        | cons hw => exact hw
  cases f with
  | abs | round | upper | lower | concat => cases hf
  | coalesce => exact .ok hfirst
  | ceil =>
      refine hsame (toWhole_eq ceil (fun d e hde => ?_) hfirst)
      exact Value.ofDecimal_eq_of_signed d.scale_ceil e.scale_ceil (by
        rw [d.signed_ceil, e.signed_ceil, hde])
  | floor =>
      refine hsame (toWhole_eq floor (fun d e hde => ?_) hfirst)
      exact Value.ofDecimal_eq_of_signed d.scale_floor e.scale_floor (by
        rw [d.signed_floor, e.signed_floor, hde])
  | sqrt => exact hsame (ofFloatFunction_eq sqrt Float.sqrt hfirst)
  | log => exact hsame (ofFloatFunction_eq log Float.log hfirst)
  | log10 => exact hsame (ofFloatFunction_eq log10 Float.log10 hfirst)
  | exp => exact hsame (ofFloatFunction_eq exp Float.exp hfirst)
  | pow => exact hsame (power_eq hfirst hsecond)
  | length => exact hsame (lengthOf_eq hfirst)

theorem call_rescaled (hf : f.weighs = true) (h : List.Forall₂ Value.Rescaled vs vs') :
    BothGive Value.Rescaled (f.call vs) (f.call vs') := by
  unfold call
  rw [h.length_eq, any_eq_of_forall₂ (fun v v' hv => hv.isNull_eq) h]
  split
  · exact .ok (firstPresent_rescaled h)
  · split
    · exact .error _
    · split
      · exact .ok (.refl _)
      · exact apply_rescaled hf h

end ScalarFunction

namespace Aggregate

/-- `a.weighs` holds for the aggregates that give one of the values, or their number. -/
def weighs : Aggregate → Bool
  | count | min | max => true
  | sum | avg => false

variable {a : Aggregate} {vs vs' : List Value}

theorem choose_rescaled {better : Value → Value → Value}
    (h : ∀ v v', v.Rescaled v' → ∀ w w', w.Rescaled w' → (better v w).Rescaled (better v' w'))
    (hvs : List.Forall₂ Value.Rescaled vs vs') : (choose better vs).Rescaled (choose better vs') := by
  cases hvs with
  | nil => exact .refl _
  | cons hv hrest => exact List.rel_foldl h hv hrest

theorem apply_rescaled (ha : a.weighs = true) (h : List.Forall₂ Value.Rescaled vs vs') :
    BothGive Value.Rescaled (a.apply vs) (a.apply vs') := by
  cases a with
  | sum | avg => cases ha
  | count =>
      rw [apply, apply, h.length_eq]
      exact .ok (.refl _)
  | min =>
      refine .ok (choose_rescaled (fun v v' hv w w' hw => ?_) h)
      rw [smaller, smaller, hv.sortCompare_eq hw]
      split
      · exact hw
      · exact hv
  | max =>
      refine .ok (choose_rescaled (fun v v' hv w w' hw => ?_) h)
      rw [larger, larger, hv.sortCompare_eq hw]
      split
      · exact hv
      · exact hw

end Aggregate

/-- `weighsArguments name` holds for the functions and aggregates that give one of their arguments, or what
has no scale of an argument in it. -/
def weighsArguments (name : String) : Bool :=
  match Aggregate.ofName? name with
  | some a => a.weighs
  | none => (ScalarFunction.ofName? name).any ScalarFunction.weighs

theorem callScalar_rescaled {name : String} (ha : Aggregate.ofName? name = none)
    (h : weighsArguments name = true) {vs vs' : List Value} (hvs : List.Forall₂ Value.Rescaled vs vs') :
    BothGive Value.Rescaled (callScalar name vs) (callScalar name vs') := by
  rw [weighsArguments, ha] at h
  unfold callScalar
  split
  next f hf =>
    rw [hf] at h
    exact ScalarFunction.call_rescaled h hvs
  next => exact .error _

end RecordQuery
