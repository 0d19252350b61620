import RecordQuery.Proofs.Literal.Shown
import RecordQuery.Proofs.Literal.Readable
import RecordQuery.Proofs.Literal.Uuid
import RecordQuery.Proofs.Value.Order
import Mathlib.Data.Rat.Cast.Order
import Mathlib.Tactic.FieldSimp
import Mathlib.Tactic.Ring
import Mathlib.Tactic.NormNum
/-!
# Group keys

Rows are put into groups by texts. On the values that have one text for one value, which leaves out binary
numbers, points, collections and the moments between two seconds, the text says as much as the value does:
two values have one key when they are the same, or two exact numbers of one value
(`Value.groupKey_eq_iff`). The type in front of the key ends at its first colon, so keys of two types
differ; a number is shown in its smallest form, which is one form for each value
(`Decimal.normalize_eq_iff`), and every other text can be read back.
-/

namespace RecordQuery

/-! ## The value of a decimal -/

namespace Decimal

/-- The number that a decimal is. -/
def toRat (d : Decimal) : ℚ :=
  d.signed / tenPow d.scale

theorem toRat_ofInt64 (n : Int64) : (ofInt64 n).toRat = n.toInt := by
  rw [toRat, signed_ofInt64]
  show (n.toInt : ℚ) / (tenPow 0 : Nat) = _
  rw [tenPow_zero, Nat.cast_one, div_one]

theorem tenPow_ne_zero (n : Nat) : (tenPow n : ℚ) ≠ 0 :=
  Nat.cast_ne_zero.mpr (tenPow_pos n).ne'

/-- What is stripped is zeros: the coefficient has them back when it is multiplied by their power. -/
theorem stripZeros_mul (scale coefficient : Nat) :
    (stripZeros scale coefficient).1 * tenPow (scale - (stripZeros scale coefficient).2) =
      coefficient := by
  induction scale generalizing coefficient with
  | zero => exact Nat.mul_one _
  | succ scale ih =>
      rw [stripZeros]
      split
      next hzero =>
        have hle := (stripZeros_le scale (coefficient / 10)).2
        rw [Nat.succ_sub hle, tenPow_succ, ← Nat.mul_assoc, ih]
        omega
      next => rw [Nat.sub_self, tenPow_zero, Nat.mul_one]

/-- No zero is left at the end of the decimal places. -/
theorem stripZeros_last (scale coefficient : Nat) :
    (stripZeros scale coefficient).2 = 0 ∨ (stripZeros scale coefficient).1 % 10 ≠ 0 := by
  induction scale generalizing coefficient with
  | zero => exact .inl rfl
  | succ scale ih =>
      rw [stripZeros]
      split
      next => exact ih _
      next hlast => exact .inr hlast

theorem Signed.neg_iff {d : Decimal} (h : d.Signed) : d.signed < 0 ↔ d.negative = true := by
  unfold signed
  split
  next hnegative =>
    have hne := h hnegative
    exact iff_of_true (by omega) hnegative
  next hpositive => exact iff_of_false (by omega) hpositive

/-- A decimal in its smallest form: zero has no sign, and no decimal place at the end is a zero. -/
structure Reduced (d : Decimal) : Prop where
  signed : d.Signed
  last : d.scale = 0 ∨ d.coefficient % 10 ≠ 0

theorem reduced_normalize (d : Decimal) : d.normalize.Reduced :=
  ⟨d.signed_normalize, stripZeros_last _ _⟩

theorem natAbs_signed (d : Decimal) : d.signed.natAbs = d.coefficient := by
  unfold signed
  split
  next => rw [Int.natAbs_neg, Int.natAbs_natCast]
  next => exact Int.natAbs_natCast _

theorem signed_normalize_mul (d : Decimal) :
    d.normalize.signed * tenPow (d.scale - d.normalize.scale) = d.signed := by
  have hcoefficient : d.normalize.coefficient * tenPow (d.scale - d.normalize.scale) = d.coefficient :=
    stripZeros_mul _ _
  have hnegative : d.normalize.negative = (d.negative && !d.isZero) := rfl
  rw [signed, signed, hnegative, ← hcoefficient]
  -- the sign is lost only where the coefficient is zero
  by_cases hzero : d.coefficient = 0
  · rw [hzero] at hcoefficient
    have hstripped := (Nat.mul_eq_zero.mp hcoefficient).resolve_right (tenPow_pos _).ne'
    simp [hstripped]
  · have hkept : d.isZero = false := beq_eq_false_iff_ne.mpr hzero
    rw [hkept, Bool.not_false, Bool.and_true]
    split <;> push_cast <;> ring

theorem toRat_normalize (d : Decimal) : d.normalize.toRat = d.toRat := by
  have hscale : d.normalize.scale ≤ d.scale := (stripZeros_le d.scale d.coefficient).2
  have hpower : tenPow d.scale = tenPow (d.scale - d.normalize.scale) * tenPow d.normalize.scale := by
    rw [← tenPow_add, Nat.sub_add_cancel hscale]
  have hstrip := tenPow_ne_zero (d.scale - d.normalize.scale)
  have hrest := tenPow_ne_zero d.normalize.scale
  rw [toRat, toRat, ← d.signed_normalize_mul, hpower]
  push_cast
  field_simp

/-- Of two smallest forms of one value neither has more decimal places. -/
theorem Reduced.scale_le {a b : Decimal} (hb : b.Reduced)
    (h : a.signed * tenPow b.scale = b.signed * tenPow a.scale) : b.scale ≤ a.scale := by
  by_contra hlt
  obtain ⟨k, hk⟩ := Nat.exists_eq_add_of_lt (Nat.lt_of_not_le hlt)
  have hpower : tenPow b.scale = tenPow a.scale * (tenPow k * 10) := by
    rw [hk, tenPow_succ, tenPow_add, Nat.mul_assoc]
  have hcancel : b.signed = a.signed * (tenPow k * 10) := by
    have hpos : (tenPow a.scale : Int) ≠ 0 := by exact_mod_cast (tenPow_pos a.scale).ne'
    refine mul_right_cancel₀ hpos ?_
    rw [← h, hpower]
    push_cast
    ring
  have hdvd : (10 : Int) ∣ b.signed := ⟨a.signed * tenPow k, by rw [hcancel]; ring⟩
  have hmod : b.coefficient % 10 = 0 := by
    have habs := Int.natAbs_dvd_natAbs.mpr hdvd
    rw [natAbs_signed] at habs
    exact Nat.mod_eq_zero_of_dvd habs
  exact hb.last.elim (fun hzero => by omega) fun hlast => hlast hmod

/-- A value has one smallest form. -/
theorem Reduced.eq_of_toRat {a b : Decimal} (ha : a.Reduced) (hb : b.Reduced)
    (h : a.toRat = b.toRat) : a = b := by
  have hcross : a.signed * tenPow b.scale = b.signed * tenPow a.scale := by
    rw [toRat, toRat, div_eq_div_iff (tenPow_ne_zero _) (tenPow_ne_zero _)] at h
    exact_mod_cast h
  have hscale : a.scale = b.scale := Nat.le_antisymm (ha.scale_le hcross.symm) (hb.scale_le hcross)
  have hsigned : a.signed = b.signed := by
    rw [hscale] at hcross
    exact mul_right_cancel₀ (by exact_mod_cast (tenPow_pos b.scale).ne') hcross
  have hcoefficient : a.coefficient = b.coefficient := by
    rw [← natAbs_signed, hsigned, natAbs_signed]
  have hnegative : a.negative = b.negative := by
    rw [Bool.eq_iff_iff, ← ha.signed.neg_iff, hsigned, hb.signed.neg_iff]
  cases a
  cases b
  cases hcoefficient
  cases hnegative
  cases hscale
  rfl

/-- Two decimals have one smallest form when they are one number. -/
theorem normalize_eq_iff {a b : Decimal} : a.normalize = b.normalize ↔ a.toRat = b.toRat := by
  refine ⟨fun h => ?_, fun h => a.reduced_normalize.eq_of_toRat b.reduced_normalize ?_⟩
  · rw [← a.toRat_normalize, h, toRat_normalize]
  · rw [toRat_normalize, toRat_normalize, h]

/-- Decimals are in the order of the numbers that they are. -/
theorem isLE_compare_iff (a b : Decimal) :
    (a.compare b).isLE = true ↔ a.toRat ≤ b.toRat := by
  have ha : (0 : ℚ) < tenPow a.scale := by exact_mod_cast tenPow_pos a.scale
  have hb : (0 : ℚ) < tenPow b.scale := by exact_mod_cast tenPow_pos b.scale
  rw [compare, Std.isLE_compare, toRat, toRat, div_le_div_iff₀ ha hb]
  exact_mod_cast Iff.rfl

/-- Two decimals compare as equal when they are one number. -/
theorem compare_eq_iff {a b : Decimal} : a.compare b = .eq ↔ a.toRat = b.toRat := by
  rw [compare, compare_eq_iff_eq, toRat, toRat, div_eq_div_iff (tenPow_ne_zero _) (tenPow_ne_zero _)]
  exact_mod_cast Iff.rfl

end Decimal

/-! ## Texts that can be read back -/

theorem Uuid.render_injective : Function.Injective Uuid.render := by
  intro u v h
  have hread := u.isGrouped_render.2
  rw [h, v.isGrouped_render.2] at hread
  exact (Option.some.inj hread).symm

namespace Value

/-! ## Values with one key -/

/-- `v.isSimple` holds for the absent value, booleans, exact numbers, identifiers, timestamps on the stroke
of a second, and texts. -/
def isSimple : Value → Bool
  | .null | .boolean _ | .integer _ | .decimal _ | .uuid _ | .string _ => true
  | .date t => t.IsWhole
  | .float _ | .point _ | .array _ | .object _ => false

/-- The number that an integer or a decimal is. -/
def rational? (v : Value) : Option ℚ :=
  v.toDecimal?.map Decimal.toRat

/-- `v.Coincides w` holds when the values are the same, or exact numbers of one value. -/
def Coincides (v w : Value) : Prop :=
  v = w ∨ ∃ x, v.rational? = some x ∧ w.rational? = some x

/-! ## Types and texts -/

/-- What stands in front of the colon of a key. -/
def keyType (v : Value) : String :=
  if v.toDecimal?.isSome then "n" else v.typeName

/-- What stands behind the colon of a key. -/
def keyText (v : Value) : String :=
  match v.toDecimal? with
  | some d => d.normalize.render
  | none => v.display

theorem groupKey_eq {v : Value} (h : v.isSimple = true) :
    v.groupKey = v.keyType ++ ":" ++ v.keyText := by
  cases v with
  | integer n => simp [groupKey, numberKey, keyType, keyText, toDecimal?]
  | decimal d => simp [groupKey, numberKey, keyType, keyText, toDecimal?]
  | float | point | array | object => cases h
  | null | boolean | uuid | date | string =>
      rw [groupKey_eq_of_scalar rfl (fun _ h => by cases h) (fun _ h => by cases h)]
      rfl

theorem colon_not_mem_keyType (v : Value) : ':' ∉ v.keyType.toList := by
  cases v <;> simp [keyType, toDecimal?, typeName]

/-- A text ends where the first of some signs stands, when it has none of them. -/
theorem append_inj_of_stops {α : Type} [DecidableEq α] {stops x y r s : List α} (hx : ∀ a ∈ stops, a ∉ x)
    (hy : ∀ a ∈ stops, a ∉ y) (hr : ∀ a ∈ r.head?, a ∈ stops) (hs : ∀ a ∈ s.head?, a ∈ stops)
    (h : x ++ r = y ++ s) : x = y ∧ r = s := by
  have hfront : ∀ {z rest : List α}, (∀ a ∈ stops, a ∉ z) → (∀ a ∈ rest.head?, a ∈ stops) →
      (z ++ rest).takeWhile (fun a => !stops.contains a) = z := by
    intro z rest hz hrest
    refine takeWhile_append_stop (fun a ha => ?_) fun a ha => ?_
    · rw [Bool.not_eq_true', List.contains_eq_mem, decide_eq_false_iff_not]
      exact fun hstop => hz a hstop ha
    · rw [Bool.not_eq_false', List.contains_iff_mem]
      exact hrest a ha
  have heq : x = y := by
    rw [← hfront hx hr, h, hfront hy hs]
  subst heq
  exact ⟨rfl, List.append_cancel_left h⟩

/-- What stands in front of the first of some separators, and what stands behind it. -/
theorem append_cons_inj {α : Type} [DecidableEq α] {x y x' y' : List α} {a : α} (hx : a ∉ x)
    (hx' : a ∉ x') (h : x ++ a :: y = x' ++ a :: y') : x = x' ∧ y = y' := by
  have hstop : ∀ rest : List α, ∀ b ∈ (a :: rest).head?, b ∈ [a] := by
    rintro rest b ⟨⟩
    exact List.mem_singleton_self a
  obtain ⟨hfront, hbehind⟩ := append_inj_of_stops (List.forall_mem_singleton.mpr hx)
    (List.forall_mem_singleton.mpr hx') (hstop y) (hstop y') h
  exact ⟨hfront, (List.cons.inj hbehind).2⟩

/-- A key ends its type at the first colon. -/
theorem groupKey_eq_groupKey_iff {v w : Value} (hv : v.isSimple = true) (hw : w.isSimple = true) :
    v.groupKey = w.groupKey ↔ v.keyType = w.keyType ∧ v.keyText = w.keyText := by
  refine ⟨fun h => ?_, fun ⟨htype, htext⟩ => by rw [groupKey_eq hv, groupKey_eq hw, htype, htext]⟩
  rw [groupKey_eq hv, groupKey_eq hw] at h
  have hlist : v.keyType.toList ++ ':' :: v.keyText.toList =
      w.keyType.toList ++ ':' :: w.keyText.toList := by
    have htoList := congrArg String.toList h
    simpa using htoList
  obtain ⟨htype, htext⟩ := append_cons_inj v.colon_not_mem_keyType w.colon_not_mem_keyType hlist
  exact ⟨String.toList_inj.mp htype, String.toList_inj.mp htext⟩

/-- Outside exact numbers, a value is told by its type and its text. -/
theorem eq_of_display {v w : Value} (hv : v.isSimple = true) (hw : w.isSimple = true)
    (hvd : v.toDecimal? = none) (htype : v.typeName = w.typeName) (htext : v.display = w.display) :
    v = w := by
  have hlabel : ∀ {name : String}, v.typeName = name → w.typeName = name := fun h => htype ▸ h
  cases v with
  | integer | decimal => cases hvd
  | float | point | array | object => cases hv
  | null => cases w <;> first | rfl | exact absurd (hlabel rfl) (by simp [typeName])
  | boolean b =>
      cases w with
      | boolean b' =>
          simp only [display] at htext
          cases b <;> cases b' <;> first | rfl | exact absurd htext (by decide)
      | _ => exact absurd (hlabel rfl) (by simp [typeName])
  | uuid u =>
      cases w with
      | uuid u' =>
          simp only [display] at htext
          rw [Uuid.render_injective htext]
      | _ => exact absurd (hlabel rfl) (by simp [typeName])
  | date t =>
      cases w with
      | date t' =>
          simp only [display] at htext
          rw [Timestamp.eq_of_render (of_decide_eq_true hv) (of_decide_eq_true hw) htext]
      | _ => exact absurd (hlabel rfl) (by simp [typeName])
  | string s =>
      cases w with
      | string s' =>
          simp only [display] at htext
          rw [htext]
      | _ => exact absurd (hlabel rfl) (by simp [typeName])

theorem typeName_ne_n (v : Value) : v.typeName ≠ "n" := by
  cases v <;> simp [typeName]

theorem keyType_eq_n_iff (v : Value) : v.keyType = "n" ↔ v.toDecimal?.isSome = true := by
  unfold keyType
  split
  next h => exact iff_of_true rfl h
  next h => exact iff_of_false v.typeName_ne_n h

/-- Exact numbers have one key when they are one number. -/
theorem keyText_eq_iff {v w : Value} {x y : Decimal} (hv : v.toDecimal? = some x)
    (hw : w.toDecimal? = some y) : v.keyText = w.keyText ↔ x.toRat = y.toRat := by
  rw [keyText, keyText, hv, hw]
  exact Decimal.render_injective.eq_iff.trans Decimal.normalize_eq_iff

theorem coincides_iff_of_number {v w : Value} {x y : Decimal} (hv : v.toDecimal? = some x)
    (hw : w.toDecimal? = some y) : v.Coincides w ↔ x.toRat = y.toRat := by
  have hx : v.rational? = some x.toRat := congrArg (Option.map Decimal.toRat) hv
  have hy : w.rational? = some y.toRat := congrArg (Option.map Decimal.toRat) hw
  refine ⟨?_, fun h => .inr ⟨y.toRat, by rw [hx, h], hy⟩⟩
  rintro (rfl | ⟨z, hz, hz'⟩)
  · exact Option.some.inj (hx.symm.trans hy)
  · rw [Option.some.inj (hx.symm.trans hz), Option.some.inj (hy.symm.trans hz')]

/-- **What keys tell.** Two values have one key when they are the same, or exact numbers of one value. -/
theorem groupKey_eq_iff {v w : Value} (hv : v.isSimple = true) (hw : w.isSimple = true) :
    v.groupKey = w.groupKey ↔ v.Coincides w := by
  rw [groupKey_eq_groupKey_iff hv hw]
  cases hvd : v.toDecimal? with
  | some x =>
      have hvn : v.keyType = "n" := v.keyType_eq_n_iff.mpr (by rw [hvd]; rfl)
      cases hwd : w.toDecimal? with
      | some y =>
          have hwn : w.keyType = "n" := w.keyType_eq_n_iff.mpr (by rw [hwd]; rfl)
          rw [keyText_eq_iff hvd hwd, coincides_iff_of_number hvd hwd, hvn, hwn]
          exact and_iff_right rfl
      | none =>
          refine iff_of_false (fun ⟨htype, _⟩ => ?_) ?_
          · have hsome := w.keyType_eq_n_iff.mp (htype ▸ hvn)
            rw [hwd] at hsome
            cases hsome
          · rintro (rfl | ⟨z, -, hz⟩)
            · cases hvd.symm.trans hwd
            · rw [rational?, hwd] at hz
              cases hz
  | none =>
      refine ⟨fun ⟨htype, htext⟩ => .inl ?_, ?_⟩
      · have hwd : w.toDecimal? = none := by
          rw [← Option.not_isSome_iff_eq_none, ← keyType_eq_n_iff, ← htype, keyType_eq_n_iff, hvd]
          exact Bool.false_ne_true
        simp only [keyType, keyText, hvd, hwd, Option.isSome_none, Bool.false_eq_true, if_false]
          at htype htext
        exact eq_of_display hv hw hvd htype htext
      · rintro (rfl | ⟨z, hz, -⟩)
        · exact ⟨rfl, rfl⟩
        · rw [rational?, hvd] at hz
          cases hz

/-- An integer and a decimal have one key when they are one number. -/
theorem groupKey_integer_eq_groupKey_decimal_iff (n : Int64) (d : Decimal) :
    (integer n).groupKey = (decimal d).groupKey ↔ (n.toInt : ℚ) = d.toRat := by
  rw [groupKey_eq_iff rfl rfl, coincides_iff_of_number rfl rfl, Decimal.toRat_ofInt64]

/-- Two lists of values have one list of keys when they coincide, position by position. -/
theorem map_groupKey_eq_iff {vs ws : List Value} (hvs : ∀ v ∈ vs, v.isSimple = true)
    (hws : ∀ w ∈ ws, w.isSimple = true) :
    vs.map groupKey = ws.map groupKey ↔ List.Forall₂ Coincides vs ws := by
  induction vs generalizing ws with
  | nil => rw [List.map_nil, List.forall₂_nil_left_iff, eq_comm, List.map_eq_nil_iff]
  | cons v vs ih =>
      cases ws with
      | nil => simp
      | cons w ws =>
          obtain ⟨hv, hvs⟩ := List.forall_mem_cons.mp hvs
          obtain ⟨hw, hws⟩ := List.forall_mem_cons.mp hws
          rw [List.map_cons, List.map_cons, List.cons_eq_cons, groupKey_eq_iff hv hw, ih hvs hws,
            List.forall₂_cons]

end Value

end RecordQuery
