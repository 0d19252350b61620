import RecordQuery.Predicate.Compare
import RecordQuery.Proofs.Value.Collections
import RecordQuery.Proofs.Value.Order
/-!
# Comparing from both sides

Equality of values looks at its left side first: it walks through the fields of the object on the left and
finds each of them in the object on the right. The two sides can change places all the same
(`Value.WellKeyed.agrees_comm`). Two objects with as many fields have the same keys when those of the one are
all among those of the other, for each key is there once; so what the walk does not visit is visited from the
other side. The induction is on the left value, with the right one arbitrary.

With what compares in opposite order from the other side, every operator has its mirror
(`comparing_is_symmetric`).
-/

namespace RecordQuery

theorem Decimal.sameValue_comm (d e : Decimal) : d.sameValue e = e.sameValue d := by
  rw [sameValue, sameValue, compare_swap d e]
  cases d.compare e <;> rfl

theorem Point.sameValue_comm (p q : Point) : p.sameValue q = q.sameValue p := by
  rw [sameValue, sameValue, p.x.sameValue_comm, p.y.sameValue_comm]

namespace Value

variable {a b : Value}

/-! ## Collections -/

theorem agreeItems_comm {vs ws : List Value} (h : ∀ v ∈ vs, ∀ w, w ∈ ws → v.agrees w = w.agrees v) :
    agreeItems vs ws = agreeItems ws vs := by
  induction vs generalizing ws with
  | nil => cases ws <;> simp [agreeItems]
  | cons v vs ih =>
      cases ws with
      | nil => simp [agreeItems]
      | cons w ws =>
          have hfirst := h v List.mem_cons_self w List.mem_cons_self
          have hrest := ih fun v hv w hw => h v (List.mem_cons_of_mem _ hv) w (List.mem_cons_of_mem _ hw)
          rw [agreeItems, agreeItems, hfirst, hrest]

/-- Objects with as many fields have the same keys when those of one are all found in the other. -/
theorem keys_subset {a b : List (String × Value)} (ha : (a.map Prod.fst).Pairwise (· < ·))
    (hlength : a.length = b.length) (h : agreeFields a b = true) :
    b.map Prod.fst ⊆ a.map Prod.fst := by
  have hsub : a.map Prod.fst ⊆ b.map Prod.fst := by
    intro key hkey
    obtain ⟨field, hfield, rfl⟩ := List.mem_map.mp hkey
    obtain ⟨w, hw, -⟩ := agreeFields_iff.mp h field hfield
    exact List.mem_map.mpr ⟨_, mem_of_field? hw, rfl⟩
  have hperm : (a.map Prod.fst).Perm (b.map Prod.fst) := by
    refine (List.subperm_of_subset (nodup_of_pairwise ha) hsub).perm_of_length_le (Nat.le_of_eq ?_)
    rw [List.length_map, List.length_map, hlength]
  exact hperm.symm.subset

theorem agreeFields_symm {a b : List (String × Value)} (ha : (a.map Prod.fst).Pairwise (· < ·))
    (hb : (b.map Prod.fst).Pairwise (· < ·)) (hlength : a.length = b.length)
    (hcomm : ∀ f ∈ a, ∀ g ∈ b, f.2.agrees g.2 = g.2.agrees f.2) (h : agreeFields a b = true) :
    agreeFields b a = true := by
  refine agreeFields_iff.mpr fun g hg => ?_
  obtain ⟨f, hf, hkey⟩ := List.mem_map.mp (keys_subset ha hlength h (List.mem_map_of_mem hg))
  obtain ⟨w, hw, hagrees⟩ := agreeFields_iff.mp h f hf
  -- the field on the right that was found for `f` is `g`, for there is no other with its key
  have hfound : field? b f.1 = some g.2 := hkey ▸ field?_of_mem hb hg
  obtain rfl := Option.some.inj (hfound.symm.trans hw)
  exact ⟨f.2, hkey ▸ field?_of_mem ha hf, hcomm f hf g hg ▸ hagrees⟩

/-! ## Equality -/

/-- Outside collections and points, values agree when they compare as equal, which they do from both sides. -/
theorem agrees_comm_of_compare (hab : a.agrees b = (a.compare? b == some .eq))
    (hba : b.agrees a = (b.compare? a == some .eq)) : a.agrees b = b.agrees a := by
  rw [hab, hba, compare?_swap a b]
  cases a.compare? b with
  | none => rfl
  | some ordering => cases ordering <;> rfl

theorem agrees_comm_of_scalar (h : a.isCollection = false) (b : Value) : a.agrees b = b.agrees a := by
  cases a <;> cases b
  case point.point p q => exact p.sameValue_comm q
  case point.string => rfl
  case string.point => rfl
  case array.array | array.object | object.array | object.object => cases h
  all_goals exact agrees_comm_of_compare rfl rfl

/-- **Equality is symmetric**, at any depth. -/
theorem WellKeyed.agrees_comm (ha : a.WellKeyed) (hb : b.WellKeyed) : a.agrees b = b.agrees a := by
  induction ha generalizing b with
  | scalar h => exact agrees_comm_of_scalar h b
  | array _ ih =>
      cases hb with
      | scalar h => exact (agrees_comm_of_scalar h _).symm
      | object => rfl
      | array hws =>
          rw [agrees_array, agrees_array]
          exact agreeItems_comm fun v hv w hw => ih v hv (hws w hw)
  | object hkeys _ ih =>
      cases hb with
      | scalar h => exact (agrees_comm_of_scalar h _).symm
      | array => rfl
      | object hkeys' hws =>
          have hcomm := fun f hf g hg => ih f hf (hws g hg)
          rw [agrees_object, agrees_object, Bool.eq_iff_iff, Bool.and_eq_true, Bool.and_eq_true, beq_iff_eq,
            beq_iff_eq]
          constructor
          · rintro ⟨hlength, h⟩
            exact ⟨hlength.symm, agreeFields_symm hkeys hkeys' hlength hcomm h⟩
          · rintro ⟨hlength, h⟩
            exact ⟨hlength.symm, agreeFields_symm hkeys' hkeys hlength
              (fun g hg f hf => (hcomm f hf g hg).symm) h⟩

end Value

/-! ## Operators -/

/-- Equality of values is what `=` asks for, of nulls too. -/
theorem compareValues_equal (v w : Value) : compareValues .equal v w = v.agrees w := by
  cases v with
  | null => cases w <;> rfl
  | _ => cases w <;> rfl

/-- What holds of the order of two values holds of the opposite order from the other side. -/
theorem any_compare?_swap (a b : Value) {holds holds' : Ordering → Bool}
    (h : ∀ ordering, holds ordering = holds' ordering.swap) :
    (!(a.isNull || b.isNull) && (a.compare? b).any holds) =
      (!(b.isNull || a.isNull) && (b.compare? a).any holds') := by
  rw [Bool.or_comm, Value.compare?_swap a b]
  cases a.compare? b with
  | none => rfl
  | some ordering => exact congrArg _ (h ordering)

theorem compareValues_less_swap (a b : Value) : compareValues .less a b = compareValues .greater b a :=
  any_compare?_swap a b fun ordering => by cases ordering <;> rfl

theorem compareValues_lessEqual_swap (a b : Value) :
    compareValues .lessEqual a b = compareValues .greaterEqual b a :=
  any_compare?_swap a b fun ordering => by cases ordering <;> rfl

/-- Of two values that are not null, what is not equal differs. -/
theorem compareValues_notEqual {a b : Value} (ha : a.isNull = false) (hb : b.isNull = false) :
    compareValues .notEqual a b = !compareValues .equal a b := by
  rw [compareValues_equal]
  show (!a.isNull && (b.isNull || !a.agrees b)) = _
  rw [ha, hb, Bool.not_false, Bool.true_and, Bool.false_or]

/-- **Comparing is symmetric.** Values agree from both sides, at any depth; what has an order has the opposite
one from the other side, and is sorted so too. So `=` holds from both sides or from neither, `<` and `<=` hold
when `>` and `>=` do from the other side, and of two values that are not null either `=` holds or `!=` and `<>`
do. -/
theorem comparing_is_symmetric (a b : Value) :
    (a.WellKeyed → b.WellKeyed → a.agrees b = b.agrees a ∧
      compareValues .equal a b = compareValues .equal b a) ∧
    b.compare? a = (a.compare? b).map Ordering.swap ∧
    (a.compare? b = none ↔ b.compare? a = none) ∧
    b.sortCompare a = (a.sortCompare b).swap ∧
    compareValues .less a b = compareValues .greater b a ∧
    compareValues .lessEqual a b = compareValues .greaterEqual b a ∧
    (a.isNull = false → b.isNull = false →
      compareValues .notEqual a b = !compareValues .equal a b ∧
      compareValues .distinct a b = !compareValues .equal a b) := by
  refine ⟨fun ha hb => ?_, Value.compare?_swap a b, ?_, Value.sortCompare_swap a b,
    compareValues_less_swap a b, compareValues_lessEqual_swap a b, fun ha hb => ?_⟩
  · rw [compareValues_equal, compareValues_equal]
    exact ⟨ha.agrees_comm hb, ha.agrees_comm hb⟩
  · rw [Value.compare?_swap a b, Option.map_eq_none_iff]
  · exact ⟨compareValues_notEqual ha hb, compareValues_notEqual ha hb⟩

/-- Objects that agree through numbers of two forms and a text that is read as a boolean. -/
theorem comparing_is_symmetric_of_nested :
    let two : Decimal := ⟨false, 20, 1, by decide, by decide⟩
    let a : Value := .object [("p", .array [.null, .decimal two]), ("q", .object [("r", .boolean true)])]
    let b : Value := .object [("p", .array [.null, .integer 2]), ("q", .object [("r", .string "TRUE")])]
    a.WellKeyed ∧ b.WellKeyed ∧ a.agrees b = true ∧ b.agrees a = true ∧
      compareValues .equal b a = true ∧ compareValues .notEqual a b = false := by
  intro two a b
  have hkeyed : ∀ v w : Value, v.isCollection = false → w.isCollection = false →
      Value.WellKeyed (.object [("p", .array [.null, v]), ("q", .object [("r", w)])]) := by
    intro v w hv hw
    have hp : (Value.array [.null, v]).WellKeyed :=
      .array (List.forall_mem_cons.mpr ⟨.scalar rfl, List.forall_mem_singleton.mpr (.scalar hv)⟩)
    have hq : (Value.object [("r", w)]).WellKeyed :=
      .object (List.pairwise_singleton _ _) (List.forall_mem_singleton.mpr (.scalar hw))
    have hkeys : ["p", "q"].Pairwise (· < ·) := by decide
    exact .object hkeys (List.forall_mem_cons.mpr ⟨hp, List.forall_mem_singleton.mpr hq⟩)
  have ha : a.WellKeyed := hkeyed _ _ rfl rfl
  have hb : b.WellKeyed := hkeyed _ _ rfl rfl
  obtain ⟨hequal, -, -, -, -, -, hdiffers⟩ := comparing_is_symmetric a b
  obtain ⟨hagrees, hequal⟩ := hequal ha hb
  have hab : a.agrees b = true := by decide +kernel
  rw [compareValues_equal, hab] at hequal
  refine ⟨ha, hb, hab, hagrees ▸ hab, hequal.symm, ?_⟩
  rw [(hdiffers rfl rfl).1, compareValues_equal, hab, Bool.not_true]

end RecordQuery
