import RecordQuery.Proofs.Execution.Rows
import RecordQuery.Proofs.Sorting
import RecordQuery.Proofs.Value.Order
/-!
# The order of groups

`ORDER BY` puts the groups in the order of their keys: the first position in which two groups differ decides,
upwards or downwards as the order list says (`Precedes`), and groups that tie in every position stay in the
order in which they were (`Execute.ordered_is_lexicographic`).

Values of several types need not be in one line, so this asks of each position that the comparison is
transitive among the values that are there (`SortsTransitively`). Comparing the other way round needs
nothing of the kind (`compareKeys_swap`). Transitivity goes from the positions to the keys by induction on
the order list (`compareKeys_trans`), with what one position does in front of the others as its step
(`isLE_then`).
-/

namespace RecordQuery

/-- The order of two values under an order field. -/
def OrderField.compare (field : OrderField) (x y : Value) : Ordering :=
  if field.descending then (x.sortCompare y).swap else x.sortCompare y

theorem OrderField.compare_swap (field : OrderField) (x y : Value) :
    field.compare y x = (field.compare x y).swap := by
  unfold compare
  rw [Value.sortCompare_swap x y]
  split <;> rfl

theorem OrderField.compare_eq_iff {field : OrderField} {x y : Value} :
    field.compare x y = .eq ↔ x.sortCompare y = .eq := by
  unfold compare
  split
  · exact Ordering.swap_eq_eq
  · rfl

theorem OrderField.compare_lt_iff {field : OrderField} {x y : Value} :
    field.compare x y = .lt ↔ x.sortCompare y = if field.descending then .gt else .lt := by
  unfold compare
  split
  · exact Ordering.swap_eq_lt
  · rfl

namespace Execute

/-! ## Keys that come before others, and keys that tie -/

/-- `Precedes orderBy xs ys` holds when the keys `xs` come before `ys`: in the first position in which they
differ, they are less, or greater where the order goes downwards. -/
inductive Precedes : List OrderField → List Value → List Value → Prop where
  | here {field : OrderField} {fields : List OrderField} {x y : Value} {xs ys : List Value}
      (h : x.sortCompare y = if field.descending then .gt else .lt) :
      Precedes (field :: fields) (x :: xs) (y :: ys)
  | later {field : OrderField} {fields : List OrderField} {x y : Value} {xs ys : List Value}
      (h : x.sortCompare y = .eq) (hrest : Precedes fields xs ys) :
      Precedes (field :: fields) (x :: xs) (y :: ys)

/-- `ties xs ys` holds when the keys are equal in every position. -/
def ties : List Value → List Value → Bool
  | x :: xs, y :: ys => x.sortCompare y == .eq && ties xs ys
  | _, _ => true

variable {fields : List OrderField} {xs ys zs : List Value}

theorem compareKeys_cons (field : OrderField) (fields : List OrderField) (x y : Value)
    (xs ys : List Value) : compareKeys (field :: fields) (x :: xs) (y :: ys) =
      (field.compare x y).then (compareKeys fields xs ys) := by
  show (if field.compare x y = .eq then compareKeys fields xs ys else field.compare x y) = _
  cases field.compare x y <;> rfl

theorem compareKeys_lt_iff : compareKeys fields xs ys = .lt ↔ Precedes fields xs ys := by
  induction fields generalizing xs ys with
  | nil => constructor <;> rintro ⟨⟩
  | cons field fields ih =>
      match xs, ys with
      | [], _ => constructor <;> rintro ⟨⟩
      | _ :: _, [] => constructor <;> rintro ⟨⟩
      | x :: xs, y :: ys =>
          rw [compareKeys_cons, Ordering.then_eq_lt, OrderField.compare_lt_iff,
            OrderField.compare_eq_iff, ih]
          constructor
          · rintro (h | ⟨h, hrest⟩)
            · exact .here h
            · exact .later h hrest
          · rintro (h | ⟨h, hrest⟩)
            · exact .inl h
            · exact .inr ⟨h, hrest⟩

theorem compareKeys_eq_iff (hxs : xs.length = fields.length) :
    compareKeys fields xs ys = .eq ↔ ties xs ys = true := by
  induction fields generalizing xs ys with
  | nil =>
      obtain rfl := List.length_eq_zero_iff.mp hxs
      exact ⟨fun _ => rfl, fun _ => rfl⟩
  | cons field fields ih =>
      match xs, ys with
      | x :: xs, [] => exact ⟨fun _ => rfl, fun _ => rfl⟩
      | x :: xs, y :: ys =>
          rw [compareKeys_cons, Ordering.then_eq_eq, OrderField.compare_eq_iff,
            ih (Nat.succ.inj hxs), ties, Bool.and_eq_true, beq_iff_eq]

theorem compareKeys_swap (fields : List OrderField) (xs ys : List Value) :
    compareKeys fields ys xs = (compareKeys fields xs ys).swap := by
  induction fields generalizing xs ys with
  | nil => rfl
  | cons field fields ih =>
      match xs, ys with
      | [], [] => rfl
      | [], _ :: _ => rfl
      | _ :: _, [] => rfl
      | x :: xs, y :: ys =>
          rw [compareKeys_cons, compareKeys_cons, Ordering.swap_then, field.compare_swap x y, ih xs ys]

/-! ## Transitivity -/

/-- `SortsTransitively vs` holds when, of the values of a list, what is at most a second one is at most
each that the second is at most. -/
def SortsTransitively (vs : List Value) : Prop :=
  ∀ a ∈ vs, ∀ b ∈ vs, ∀ d ∈ vs,
    (a.sortCompare b).isLE = true → (b.sortCompare d).isLE = true → (a.sortCompare d).isLE = true

instance (vs : List Value) : Decidable (SortsTransitively vs) :=
  inferInstanceAs (Decidable (∀ a ∈ vs, ∀ b ∈ vs, ∀ d ∈ vs, _ → _ → _))

/-- Values that are in one line upwards are so downwards. -/
theorem SortsTransitively.compare {vs : List Value} (h : SortsTransitively vs) (field : OrderField)
    {x y z : Value} (hx : x ∈ vs) (hy : y ∈ vs) (hz : z ∈ vs) (hxy : (field.compare x y).isLE = true)
    (hyz : (field.compare y z).isLE = true) : (field.compare x z).isLE = true := by
  unfold OrderField.compare at hxy hyz ⊢
  split at hxy
  next hdown =>
    rw [if_pos hdown, ← Value.sortCompare_swap] at hyz ⊢
    rw [← Value.sortCompare_swap] at hxy
    exact h z hz y hy x hx hyz hxy
  next hup =>
    rw [if_neg hup] at hyz ⊢
    exact h x hx y hy z hz hxy hyz

/-- A position in front of others: `o`, `p` and `q` compare a first item with a second, the second with a
third and the first with the third, and so do `o'`, `p'` and `q'` behind. -/
theorem isLE_then {o p q o' p' q' : Ordering} (htrans : o.isLE → p.isLE → q.isLE)
    (hback : q.swap.isLE → o.isLE → p.swap.isLE) (hback' : p.isLE → q.swap.isLE → o.swap.isLE)
    (hrest : o'.isLE → p'.isLE → q'.isLE) (ho : (o.then o').isLE) (hp : (p.then p').isLE) :
    (q.then q').isLE := by
  rw [Ordering.isLE_then_iff_and] at ho hp ⊢
  have hq := htrans ho.1 hp.1
  refine ⟨hq, ?_⟩
  cases q with
  | gt => cases hq
  | lt => exact .inl rfl
  | eq =>
      -- the first is not less than the third, so neither step is a strict one
      have hpeq := hback rfl ho.1
      have hoeq := hback' hp.1 rfl
      have ho' : o'.isLE := ho.2.resolve_left (by rintro rfl; cases hoeq)
      have hp' : p'.isLE := hp.2.resolve_left (by rintro rfl; cases hpeq)
      exact .inr (hrest ho' hp')

/-- The values that lists of keys have in one position. -/
def column (keys : List (List Value)) (i : Nat) : List Value :=
  keys.filterMap fun ks => ks[i]?

theorem column_tail (keys : List (List Value)) (i : Nat) :
    column (keys.map List.tail) i = column keys (i + 1) := by
  unfold column
  rw [List.filterMap_map]
  refine List.filterMap_congr fun ks _ => ?_
  exact List.getElem?_tail

/-- Keys are in one line when the values of each position are. -/
theorem compareKeys_trans {keys : List (List Value)}
    (h : ∀ i < fields.length, SortsTransitively (column keys i))
    (hx : xs ∈ keys) (hy : ys ∈ keys) (hz : zs ∈ keys) (hxs : xs.length = fields.length)
    (hys : ys.length = fields.length) (hzs : zs.length = fields.length)
    (hxy : (compareKeys fields xs ys).isLE = true) (hyz : (compareKeys fields ys zs).isLE = true) :
    (compareKeys fields xs zs).isLE = true := by
  induction fields generalizing keys xs ys zs with
  | nil => rfl
  | cons field fields ih =>
      match xs, ys, zs with
      | x :: xs, y :: ys, z :: zs =>
          rw [compareKeys_cons] at hxy hyz ⊢
          have hfirst := h 0 (Nat.zero_lt_succ _)
          have hxcol : x ∈ column keys 0 := List.mem_filterMap.mpr ⟨_, hx, rfl⟩
          have hycol : y ∈ column keys 0 := List.mem_filterMap.mpr ⟨_, hy, rfl⟩
          have hzcol : z ∈ column keys 0 := List.mem_filterMap.mpr ⟨_, hz, rfl⟩
          refine isLE_then (hfirst.compare field hxcol hycol hzcol) ?_ ?_ ?_ hxy hyz
          · rw [← field.compare_swap, ← field.compare_swap]
            exact hfirst.compare field hzcol hxcol hycol
          · rw [← field.compare_swap, ← field.compare_swap]
            exact hfirst.compare field hycol hzcol hxcol
          · have hrest : ∀ i < fields.length, SortsTransitively (column (keys.map List.tail) i) := by
              intro i hi
              rw [column_tail]
              exact h (i + 1) (Nat.succ_lt_succ hi)
            apply ih hrest
            · exact List.mem_map.mpr ⟨_, hx, rfl⟩
            · exact List.mem_map.mpr ⟨_, hy, rfl⟩
            · exact List.mem_map.mpr ⟨_, hz, rfl⟩
            · exact Nat.succ.inj hxs
            · exact Nat.succ.inj hys
            · exact Nat.succ.inj hzs

/-! ## The keys of groups -/

variable {R : Type}

/-- The keys by which a group is ordered, if all of them can be evaluated. -/
def Conditions.keysOf (c : Conditions R) (orderBy : List OrderField) (group : Group R) : List Value :=
  match orderKeys c orderBy group with
  | .ok keys => keys
  | .error _ => []

/-- `c.HasKeys orderBy group` holds when evaluating the keys of the group ends in no error. -/
def Conditions.HasKeys (c : Conditions R) (orderBy : List OrderField) (group : Group R) : Prop :=
  ∃ keys, orderKeys c orderBy group = .ok keys

/-- `c.tie orderBy g h` holds when two groups have equal keys in every position. -/
def Conditions.tie (c : Conditions R) (orderBy : List OrderField) (g h : Group R) : Bool :=
  ties (c.keysOf orderBy g) (c.keysOf orderBy h)

variable {c : Conditions R} {orderBy : List OrderField} {group : Group R} {groups : List (Group R)}

instance : Decidable (c.HasKeys orderBy group) :=
  match h : orderKeys c orderBy group with
  | .ok keys => .isTrue ⟨keys, h⟩
  | .error _ => .isFalse fun ⟨_, hkeys⟩ => by cases h.symm.trans hkeys

theorem Conditions.keysOf_of_ok {keys : List Value} (h : orderKeys c orderBy group = .ok keys) :
    c.keysOf orderBy group = keys := by
  rw [keysOf, h]

theorem length_of_evalAll {ctx : Context R} {es : List Expr} {vs : List Value}
    (h : Expr.evalAll ctx es = .ok vs) : vs.length = es.length := by
  induction es generalizing vs with
  | nil =>
      cases h
      rfl
  | cons e es ih =>
      rw [Expr.evalAll] at h
      obtain ⟨v, -, h⟩ := bind_ok_iff.mp h
      obtain ⟨others, hothers, h⟩ := bind_ok_iff.mp h
      obtain rfl := pure_ok_iff.mp h
      exact congrArg (· + 1) (ih hothers)

theorem Conditions.HasKeys.length (h : c.HasKeys orderBy group) :
    (c.keysOf orderBy group).length = orderBy.length := by
  obtain ⟨keys, hkeys⟩ := h
  rw [keysOf_of_ok hkeys, length_of_evalAll hkeys, List.length_map]

/-! ## Sorted groups -/

/-- The order of two groups by their keys. -/
def Conditions.compare (c : Conditions R) (orderBy : List OrderField) (g h : Group R) : Ordering :=
  compareKeys orderBy (c.keysOf orderBy g) (c.keysOf orderBy h)

theorem Conditions.compare_swap (c : Conditions R) (orderBy : List OrderField) (g h : Group R) :
    c.compare orderBy h g = (c.compare orderBy g h).swap :=
  compareKeys_swap orderBy _ _

/-- `c.before orderBy g h` is the test by which groups are sorted. -/
def Conditions.before (c : Conditions R) (orderBy : List OrderField) (g h : Group R) : Bool :=
  c.compare orderBy g h == .lt

theorem Conditions.before_eq_false_iff {g h : Group R} :
    c.before orderBy g h = false ↔ (c.compare orderBy h g).isLE = true := by
  rw [before, beq_eq_false_iff_ne, c.compare_swap orderBy g h]
  cases c.compare orderBy g h <;> decide

/-- The groups are sorted by their keys; without an order list no group is before another. -/
theorem ordered_eq (h : ∀ g ∈ groups, c.HasKeys orderBy g) :
    ordered c orderBy groups = .ok (Sorting.sort (c.before orderBy) groups) := by
  cases orderBy with
  | nil =>
      have hstays : Sorting.sort (c.before []) groups = groups :=
        Sorting.sort_eq_self fun _ _ _ _ => rfl
      rw [hstays]
      rfl
  | cons field fields =>
      have hkeys : groups.mapM (orderKeys c (field :: fields)) =
          .ok (groups.map (c.keysOf (field :: fields))) :=
        (mapM_ok_iff_map fun _ _ => Conditions.keysOf_of_ok).mpr ⟨h, rfl⟩
      refine bind_ok_iff.mpr ⟨_, hkeys, congrArg Except.ok ?_⟩
      rw [← List.map_prod_right_eq_zip, Sorting.sort_map, List.map_map]
      exact List.map_id _

section

variable (hkeys : ∀ g ∈ groups, c.HasKeys orderBy g)
  (htrans : ∀ i < orderBy.length, SortsTransitively (column (groups.map (c.keysOf orderBy)) i))

include hkeys htrans

theorem compare_trans {f g h : Group R} (hf : f ∈ groups) (hg : g ∈ groups) (hh : h ∈ groups)
    (hfg : (c.compare orderBy f g).isLE = true) (hgh : (c.compare orderBy g h).isLE = true) :
    (c.compare orderBy f h).isLE = true :=
  compareKeys_trans htrans (List.mem_map_of_mem hf) (List.mem_map_of_mem hg) (List.mem_map_of_mem hh)
    (hkeys f hf).length (hkeys g hg).length (hkeys h hh).length hfg hgh

/-- Groups are ranked by their keys where these are in one line. -/
theorem ranks_before : Sorting.Ranks (c.before orderBy) groups where
  asymm g _ h _ hgh := by
    rw [Conditions.before_eq_false_iff, beq_iff_eq.mp hgh]
    rfl
  trans f hf g hg h hh hfg hgh := by
    rw [Conditions.before_eq_false_iff] at hfg hgh ⊢
    exact compare_trans hkeys htrans hh hg hf hgh hfg

end

/-- **The order is lexicographic and stable.** Where the keys of the groups are in one line, position by
position, the ordered groups are those that there were; of any two the one in front has the lesser keys, or
the two tie; and those that tie with a group are in the order in which they were. -/
theorem ordered_is_lexicographic (hkeys : ∀ g ∈ groups, c.HasKeys orderBy g)
    (htrans : ∀ i < orderBy.length, SortsTransitively (column (groups.map (c.keysOf orderBy)) i)) :
    ∃ out, ordered c orderBy groups = .ok out ∧ out.Perm groups ∧
      out.Pairwise (fun g h => Precedes orderBy (c.keysOf orderBy g) (c.keysOf orderBy h) ∨
        c.tie orderBy g h = true) ∧
      ∀ g ∈ groups, out.filter (c.tie orderBy g) = groups.filter (c.tie orderBy g) := by
  have hperm := Sorting.sort_perm (c.before orderBy) groups
  have htie : ∀ g ∈ groups, ∀ h, c.compare orderBy g h = .eq ↔ c.tie orderBy g h = true :=
    fun g hg h => compareKeys_eq_iff (hkeys g hg).length
  refine ⟨_, ordered_eq hkeys, hperm, ?_, fun g hg => ?_⟩
  · refine (Sorting.sort_pairwise (ranks_before hkeys htrans)).imp_of_mem fun {g h} hg _ hgh => ?_
    rw [← compareKeys_lt_iff, ← htie g (hperm.subset hg)]
    exact Ordering.isLE_iff_eq_lt_or_eq_eq.mp (Conditions.before_eq_false_iff.mp hgh)
  · refine Sorting.sort_filter fun a ha b hb hga hgb => ?_
    -- neither of two groups that tie with a third is before the other
    rw [← htie g hg] at hga hgb
    have hbg : (c.compare orderBy b g).isLE = true := by
      rw [c.compare_swap orderBy g b, hgb]
      rfl
    have hga' : (c.compare orderBy g a).isLE = true := by
      rw [hga]
      rfl
    exact Conditions.before_eq_false_iff.mpr (compare_trans hkeys htrans hb hg ha hbg hga')

/-- Numbers of two forms tie, null is last downwards, and groups with equal keys stay in their order. -/
theorem ordered_is_lexicographic_of_ties :
    let c : Conditions Value := ⟨.ofObjects, .default, []⟩
    let two : Value := .decimal ⟨false, 20, 1, by decide, by decide⟩
    let record (id a b : Value) : Group Value :=
      [[⟨"t", some (.object [("a", a), ("b", b), ("id", id)])⟩]]
    let groups := [record (.string "p") .null (.string "x"), record (.string "q") two (.string "y"),
      record (.string "r") (.integer 2) (.string "x"), record (.string "s") two (.string "x"),
      record (.string "t") (.integer 5) (.string "z"), record (.string "u") (.integer 2) (.string "y")]
    ∃ q out, Query.compile "SELECT id FROM t ORDER BY a DESC, b" = .ok q ∧
      ordered c q.orderBy groups = .ok out ∧
      out.flatten.map (fun row => (c.rowAccessor.get row "id").toOption.map Value.display) =
        [some "t", some "r", some "s", some "q", some "u", some "p"] ∧
      out.Perm groups ∧
      out.Pairwise (fun g h => Precedes q.orderBy (c.keysOf q.orderBy g) (c.keysOf q.orderBy h) ∨
        c.tie q.orderBy g h = true) ∧
      ∀ g ∈ groups, out.filter (c.tie q.orderBy g) = groups.filter (c.tie q.orderBy g) := by
  intro c two record groups
  have hcheck : passes (fun q => decide ((∀ g ∈ groups, c.HasKeys q.orderBy g) ∧
        ∀ i < q.orderBy.length, SortsTransitively (column (groups.map (c.keysOf q.orderBy)) i)) &&
      passes (fun out : List (Group Value) => decide
        (out.flatten.map (fun row => (c.rowAccessor.get row "id").toOption.map Value.display) =
          [some "t", some "r", some "s", some "q", some "u", some "p"])) (ordered c q.orderBy groups))
      (Query.compile "SELECT id FROM t ORDER BY a DESC, b") = true := by
    decide +kernel
  simp only [passes_iff, Bool.and_eq_true, decide_eq_true_eq] at hcheck
  obtain ⟨q, hq, ⟨hkeys, htrans⟩, out, hout, hids⟩ := hcheck
  obtain ⟨out', hout', hperm, hsorted, hstable⟩ := ordered_is_lexicographic hkeys htrans
  obtain rfl := Except.ok.inj (hout.symm.trans hout')
  exact ⟨q, out, hq, hout, hids, hperm, hsorted, hstable⟩

end Execute

end RecordQuery
