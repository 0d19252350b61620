import RecordQuery.Proofs.Execution.Ordering
import RecordQuery.Proofs.Value.Keys
/-!
# Values that are in one line

Sorting ranks values of two types by their types and values of one type by what they are. Each of the two
is transitive; what breaks the line is a comparison that goes past the ranks. A text is compared with a
boolean, an identifier or a timestamp by what it can be read as, so `"a"` is before `true` although texts
come after numbers and booleans before them, and `"a"`, `true`, `5` go in a circle
(`Value.sortCompare_circle`). An exact number is compared with a binary one after rounding, which can tie two
exact numbers with a binary one between them.

`Value.Coherent` says of a list of values that neither happens among them. The values of a coherent list are
in one line (`Value.sortCompare_total_preorder`): if one of two numbers is binary their keys decide, and else
what they are as rationals. Without texts and binary numbers every list is coherent (`Value.Coherent.of_plain`).
-/

namespace RecordQuery

namespace Value

/-! ## What is compared -/

/-- The binary number that a value is, if it is one. -/
def binary? : Value → Option Float
  | .float x => some x
  | _ => none

/-- The place of a number among the binary numbers, after rounding if it is exact. -/
def binaryKey? (v : Value) : Option Int :=
  v.toFloat?.bind Binary64.orderKey

/-- A list of values whose sorting is not upset by what sorting does not compare type by type. -/
structure Coherent (vs : List Value) : Prop where
  /-- values of two types are in the order of the types, also where a text is read as one of them -/
  ranked : ∀ a ∈ vs, ∀ b ∈ vs, a.sortRank < b.sortRank → a.sortCompare b = .lt
  /-- every binary number has a place -/
  placed : ∀ b ∈ vs, ∀ x ∈ b.binary?, (Binary64.orderKey x).isSome = true
  /-- two exact numbers with a binary one between them keep their order when they are rounded -/
  rounded : ∀ a ∈ vs, ∀ c ∈ vs, ∀ d ∈ a.toDecimal?, ∀ e ∈ c.toDecimal?, ∀ b ∈ vs, ∀ x ∈ b.binary?,
    Binary64.compare? d.toFloat x ≠ some .gt → Binary64.compare? x e.toFloat ≠ some .gt →
      Binary64.compare? d.toFloat e.toFloat = some (d.compare e)

-- the six quantifiers of the last condition take a longer search for their instances
set_option synthInstance.maxSize 512 in
instance (vs : List Value) : Decidable (Coherent vs) :=
  decidable_of_iff (_ ∧ _ ∧ _) ⟨fun h => ⟨h.1, h.2.1, h.2.2⟩, fun h => ⟨h.1, h.2, h.3⟩⟩

variable {vs : List Value} {a b c : Value} {d e : Decimal} {x : Float} {i j k : Int}

/-! ## Numbers in one line -/

theorem exact_or_binary (h : a.isNumber = true) :
    (∃ d, a.toDecimal? = some d) ∨ (a.toDecimal? = none ∧ ∃ x, a.binary? = some x) := by
  cases a with
  | integer n => exact .inl ⟨_, rfl⟩
  | decimal d => exact .inl ⟨_, rfl⟩
  | float x => exact .inr ⟨rfl, _, rfl⟩
  | _ => cases h

theorem toFloat?_of_exact (h : a.toDecimal? = some d) : a.toFloat? = some d.toFloat := by
  cases a <;> cases h <;> rfl

theorem eq_of_binary? (h : a.binary? = some x) : a = .float x := by
  cases a <;> cases h
  rfl

theorem compare?_of_numbers (ha : a.isNumber = true) (hb : b.isNumber = true) :
    compare? a b = compareNumbers? a b := by
  cases a <;> cases ha <;> cases b <;> cases hb <;> rfl

theorem isNumber_of_exact (h : a.toDecimal? = some d) : a.isNumber = true := by
  cases a <;> cases h <;> rfl

/-- Exact numbers are sorted by what they are. -/
theorem sortCompare_exact (hd : a.toDecimal? = some d) (he : b.toDecimal? = some e) :
    a.sortCompare b = d.compare e := by
  rw [sortCompare, compare?_of_numbers (isNumber_of_exact hd) (isNumber_of_exact he),
    compareNumbers?_eq, hd, he]
  rfl

/-- Numbers of which one is binary are sorted by their places among the binary numbers. -/
theorem sortCompare_binary (ha : a.isNumber = true) (hb : b.isNumber = true)
    (hbinary : a.toDecimal? = none ∨ b.toDecimal? = none)
    (hi : a.binaryKey? = some i) (hj : b.binaryKey? = some j) :
    a.sortCompare b = Ord.compare i j := by
  obtain ⟨x, hx, hi⟩ := Option.bind_eq_some_iff.mp hi
  obtain ⟨y, hy, hj⟩ := Option.bind_eq_some_iff.mp hj
  have hkeys : Binary64.compare? x y = some (Ord.compare i j) := by
    rw [Binary64.compare?, hi, hj]
  have hnumbers : compareNumbers? a b = some (Ord.compare i j) := by
    rw [compareNumbers?_eq, hx, hy]
    rcases hbinary with hnone | hnone
    · rw [hnone]
      exact hkeys
    · rw [hnone]
      cases a.toDecimal? <;> exact hkeys
  rw [sortCompare, compare?_of_numbers ha hb, hnumbers]
  rfl

theorem Coherent.binaryKey?_of_binary (h : Coherent vs) (hb : b ∈ vs) (hx : b.binary? = some x) :
    ∃ i, b.binaryKey? = some i := by
  obtain ⟨i, hi⟩ := Option.isSome_iff_exists.mp (h.placed b hb x hx)
  obtain rfl := eq_of_binary? hx
  exact ⟨i, hi⟩

/-- Where there is a binary number, every number has a place: rounding an exact one would not keep its order
with itself if the result had none. -/
theorem Coherent.exists_binaryKey? (h : Coherent vs) (hb : b ∈ vs) (hx : b.binary? = some x) (ha : a ∈ vs)
    (hnumber : a.isNumber = true) : ∃ i, a.binaryKey? = some i := by
  obtain ⟨d, hd⟩ | ⟨-, y, hy⟩ := exact_or_binary hnumber
  · rw [binaryKey?, toFloat?_of_exact hd]
    show ∃ i, Binary64.orderKey d.toFloat = some i
    cases hkey : Binary64.orderKey d.toFloat with
    | some i => exact ⟨i, rfl⟩
    | none =>
        have hleft : ∀ y, Binary64.compare? d.toFloat y = none := by
          intro y
          rw [Binary64.compare?, hkey]
        have hright : Binary64.compare? x d.toFloat = none := by
          rw [Binary64.compare?_swap, hleft]
          rfl
        have hself := h.rounded a ha a ha d hd d hd b hb x hx (by simp [hleft]) (by simp [hright])
        rw [hleft] at hself
        cases hself
  · exact h.binaryKey?_of_binary ha hy

/-- Exact numbers with a binary one between them have the order of their places. -/
theorem Coherent.compare_exact (h : Coherent vs) (ha : a ∈ vs) (hb : b ∈ vs) (hc : c ∈ vs)
    (hd : a.toDecimal? = some d) (hx : b.binary? = some x) (he : c.toDecimal? = some e)
    (hi : a.binaryKey? = some i) (hj : b.binaryKey? = some j) (hk : c.binaryKey? = some k)
    (hij : i ≤ j) (hjk : j ≤ k) : d.compare e = Ord.compare i k := by
  rw [binaryKey?, toFloat?_of_exact hd] at hi
  rw [binaryKey?, toFloat?_of_exact he] at hk
  obtain rfl := eq_of_binary? hx
  have hcompare : ∀ {y z : Float} {m n : Int}, Binary64.orderKey y = some m → Binary64.orderKey z = some n →
      Binary64.compare? y z = some (Ord.compare m n) := by
    intro y z m n hm hn
    rw [Binary64.compare?, hm, hn]
  have hbelow : ∀ {m n : Int}, m ≤ n → some (Ord.compare m n) ≠ some Ordering.gt :=
    fun hle hgt => compare_le_iff_le.mpr hle (Option.some.inj hgt)
  have hrounded := h.rounded a ha c hc d hd e he (.float x) hb x rfl
    (hcompare hi hj ▸ hbelow hij) (hcompare hj hk ▸ hbelow hjk)
  rw [hcompare hi hk] at hrounded
  exact (Option.some.inj hrounded).symm

/-- An exact number that is below another one stays below the binary numbers above that. -/
theorem Coherent.below (h : Coherent vs) (ha : a ∈ vs) (hb : b ∈ vs) (hc : c ∈ vs)
    (hd : a.toDecimal? = some d) (he : b.toDecimal? = some e) (hx : c.binary? = some x)
    (hi : a.binaryKey? = some i) (hj : b.binaryKey? = some j) (hk : c.binaryKey? = some k)
    (hab : (d.compare e).isLE = true) (hjk : j ≤ k) : i ≤ k := by
  by_contra hlt
  -- the binary number is between the second and the first, which are then in their order
  have hba := h.compare_exact hb hc ha he hx hd hj hk hi hjk (Int.le_of_not_le hlt)
  have hji : Ord.compare j i = .lt := compare_lt_iff_lt.mpr (by omega)
  rw [e.compare_swap d, hba, hji] at hab
  cases hab

/-- An exact number that is above another one stays above the binary numbers below that. -/
theorem Coherent.above (h : Coherent vs) (ha : a ∈ vs) (hb : b ∈ vs) (hc : c ∈ vs)
    (hx : a.binary? = some x) (hd : b.toDecimal? = some d) (he : c.toDecimal? = some e)
    (hi : a.binaryKey? = some i) (hj : b.binaryKey? = some j) (hk : c.binaryKey? = some k)
    (hij : i ≤ j) (hbc : (d.compare e).isLE = true) : i ≤ k := by
  by_contra hlt
  have hcb := h.compare_exact hc ha hb he hx hd hk hi hj (Int.le_of_not_le hlt) hij
  have hkj : Ord.compare k j = .lt := compare_lt_iff_lt.mpr (by omega)
  rw [e.compare_swap d, hcb, hkj] at hbc
  cases hbc

/-- Numbers of a coherent list are in one line. -/
theorem Coherent.trans_numbers (h : Coherent vs) (ha : a ∈ vs) (hb : b ∈ vs) (hc : c ∈ vs)
    (hna : a.isNumber = true) (hnb : b.isNumber = true) (hnc : c.isNumber = true)
    (hab : (a.sortCompare b).isLE = true) (hbc : (b.sortCompare c).isLE = true) :
    (a.sortCompare c).isLE = true := by
  -- a binary number gives all three a place, and two of which one is binary are sorted by their places
  have hplaces : ∀ {v : Value} {x : Float}, v ∈ vs → v.binary? = some x → ∃ i j k,
      a.binaryKey? = some i ∧ b.binaryKey? = some j ∧ c.binaryKey? = some k := by
    intro v x hv hx
    obtain ⟨i, hi⟩ := h.exists_binaryKey? hv hx ha hna
    obtain ⟨j, hj⟩ := h.exists_binaryKey? hv hx hb hnb
    obtain ⟨k, hk⟩ := h.exists_binaryKey? hv hx hc hnc
    exact ⟨i, j, k, hi, hj, hk⟩
  obtain ⟨d, hd⟩ | ⟨hd, x, hx⟩ := exact_or_binary hna <;>
    obtain ⟨e, he⟩ | ⟨he, y, hy⟩ := exact_or_binary hnb <;>
    obtain ⟨f, hf⟩ | ⟨hf, z, hz⟩ := exact_or_binary hnc
  case inl.inl.inl =>
    rw [sortCompare_exact hd he, Decimal.isLE_compare_iff] at hab
    rw [sortCompare_exact he hf, Decimal.isLE_compare_iff] at hbc
    rw [sortCompare_exact hd hf, Decimal.isLE_compare_iff]
    exact hab.trans hbc
  case inl.inl.inr =>
    obtain ⟨i, j, k, hi, hj, hk⟩ := hplaces hc hz
    rw [sortCompare_exact hd he] at hab
    rw [sortCompare_binary hnb hnc (.inr hf) hj hk, Std.isLE_compare] at hbc
    rw [sortCompare_binary hna hnc (.inr hf) hi hk, Std.isLE_compare]
    exact h.below ha hb hc hd he hz hi hj hk hab hbc
  case inl.inr.inl =>
    obtain ⟨i, j, k, hi, hj, hk⟩ := hplaces hb hy
    rw [sortCompare_binary hna hnb (.inr he) hi hj, Std.isLE_compare] at hab
    rw [sortCompare_binary hnb hnc (.inl he) hj hk, Std.isLE_compare] at hbc
    rw [sortCompare_exact hd hf, h.compare_exact ha hb hc hd hy hf hi hj hk hab hbc, Std.isLE_compare]
    exact hab.trans hbc
  case inr.inl.inl =>
    obtain ⟨i, j, k, hi, hj, hk⟩ := hplaces ha hx
    rw [sortCompare_binary hna hnb (.inl hd) hi hj, Std.isLE_compare] at hab
    rw [sortCompare_exact he hf] at hbc
    rw [sortCompare_binary hna hnc (.inl hd) hi hk, Std.isLE_compare]
    exact h.above ha hb hc hx he hf hi hj hk hab hbc
  all_goals
    -- of any two one is binary
    obtain ⟨i, j, k, hi, hj, hk⟩ : ∃ i j k, a.binaryKey? = some i ∧ b.binaryKey? = some j ∧
        c.binaryKey? = some k := by
      first
      | exact hplaces hb hy
      | exact hplaces hc hz
    rw [sortCompare_binary hna hnb (by simp [*]) hi hj, Std.isLE_compare] at hab
    rw [sortCompare_binary hnb hnc (by simp [*]) hj hk, Std.isLE_compare] at hbc
    rw [sortCompare_binary hna hnc (by simp [*]) hi hk, Std.isLE_compare]
    exact hab.trans hbc

/-! ## All values in one line -/

/-- Values of one type that are no numbers are in one line. -/
theorem sortCompare_trans_of_rank_eq (hab : a.sortRank = b.sortRank) (hbc : b.sortRank = c.sortRank)
    (hnumber : a.isNumber = false) (hle : (a.sortCompare b).isLE = true)
    (hle' : (b.sortCompare c).isLE = true) : (a.sortCompare c).isLE = true := by
  cases a <;> cases hnumber <;> cases b <;> cases hab <;> cases c <;> cases hbc
  case string => exact Std.TransOrd.isLE_trans hle hle'
  case boolean => exact Std.TransOrd.isLE_trans hle hle'
  case uuid => exact Std.TransOrd.isLE_trans hle hle'
  case date => exact Std.TransOrd.isLE_trans hle hle'
  all_goals rfl

theorem isNumber_of_rank_eq (h : a.sortRank = b.sortRank) : a.isNumber = b.isNumber := by
  cases a <;> cases b <;> first | rfl | cases h

/-- The values of a coherent list are in one line: of two ranks the types decide, and in one rank the
values. -/
theorem Coherent.sortsTransitively (h : Coherent vs) : Execute.SortsTransitively vs := by
  intro a ha b hb c hc hab hbc
  have hrank : ∀ {v w : Value}, v ∈ vs → w ∈ vs → (v.sortCompare w).isLE = true →
      v.sortRank ≤ w.sortRank := by
    intro v w hv hw hle
    by_contra hlt
    rw [sortCompare_swap w v, h.ranked w hw v hv (Nat.lt_of_not_le hlt)] at hle
    cases hle
  have hranks := hrank ha hb hab
  have hranks' := hrank hb hc hbc
  rcases Nat.lt_or_ge a.sortRank c.sortRank with hlt | hge
  · rw [h.ranked a ha c hc hlt]
    rfl
  · have hrankab : a.sortRank = b.sortRank := by omega
    have hrankbc : b.sortRank = c.sortRank := by omega
    cases hnumber : a.isNumber with
    | false => exact sortCompare_trans_of_rank_eq hrankab hrankbc hnumber hab hbc
    | true =>
        have hnb := (isNumber_of_rank_eq hrankab).symm.trans hnumber
        exact h.trans_numbers ha hb hc hnumber hnb ((isNumber_of_rank_eq hrankbc).symm.trans hnb) hab hbc

theorem sortCompare_self (a : Value) : a.sortCompare a = .eq := by
  have hswap := sortCompare_swap a a
  cases h : a.sortCompare a with
  | eq => rfl
  | lt => rw [h] at hswap; cases hswap
  | gt => rw [h] at hswap; cases hswap

/-- Values of two types are not compared when neither is a text. -/
theorem compare?_of_rank_lt (hlt : a.sortRank < b.sortRank) (ha : a.sortRank ≠ 3) (hb : b.sortRank ≠ 3) :
    compare? a b = none := by
  cases a <;> cases b
  all_goals first
    | rfl
    | exact (Nat.lt_irrefl _ hlt).elim
    | exact (ha rfl).elim
    | exact (hb rfl).elim

/-- Without texts and binary numbers no comparison goes past the types, and every list is coherent. -/
theorem Coherent.of_plain (htext : ∀ v ∈ vs, v.sortRank ≠ 3) (hbinary : ∀ v ∈ vs, v.binary? = none) :
    Coherent vs where
  ranked a ha b hb hlt := by
    rw [sortCompare, compare?_of_rank_lt hlt (htext a ha) (htext b hb)]
    exact compare_lt_iff_lt.mpr hlt
  placed b hb x hx := by
    rw [hbinary b hb] at hx
    cases hx
  rounded a ha c hc d hd e he b hb x hx := by
    rw [hbinary b hb] at hx
    cases hx

/-- **Sorting is a total preorder where values are coherent.** Every value ties with itself, any two values
are sorted alike from both sides, and three values are in one line when they are in a list in which texts are
not read past the ranks of types and rounding keeps exact numbers in order. -/
theorem sortCompare_total_preorder (a b c : Value) :
    a.sortCompare a = .eq ∧ a.sortCompare b = (b.sortCompare a).swap ∧
      ∀ vs : List Value, Coherent vs → a ∈ vs → b ∈ vs → c ∈ vs →
        (a.sortCompare b).isLE = true → (b.sortCompare c).isLE = true → (a.sortCompare c).isLE = true := by
  refine ⟨sortCompare_self a, sortCompare_swap b a, fun vs h ha hb hc => ?_⟩
  exact h.sortsTransitively a ha b hb c hc

/-- Values of five types, a binary number next to exact ones among them. -/
def mixedValues : List Value :=
  [.boolean true, .integer 3, .decimal (.ofInt64 4000000000000000000),
    .float (Binary64.ofDecimal false 1 40), .string "yes", .array [.null]]

theorem sortCompare_of_mixedValues : Coherent mixedValues ∧
    (Value.integer 3).sortCompare (.float (Binary64.ofDecimal false 1 40)) = .lt ∧
    ((Value.integer 3).sortCompare (.string "yes")).isLE = true :=
  have hcoherent : Coherent mixedValues := by decide +kernel
  have htransitive := (sortCompare_total_preorder (.integer 3) (.float (Binary64.ofDecimal false 1 40))
    (.string "yes")).2.2 mixedValues hcoherent
  ⟨hcoherent, by decide +kernel, htransitive (by simp [mixedValues]) (by simp [mixedValues])
    (by simp [mixedValues]) (by decide +kernel) (by decide +kernel)⟩

/-- A text before a boolean, the boolean before a number, and the number before the text. -/
theorem sortCompare_circle :
    (Value.string "a").sortCompare (.boolean true) = .lt ∧
    (Value.boolean true).sortCompare (.integer 5) = .lt ∧
    (Value.integer 5).sortCompare (.string "a") = .lt := by
  decide +kernel

end Value

end RecordQuery
