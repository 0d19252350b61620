import RecordQuery.Proofs.Literal.Typing
/-!
# Identifiers of 128 bits read back

The text of an identifier has its 32 small hexadecimal digits in five groups; without the hyphens
these are the digits again, and the number they stand for is the identifier.
-/

namespace RecordQuery.Uuid

/-! ## Hexadecimal digits -/

/-- What a number of hexadecimal digits stands for. -/
def hexValue (values : List Nat) : Nat :=
  values.foldl (fun n v => 16 * n + v) 0

theorem hexValue?_digitChar {v : Nat} (h : v < 16) : hexValue? v.digitChar = some v := by
  have all : ∀ v < 16, hexValue? (Nat.digitChar v) = some v := by
    decide
  exact all v h

theorem digitChar_ne_hyphen {v : Nat} (h : v < 16) : v.digitChar ≠ '-' := by
  have all : ∀ v < 16, Nat.digitChar v ≠ '-' := by
    decide
  exact all v h

/-- The hexadecimal digits of a number stand for it. -/
theorem exists_toDigits (n : Nat) : ∃ values : List Nat, Nat.toDigits 16 n = values.map Nat.digitChar ∧
    (∀ v ∈ values, v < 16) ∧ hexValue values = n := by
  induction n using Nat.strongRecOn with
  | _ n ih =>
      by_cases h : n < 16
      · refine ⟨[n], Nat.toDigits_of_lt_base h, ?_, ?_⟩
        · intro v hv
          rw [List.mem_singleton.mp hv]
          exact h
        · simp [hexValue]
      · obtain ⟨values, htext, hlt, hvalue⟩ := ih (n / 16) (by omega)
        have hmod : n % 16 < 16 := Nat.mod_lt n (by decide)
        refine ⟨values ++ [n % 16], ?_, ?_, ?_⟩
        · rw [Nat.toDigits_of_base_le (by decide) (by omega), htext, List.map_append]
          rfl
        · intro v hv
          rcases List.mem_append.mp hv with hv | hv
          · exact hlt v hv
          · rw [List.mem_singleton.mp hv]
            exact hmod
        · unfold hexValue at hvalue ⊢
          rw [List.foldl_append, hvalue]
          show 16 * (n / 16) + n % 16 = n
          omega

theorem hexValue_replicate_zero (k : Nat) (values : List Nat) :
    hexValue (List.replicate k 0 ++ values) = hexValue values := by
  induction k with
  | zero => rfl
  | succ k ih =>
      rw [List.replicate_succ, List.cons_append, ← ih]
      rfl

theorem mapM_hexValue? {values : List Nat} (h : ∀ v ∈ values, v < 16) :
    (values.map Nat.digitChar).mapM hexValue? = some values := by
  induction values with
  | nil => rfl
  | cons v values ih =>
      rw [List.map_cons, List.mapM_cons, hexValue?_digitChar (h v (by simp)),
        ih fun w hw => h w (by simp [hw])]
      rfl

/-- The digits of an identifier: 32 of them, which stand for its bits. -/
theorem exists_hexDigits (u : Uuid) : ∃ values : List Nat, u.hexDigits = values.map Nat.digitChar ∧
    (∀ v ∈ values, v < 16) ∧ values.length = 32 ∧ hexValue values = u.bits.toNat := by
  obtain ⟨values, htext, hlt, hvalue⟩ := exists_toDigits u.bits.toNat
  have hlength : values.length ≤ 32 := by
    have hle := (Nat.length_toDigits_le_iff (n := u.bits.toNat) (k := 32) (b := 16) (by decide)
      (by decide)).mpr (by have := u.bits.isLt; omega)
    rwa [htext, List.length_map] at hle
  -- the digits in front that are missing are zeros
  refine ⟨List.replicate (32 - values.length) 0 ++ values, ?_, ?_, ?_, ?_⟩
  · unfold hexDigits
    simp only [htext, List.length_map, List.map_append, List.map_replicate]
    rfl
  · intro v hv
    rcases List.mem_append.mp hv with hv | hv
    · rw [List.eq_of_mem_replicate hv]
      decide
    · exact hlt v hv
  · rw [List.length_append, List.length_replicate]
    omega
  · rw [hexValue_replicate_zero, hvalue]

/-! ## Groups -/

/-- The groups without the hyphens are the digits. -/
theorem filter_grouped {digits : List Char} (h : ∀ c ∈ digits, c ≠ '-') :
    (grouped digits).filter (· != '-') = digits := by
  have keep : ∀ cs : List Char, (∀ c ∈ cs, c ∈ digits) → cs.filter (· != '-') = cs := by
    intro cs hcs
    rw [List.filter_eq_self]
    intro c hc
    rw [bne_iff_ne]
    exact h c (hcs c hc)
  unfold grouped
  simp only [List.filter_append, List.filter_cons, bne_self_eq_false, Bool.false_eq_true, if_false]
  rw [keep _ fun c hc => List.mem_of_mem_take hc,
    keep _ fun c hc => List.mem_of_mem_drop (List.mem_of_mem_take hc),
    keep _ fun c hc => List.mem_of_mem_drop (List.mem_of_mem_take hc),
    keep _ fun c hc => List.mem_of_mem_drop (List.mem_of_mem_take hc),
    keep _ fun c hc => List.mem_of_mem_drop hc]
  have step : ∀ k, (digits.drop k).take 4 ++ digits.drop (k + 4) = digits.drop k := by
    intro k
    rw [← List.drop_drop, List.take_append_drop]
  rw [List.append_assoc, List.append_assoc, List.append_assoc, step 16, step 12, step 8,
    List.take_append_drop]

/-- The text of an identifier is read back as its bits. -/
theorem isGrouped_render (u : Uuid) : isGrouped u.render.toList = true ∧
    readGrouped? u.render.toList = some u := by
  obtain ⟨values, htext, hlt, hlength, hvalue⟩ := u.exists_hexDigits
  have hhyphen : ∀ c ∈ u.hexDigits, c ≠ '-' := by
    intro c hc
    rw [htext] at hc
    obtain ⟨v, hv, rfl⟩ := List.mem_map.mp hc
    exact digitChar_ne_hyphen (hlt v hv)
  have hdigits : u.hexDigits.length = 32 := by
    rw [htext, List.length_map, hlength]
  have hfilter := filter_grouped hhyphen
  have hgrouped : isGrouped (grouped u.hexDigits) = true := by
    unfold isGrouped
    simp only [hfilter, hdigits, beq_self_eq_true, Bool.and_true, Bool.and_eq_true, beq_iff_eq,
      List.all_eq_true]
    refine ⟨?_, ?_⟩
    · unfold grouped
      simp only [List.length_append, List.length_cons, List.length_take, List.length_drop, hdigits]
      decide
    · intro c hc
      rw [htext] at hc
      obtain ⟨v, hv, rfl⟩ := List.mem_map.mp hc
      unfold isHex
      rw [hexValue?_digitChar (hlt v hv)]
      rfl
  rw [render, String.toList_ofList]
  refine ⟨hgrouped, ?_⟩
  rw [readGrouped?, if_pos hgrouped, hfilter, readDigits?, if_pos hdigits, htext, mapM_hexValue? hlt]
  show some (Uuid.mk (BitVec.ofNat 128 (hexValue values))) = some u
  rw [hvalue, BitVec.ofNat_toNat, BitVec.setWidth_eq]

end RecordQuery.Uuid

namespace RecordQuery.Literal

/-- An identifier of 128 bits is read back as itself. -/
theorem ofText_uuid (u : Uuid) : ofText u.render = .uuid u := by
  obtain ⟨hgrouped, hread⟩ := u.isGrouped_render
  generalize hcs : u.render.toList = cs at hgrouped hread
  have hlength := Uuid.length_of_isGrouped hgrouped
  have hblank : ∀ c ∈ cs, Unicode.isBlank c = false := by
    intro c hc
    rcases Uuid.eq_hyphen_or_isHex hgrouped hc with rfl | hhex
    · decide
    · exact Lexer.not_isBlank_of_isWordChar (Uuid.isWordChar_of_isHex hhex)
  have htrim : Unicode.trim cs = cs :=
    Unicode.trim_eq_self (fun c hc => hblank c (List.mem_of_mem_head? hc))
      fun c hc => hblank c (List.mem_of_getLast? hc)
  have hquote : unquote? cs = none := by
    cases cs with
    | nil => rfl
    | cons c cs =>
        rw [unquote?, if_neg]
        rintro ⟨rfl | rfl, -⟩
        · exact absurd (Uuid.eq_hyphen_or_isHex hgrouped (List.mem_cons_self ..)) (by decide)
        · exact absurd (Uuid.eq_hyphen_or_isHex hgrouped (List.mem_cons_self ..)) (by decide)
  unfold ofText
  simp only [hcs, htrim, hquote]
  unfold ofBare
  rw [if_neg, if_pos hgrouped, hread]
  -- the word for the null value has another length
  intro hnull
  have hfour := congrArg List.length hnull
  rw [List.length_map, hlength] at hfour
  exact absurd hfour (by decide)

end RecordQuery.Literal
