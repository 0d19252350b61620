import RecordQuery.Binary64.Basic
/-!
# Bits of binary numbers

A number keeps the bits that it is made from (`toBits_ofBits`), as long as they stand for a number: all
that does not is one and the same value. So the sign and the magnitude of `ofMagnitude` are the ones it
was given, and two numbers with one sign and one magnitude are the same (`eq_of_bits`).
-/

namespace RecordQuery.Binary64

open Float.Model.UnpackedFloat Float.Model.Format

/-- A word is its sign bit, its exponent field and its fraction. -/
theorem append_fields (w : BitVec 64) :
    w.extractLsb 63 63 ++ w.extractLsb 62 52 ++ w.extractLsb 51 0 = w := by
  unfold BitVec.extractLsb
  rw [BitVec.extractLsb'_append_extractLsb'_eq_extractLsb' (by decide),
    BitVec.extractLsb'_append_extractLsb'_eq_extractLsb' (by decide)]
  exact BitVec.extractLsb'_eq_self

/-- Every word is packed from three parts. -/
theorem exists_components (w : BitVec 64) :
    ∃ sign exponent fraction, w = packComponents binary64 sign exponent fraction := by
  refine ⟨Sign.ofBitVec (w.extractLsb 63 63), w.extractLsb 62 52, w.extractLsb 51 0, ?_⟩
  have hsign : ∀ s : BitVec 1, (Sign.ofBitVec s).toBitVec = s := by decide
  unfold packComponents
  rw [hsign]
  exact (append_fields w).symm

theorem sign_packComponents (sign : Sign) (exponent : BitVec 11) (fraction : BitVec 52) :
    Sign.ofBitVec (unpackSign (packComponents binary64 sign exponent fraction)) = sign := by
  have hbit : unpackSign (packComponents binary64 sign exponent fraction) = sign.toBitVec := by
    unfold unpackSign packComponents BitVec.extractLsb
    rw [BitVec.extractLsb'_append_eq_of_le (by decide),
      BitVec.extractLsb'_append_eq_of_le (by decide)]
    cases sign <;> rfl
  rw [hbit]
  cases sign <;> rfl

theorem toNat_hidden_append (fraction : BitVec 52) :
    (1#1 ++ fraction).toNat = hiddenBit + fraction.toNat := by
  rw [BitVec.toNat_append, ← Nat.shiftLeft_add_eq_or_of_lt fraction.isLt, Nat.shiftLeft_eq]
  rfl

/-! ## Taking a word apart -/

section Unpacking

variable {sign : Sign} {exponent : BitVec 11} {fraction : BitVec 52}

theorem finite_eq {m n : Nat} {d e : Int} {hm : 0 < m} {hn : 0 < n} (hmn : m = n) (hde : d = e) :
    finite sign m d hm = finite sign n e hn := by
  subst hmn hde
  rfl

/-- The exponent field of infinity, with nothing behind it. -/
theorem unpack_infinity :
    unpack binary64 (packComponents binary64 sign (-1#11) 0#52) = .infinity sign := by
  unfold unpack
  dsimp only
  rw [if_pos unpackExponent_packComponents, if_pos unpackMantissa_packComponents, sign_packComponents]

theorem unpack_zero : unpack binary64 (packComponents binary64 sign 0#11 0#52) = .zero sign := by
  have hfield : unpackExponent (packComponents binary64 sign 0#11 0#52) = 0#11 :=
    unpackExponent_packComponents
  unfold unpack
  dsimp only
  rw [if_neg (mt hfield.symm.trans (by decide)), if_pos hfield, dif_pos unpackMantissa_packComponents,
    sign_packComponents]

/-- A number below the smallest normal one has no hidden bit. -/
theorem unpack_low (hpos : 0 < fraction.toNat) :
    unpack binary64 (packComponents binary64 sign 0#11 fraction) =
      .finite sign fraction.toNat (-1074) hpos := by
  have hfield : unpackExponent (packComponents binary64 sign 0#11 fraction) = 0#11 :=
    unpackExponent_packComponents
  have hmantissa : unpackMantissa (packComponents binary64 sign 0#11 fraction) = fraction :=
    unpackMantissa_packComponents
  have hne : unpackMantissa (packComponents binary64 sign 0#11 fraction) ≠ 0#52 := by
    rw [hmantissa]
    rintro rfl
    exact absurd hpos (by decide)
  unfold unpack
  dsimp only
  rw [if_neg (mt hfield.symm.trans (by decide)), if_pos hfield, dif_neg hne, sign_packComponents]
  exact finite_eq (congrArg BitVec.toNat hmantissa) (by rw [hfield]; rfl)

/-- A normal number has the hidden bit in front of its fraction. -/
theorem unpack_normal (htop : exponent ≠ -1#11) (hlow : exponent ≠ 0#11)
    (hpos : 0 < hiddenBit + fraction.toNat) :
    unpack binary64 (packComponents binary64 sign exponent fraction) =
      .finite sign (hiddenBit + fraction.toNat) ((exponent.toNat : Int) - 1075) hpos := by
  have hfield : unpackExponent (packComponents binary64 sign exponent fraction) = exponent :=
    unpackExponent_packComponents
  have hmantissa : unpackMantissa (packComponents binary64 sign exponent fraction) = fraction :=
    unpackMantissa_packComponents
  unfold unpack
  dsimp only
  rw [if_neg (mt hfield.symm.trans htop), if_neg (mt hfield.symm.trans hlow), sign_packComponents]
  apply finite_eq
  · rw [hmantissa]
    exact toNat_hidden_append fraction
  · rw [hfield]
    show (exponent.toNat : Int) - ((1023 : Nat) + (52 : Nat)) = _
    omega

/-- A word that stands for a number is kept when it is taken apart and put together again. -/
theorem pack_unpack (h : exponent = -1#11 → fraction = 0#52) :
    pack binary64 (unpack binary64 (packComponents binary64 sign exponent fraction)) =
      packComponents binary64 sign exponent fraction := by
  have hfraction : fraction.toNat < 2 ^ 52 := fraction.isLt
  by_cases htop : exponent = -1#11
  · rw [h htop, htop, unpack_infinity]
    rfl
  by_cases hlow : exponent = 0#11
  · rw [hlow]
    by_cases hzero : fraction = 0#52
    · rw [hzero, unpack_zero]
      rfl
    · -- there is no hidden bit to be cleared
      have hne : fraction.toNat ≠ 0 := fun h => hzero (BitVec.eq_of_toNat_eq h)
      have hlog : fraction.toNat.log2 < 52 := (Nat.log2_lt hne).mpr hfraction
      rw [unpack_low (Nat.pos_of_ne_zero hne)]
      unfold pack
      dsimp only
      rw [if_neg (by decide), if_neg (by show ¬ _ = 53; omega), BitVec.ofNat_toNat, BitVec.setWidth_eq]
  · -- the exponent is biased again, and the hidden bit does not fit the fraction
    have hexponent : exponent.toNat < 2047 := by
      have hlt : exponent.toNat < 2048 := exponent.isLt
      have hne : exponent.toNat ≠ 2047 := fun h => htop (BitVec.eq_of_toNat_eq h)
      omega
    have hlog : (hiddenBit + fraction.toNat).log2 = 52 := by
      rw [Nat.log2_eq_iff (by unfold hiddenBit; omega)]
      unfold hiddenBit
      omega
    have hbiased : ((exponent.toNat : Int) - 1075 + exponentBias binary64 + (52 : Nat)).toNat =
        exponent.toNat := by
      show ((exponent.toNat : Int) - 1075 + (1023 : Nat) + (52 : Nat)).toNat = _
      omega
    have hclear : BitVec.ofNat 52 (hiddenBit + fraction.toNat) = fraction := by
      apply BitVec.eq_of_toNat_eq
      rw [BitVec.toNat_ofNat]
      unfold hiddenBit
      omega
    rw [unpack_normal htop hlow (by unfold hiddenBit; omega)]
    unfold pack
    dsimp only
    rw [hlog, hbiased, hclear, if_neg (by omega), if_pos (by decide), BitVec.ofNat_toNat,
      BitVec.setWidth_eq]

end Unpacking

/-- The parts of a word by their weights. -/
theorem toNat_packComponents (sign : Sign) (exponent : BitVec 11) (fraction : BitVec 52) :
    (packComponents binary64 sign exponent fraction).toNat =
      sign.toBitVec.toNat * signBit + exponent.toNat * hiddenBit + fraction.toNat := by
  unfold packComponents
  rw [BitVec.toNat_append, ← Nat.shiftLeft_add_eq_or_of_lt fraction.isLt, BitVec.toNat_append,
    ← Nat.shiftLeft_add_eq_or_of_lt exponent.isLt]
  simp only [Nat.shiftLeft_eq]
  unfold signBit hiddenBit
  omega

/-- The bits of a number, finite or infinite, are kept. -/
theorem toBits_ofBits {bits : UInt64} (h : bits.toNat % signBit ≤ infinityBits) :
    (Float.ofBits bits).toBits = bits := by
  obtain ⟨sign, exponent, fraction, hw⟩ := exists_components bits.toBitVec
  have hnan : exponent = -1#11 → fraction = 0#52 := by
    intro htop
    apply BitVec.eq_of_toNat_eq
    have hnat := toNat_packComponents sign exponent fraction
    rw [← hw, htop] at hnat
    have hnat' : bits.toNat =
        sign.toBitVec.toNat * signBit + 2047 * hiddenBit + fraction.toNat := hnat
    have hfraction : fraction.toNat < hiddenBit := fraction.isLt
    show fraction.toNat = 0
    rw [hnat'] at h
    rw [Nat.add_assoc, Nat.add_comm, Nat.add_mul_mod_self_right] at h
    unfold infinityBits at h
    unfold signBit at h
    unfold hiddenBit at h hfraction
    omega
  apply UInt64.toBitVec_inj.mp
  show pack binary64 (unpack binary64 bits.toBitVec) = bits.toBitVec
  rw [hw, pack_unpack hnan]

theorem toBits_ofMagnitude {negative : Bool} {bits : Nat} (h : bits ≤ infinityBits) :
    (ofMagnitude negative bits).toBits.toNat = (if negative then signBit else 0) + bits := by
  have hlt : (if negative then signBit else 0) + bits < 2 ^ 64 := by
    unfold infinityBits hiddenBit at h
    unfold signBit
    split <;> omega
  have hnat : (UInt64.ofNat ((if negative then signBit else 0) + bits)).toNat =
      (if negative then signBit else 0) + bits := UInt64.toNat_ofNat_of_lt' hlt
  unfold ofMagnitude
  rw [toBits_ofBits, hnat]
  rw [hnat]
  unfold infinityBits hiddenBit signBit at *
  split <;> omega

@[simp]
theorem magnitudeBits_ofMagnitude {negative : Bool} {bits : Nat} (h : bits ≤ infinityBits) :
    magnitudeBits (ofMagnitude negative bits) = bits := by
  unfold magnitudeBits
  rw [toBits_ofMagnitude h]
  unfold infinityBits hiddenBit at h
  unfold signBit
  split <;> omega

@[simp]
theorem isNegative_ofMagnitude {negative : Bool} {bits : Nat} (h : bits ≤ infinityBits) :
    isNegative (ofMagnitude negative bits) = negative := by
  unfold isNegative
  rw [toBits_ofMagnitude h]
  unfold infinityBits hiddenBit at h
  unfold signBit
  cases negative with
  | false =>
      simp
      omega
  | true => simp

/-- A number is its sign bit and the bits below. -/
theorem toNat_toBits (x : Float) :
    x.toBits.toNat = (if isNegative x then signBit else 0) + magnitudeBits x := by
  have hlt := x.toBits.toNat_lt
  unfold isNegative magnitudeBits
  by_cases h : signBit ≤ x.toBits.toNat
  · rw [if_pos (decide_eq_true h)]
    unfold signBit at *
    omega
  · rw [if_neg (by rw [decide_eq_true_eq]; exact h)]
    unfold signBit at *
    omega

theorem toBits_injective {x y : Float} (h : x.toBits = y.toBits) : x = y := by
  obtain ⟨⟨bits, valid⟩⟩ := x
  obtain ⟨⟨bits', valid'⟩⟩ := y
  obtain rfl : bits = bits' := h
  rfl

theorem eq_of_bits {x y : Float} (hnegative : isNegative x = isNegative y)
    (hmagnitude : magnitudeBits x = magnitudeBits y) : x = y := by
  apply toBits_injective
  apply UInt64.toNat_inj.mp
  rw [toNat_toBits, toNat_toBits, hnegative, hmagnitude]

end RecordQuery.Binary64
