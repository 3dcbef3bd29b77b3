import Livedoc.Proofs.Decimal.RoundTrip

/-!
# The double nearest to a number

Every number that is not too large lies in the interval of a double, and the bits that are found for it
are those of the double (`exists_rounds`). No double is nearer to the number than this one
(`Rounds.nearest`). For the doubles next to it are a unit of its last place away, or half a unit below
the least full mantissa, and its interval ends half way to them.

What is read as a number is the nearest double of what is spelled, or infinite where that is too large.
So no text is read as an undefined number (`toFloat_ne_nan`).

The whole part of a double is found by dividing natural numbers. It is the value of the double rounded
down, so with the sign it is the value rounded toward zero (`truncate_eq`), and it is all of the value
exactly where the division leaves nothing over (`isWhole_iff`).
-/

namespace Livedoc.Decimal

variable {m m' num den : Nat} {e e' : Int} {q : ℚ}

/-! ## Rounding a quotient -/

/-- A quotient is at most half a unit away from the number that it is rounded to, and less if that
number is odd. -/
theorem roundDiv_bounds (num : Nat) (hden : 0 < den) :
    (roundDiv num den : ℚ) - 1 / 2 ≤ (num : ℚ) / den ∧
      (num : ℚ) / den ≤ roundDiv num den + 1 / 2 ∧
      (roundDiv num den % 2 = 0 ∨ (roundDiv num den : ℚ) - 1 / 2 < (num : ℚ) / den ∧
        (num : ℚ) / den < roundDiv num den + 1 / 2) := by
  have hpos : (0 : ℚ) < den := Nat.cast_pos.mpr hden
  have hnear := roundDiv_near num hden
  have hstrict : roundDiv num den % 2 = 0 ∨
      2 * num < 2 * (roundDiv num den * den) + den ∧
        2 * (roundDiv num den * den) < 2 * num + den := by
    have hdiv := Nat.div_add_mod num den
    have hcomm : num / den * den = den * (num / den) := Nat.mul_comm _ _
    have hsucc : (num / den + 1) * den = den * (num / den) + den := by
      rw [Nat.add_mul, hcomm]
      omega
    have hmod := Nat.mod_lt num hden
    unfold roundDiv
    dsimp only
    split
    · rw [hcomm]
      omega
    · split
      · rw [hsucc]
        omega
      · split
        · omega
        · omega
  rw [le_div_iff₀ hpos, div_le_iff₀ hpos, lt_div_iff₀ hpos, div_lt_iff₀ hpos]
  constructor
  · have : (2 * (roundDiv num den * den) : ℚ) ≤ 2 * num + den := by exact_mod_cast hnear.1
    linarith
  · constructor
    · have : (2 * num : ℚ) ≤ 2 * (roundDiv num den * den) + den := by exact_mod_cast hnear.2
      linarith
    · apply hstrict.imp_right
      intro h
      have hhigh : (2 * num : ℚ) < 2 * (roundDiv num den * den) + den := by exact_mod_cast h.1
      have hlow : (2 * (roundDiv num den * den) : ℚ) < 2 * num + den := by exact_mod_cast h.2
      constructor <;> linarith

/-! ## The doubles next to a double -/

/-- A double with a larger unit is so many smaller units. -/
theorem exists_units (h : e ≤ e') (m' : Nat) : ∃ n : Nat, (m' : ℚ) * 2 ^ e' = n * 2 ^ e := by
  have hexponent : e' = e + (e' - e).toNat := by omega
  use m' * 2 ^ (e' - e).toNat
  rw [hexponent, zpow_add₀ two_ne_zero, zpow_natCast]
  push_cast
  rw [← hexponent]
  ring

/-- A double with a smaller unit is less than those with a full mantissa by half a unit at least. -/
theorem IsFinite.le_of_exponent_lt (h' : IsFinite m' e') (hlt : e' < e) :
    (m' : ℚ) * 2 ^ e' ≤ ((leadingBit : ℚ) - 1 / 2) * 2 ^ e := by
  have hmantissa : (m' : ℚ) + 1 ≤ 2 * leadingBit := by exact_mod_cast h'.mantissa_lt
  have hunit : (2 : ℚ) ^ e' ≤ 2 ^ (e - 1) := zpow_le_zpow_right₀ one_le_two (by omega)
  calc (m' : ℚ) * 2 ^ e' ≤ (2 * leadingBit - 1) * 2 ^ (e - 1) := by
        apply mul_le_mul _ hunit (by positivity)
        · linarith [Nat.cast_nonneg (α := ℚ) m']
        · linarith
    _ = ((leadingBit : ℚ) - 1 / 2) * 2 ^ e := by
        rw [zpow_sub_one₀ two_ne_zero]
        ring

/-- Above a double the next one is a unit away. -/
theorem IsFinite.add_unit_le (h : IsFinite m e) (h' : IsFinite m' e')
    (hlt : (m : ℚ) * 2 ^ e < m' * 2 ^ e') : ((m : ℚ) + 1) * 2 ^ e ≤ m' * 2 ^ e' := by
  have hunit : (0 : ℚ) < 2 ^ e := by positivity
  by_cases hle : e ≤ e'
  · obtain ⟨n, hn⟩ := exists_units hle m'
    rw [hn] at hlt ⊢
    have hmantissa : m < n := by exact_mod_cast lt_of_mul_lt_mul_right hlt hunit.le
    apply mul_le_mul_of_nonneg_right _ hunit.le
    exact_mod_cast hmantissa
  · have hfull : leadingBit ≤ m := by
      apply h.full.resolve_right
      have := h'.le_exponent
      omega
    have hbelow := h'.le_of_exponent_lt (not_le.mp hle)
    have hcast : (leadingBit : ℚ) ≤ m := by exact_mod_cast hfull
    have hle : ((leadingBit : ℚ) - 1 / 2) * 2 ^ e ≤ m * 2 ^ e := by
      apply mul_le_mul_of_nonneg_right _ hunit.le
      linarith
    linarith

/-- Below a double the next one is a unit away, or half a unit if the mantissa is the least full
one. -/
theorem IsFinite.le_sub_unit (h : IsFinite m e) (h' : IsFinite m' e')
    (hlt : (m' : ℚ) * 2 ^ e' < m * 2 ^ e) :
    (m' : ℚ) * 2 ^ e' ≤ ((m : ℚ) - quartersBelow m e / 2) * 2 ^ e := by
  have hunit : (0 : ℚ) < 2 ^ e := by positivity
  have hquarters : (quartersBelow m e : ℚ) ≤ 2 := by exact_mod_cast quartersBelow_le m e
  by_cases hle : e ≤ e'
  · obtain ⟨n, hn⟩ := exists_units hle m'
    rw [hn] at hlt ⊢
    have hmantissa : n + 1 ≤ m := by exact_mod_cast lt_of_mul_lt_mul_right hlt hunit.le
    have hcast : (n : ℚ) + 1 ≤ m := by exact_mod_cast hmantissa
    apply mul_le_mul_of_nonneg_right _ hunit.le
    linarith
  · have hexponent : e ≠ -1074 := by
      have := h'.le_exponent
      omega
    have hfull : leadingBit ≤ m := h.full.resolve_right hexponent
    apply (h'.le_of_exponent_lt (not_le.mp hle)).trans
    apply mul_le_mul_of_nonneg_right _ hunit.le
    by_cases hleast : m = leadingBit
    · have hone : quartersBelow m e = 1 := by simp [quartersBelow, hleast, hexponent]
      rw [hone, hleast]
      norm_num
    · have hcast : (leadingBit : ℚ) + 1 ≤ m := by
        have : leadingBit + 1 ≤ m := by omega
        exact_mod_cast this
      linarith

/-- **No double is nearer to a number than the one in whose interval it lies.** -/
theorem Rounds.nearest (h : IsFinite m e) (hq : Rounds m e q) (h' : IsFinite m' e') :
    |(m : ℚ) * 2 ^ e - q| ≤ |(m' : ℚ) * 2 ^ e' - q| := by
  have hhigh := hq.high
  have hlow := hq.low
  rw [add_mul] at hhigh
  rw [sub_mul] at hlow
  rcases lt_trichotomy ((m' : ℚ) * 2 ^ e') (m * 2 ^ e) with hlt | heq | hgt
  · have hnext := h.le_sub_unit h' hlt
    rw [sub_mul] at hnext
    apply le_trans _ (neg_le_abs _)
    rw [abs_le]
    constructor <;> linarith
  · rw [heq]
  · have hnext := h.add_unit_le h' hgt
    rw [add_mul] at hnext
    apply le_trans _ (le_abs_self _)
    rw [abs_le]
    constructor <;> linarith

/-! ## Every number has its double -/

/-- Half a unit above the largest double. From there on numbers round to infinity. -/
def roundingLimit : ℚ := (2 * leadingBit - 1 / 2) * 2 ^ (971 : Int)

/-- A number that rounds to a mantissa lies in the interval of the double. -/
theorem rounds_of_roundDiv (hden : 0 < den)
    (hge : e = -1074 ∨ (2 : ℚ) ^ (e + 52) ≤ (num : ℚ) / den)
    (hm : roundDiv (num * (powerOfTwo e).2) (den * (powerOfTwo e).1) = m) :
    Rounds m e ((num : ℚ) / den) := by
  have hunit : (0 : ℚ) < 2 ^ e := by positivity
  have hbounds := roundDiv_bounds (num * (powerOfTwo e).2) (scaled_den_pos hden e)
  rw [hm, scaled_div, le_div_iff₀ hunit, div_le_iff₀ hunit, lt_div_iff₀ hunit,
    div_lt_iff₀ hunit] at hbounds
  by_cases hleast : m = leadingBit ∧ e ≠ -1074
  · have hone : quartersBelow m e = 1 := by simp [quartersBelow, hleast]
    constructor
    · have hceil := hge.resolve_left hleast.2
      rw [two_zpow_add, ← leadingBit_eq, ← hleast.1] at hceil
      apply le_trans _ hceil
      apply mul_le_mul_of_nonneg_right _ hunit.le
      rw [hone]
      norm_num
    · exact hbounds.2.1
    · left
      rw [hleast.1]
      rfl
  · have htwo : quartersBelow m e = 2 := by
      unfold quartersBelow
      rw [if_neg (by simpa using hleast)]
    have hhalf : (m : ℚ) - quartersBelow m e / 4 = m - 1 / 2 := by
      rw [htwo]
      norm_num
    constructor
    · rw [hhalf]
      exact hbounds.1
    · exact hbounds.2.1
    · rw [hhalf]
      exact hbounds.2.2

/-- A number below the limit is rounded with an exponent that a double can have. -/
theorem exponent_le_of_lt (hlt : q < roundingLimit) (hge : e = -1074 ∨ (2 : ℚ) ^ (e + 52) ≤ q) :
    e ≤ 971 := by
  rcases hge with rfl | hge
  · decide
  · have hbound : q < 2 ^ (1024 : Int) := by
      apply hlt.trans
      show (2 * (leadingBit : ℚ) - 1 / 2) * 2 ^ (971 : Int) < 2 ^ ((53 : Int) + 971)
      rw [leadingBit_eq, zpow_add₀ two_ne_zero]
      apply mul_lt_mul_of_pos_right _ (by positivity)
      norm_num
    have hexponent := (zpow_lt_zpow_iff_right₀ one_lt_two).mp (hge.trans_lt hbound)
    omega

/-- A mantissa that is carried to one bit more is the least full one with the next exponent. -/
theorem rounds_carried (hle : -1074 ≤ e) (hlow : (2 * (leadingBit : ℚ) - 1 / 2) * 2 ^ e ≤ q)
    (hlarge : q < 2 * leadingBit * 2 ^ e) : Rounds leadingBit (e + 1) q := by
  have hquarters : quartersBelow leadingBit (e + 1) = 1 := by
    have : e + 1 ≠ -1074 := by omega
    simp [quartersBelow, this]
  constructor
  · rw [hquarters, zpow_add_one₀ two_ne_zero]
    push_cast
    linarith
  · rw [zpow_add_one₀ two_ne_zero]
    linarith
  · exact .inl rfl

/-- A number below the limit is not carried from the last exponent. -/
theorem isFinite_carried (hle : -1074 ≤ e) (hexponent : e ≤ 971)
    (hlow : (2 * (leadingBit : ℚ) - 1 / 2) * 2 ^ e ≤ q) (hlt : q < roundingLimit) :
    IsFinite leadingBit (e + 1) := by
  have hnotLast : e ≠ 971 := by
    rintro rfl
    exact absurd hlt (not_lt.mpr hlow)
  constructor
  · exact lt_two_mul_self (by decide)
  · omega
  · omega
  · exact .inl le_rfl

/-- A number that needs a full mantissa is rounded to one. -/
theorem le_of_half_unit (hge : (2 : ℚ) ^ (e + 52) ≤ q) (hhigh : q ≤ ((m : ℚ) + 1 / 2) * 2 ^ e) :
    leadingBit ≤ m := by
  have hunit : (0 : ℚ) < 2 ^ e := by positivity
  rw [two_zpow_add, ← leadingBit_eq] at hge
  have hcast : (leadingBit : ℚ) ≤ m + 1 / 2 := le_of_mul_le_mul_right (hge.trans hhigh) hunit
  have hsucc : (leadingBit : ℚ) < m + 1 := by linarith
  exact Nat.le_of_lt_succ (by exact_mod_cast hsucc)

/-- **A number that is not too large rounds to a double**: it lies in the interval of one, and its
bits are those of this double. -/
theorem exists_rounds (hden : 0 < den) (hlt : (num : ℚ) / den < roundingLimit) :
    ∃ m e, IsFinite m e ∧ Rounds m e ((num : ℚ) / den) ∧ nearestBits num den = packed m e := by
  by_cases hzero : num = 0
  · use 0, -1074
    subst hzero
    have hfinite : IsFinite 0 (-1074) := by constructor <;> decide
    have hrounds : Rounds 0 (-1074) (((0 : Nat) : ℚ) / den) := by
      constructor <;> simp [quartersBelow]
    exact ⟨hfinite, hrounds, rfl⟩
  obtain ⟨e, hfits, hle, hge, hbits⟩ := exists_nearestBits (Nat.pos_of_ne_zero hzero) hden
  have hunit : (0 : ℚ) < 2 ^ e := by positivity
  have hexponent := exponent_le_of_lt hlt hge
  generalize hr : roundDiv (num * (powerOfTwo e).2) (den * (powerOfTwo e).1) = r at hbits
  have hbounds := roundDiv_bounds (num * (powerOfTwo e).2) (scaled_den_pos hden e)
  rw [hr, scaled_div, le_div_iff₀ hunit, div_le_iff₀ hunit] at hbounds
  obtain ⟨hlow, hhigh, -⟩ := hbounds
  have hlarge : (num : ℚ) / den < 2 * leadingBit * 2 ^ e := by
    rw [zpow_add₀ two_ne_zero] at hfits
    rw [leadingBit_eq]
    norm_num at hfits ⊢
    linarith
  have hcarry : r ≤ 2 * leadingBit := by
    have hmul := hlow.trans_lt hlarge
    have hcast : (r : ℚ) < 2 * leadingBit + 1 := by linarith [lt_of_mul_lt_mul_right hmul hunit.le]
    have : r < 2 * leadingBit + 1 := by exact_mod_cast hcast
    omega
  by_cases hfull : r = 2 * leadingBit
  · -- the mantissa is carried to one bit more, and the exponent makes up for it
    rw [hfull, Nat.cast_mul, Nat.cast_two] at hlow
    have hfinite := isFinite_carried hle hexponent hlow hlt
    have hrounds := rounds_carried hle hlow hlarge
    exact ⟨leadingBit, e + 1, hfinite, hrounds, nearestBits_eq hfinite (by decide) hden hrounds⟩
  · have hfinite : IsFinite r e := by
      constructor
      · omega
      · exact hle
      · exact hexponent
      · exact hge.symm.imp_left fun hceil => le_of_half_unit hceil hhigh
    use r, e
    rw [hbits]
    exact ⟨hfinite, rounds_of_roundDiv hden hge hr, min_eq_left hfinite.packed_lt.le⟩

/-! ## The parts of the nearest double -/

/-- The bits of a double are taken apart into its parts. -/
theorem Binary.ofBits_packed (h : IsFinite m e) (negative : Bool) :
    Binary.ofBits (signed negative (packed m e)) = .finite negative m e := by
  have hlt := h.mantissa_lt
  have hlow := h.le_exponent
  have hhigh := h.exponent_le
  have hbit : leadingBit = 4503599627370496 := rfl
  have hsign : signBit = 9223372036854775808 := rfl
  -- the exponent field and the fraction of the bits, which the sign does not touch
  have hfields : ∀ biased fraction, biased < 2047 → fraction < leadingBit →
      packed m e = biased * leadingBit + fraction →
        signed negative (packed m e) / signBit % 2 = (if negative then 1 else 0) ∧
          signed negative (packed m e) / leadingBit % 2048 = biased ∧
          signed negative (packed m e) % leadingBit = fraction := by
    intro biased fraction hbiased hfraction hpacked
    cases negative with
    | false =>
        simp only [signed, hpacked, hbit, hsign] at hfraction ⊢
        simp only [Bool.false_eq_true, if_false]
        omega
    | true =>
        simp only [signed, hpacked, hbit, hsign] at hfraction ⊢
        simp only [if_true]
        omega
  have hnegative : ((if negative then 1 else 0 : Nat) == 1) = negative := by
    cases negative <;> rfl
  by_cases hsub : m < leadingBit
  · have hexponent : e = -1074 := h.full.resolve_left (not_le.mpr hsub)
    have hpacked : packed m e = 0 * leadingBit + m := by
      rw [packed, if_pos hsub]
      omega
    obtain ⟨hs, hb, hf⟩ := hfields 0 m (by decide) hsub hpacked
    simp only [Binary.ofBits, hs, hb, hf, hnegative]
    rw [hexponent]
    rfl
  · let biased := (e + 1075).toNat
    have hbiased : biased < 2047 := by omega
    have hpacked : packed m e = biased * leadingBit + (m - leadingBit) := by
      rw [packed, if_neg hsub]
    obtain ⟨hs, hb, hf⟩ := hfields biased (m - leadingBit) hbiased (by omega) hpacked
    have hne : biased ≠ 2047 := by omega
    have hpos : biased ≠ 0 := by omega
    have hmantissa : leadingBit + (m - leadingBit) = m := by omega
    have hback : (biased : Int) - 1075 = e := by omega
    simp only [Binary.ofBits, hs, hb, hf, hnegative, if_neg hne, if_neg hpos, hmantissa, hback]

/-- Bits that are not those of an undefined number are kept by the double with these bits. -/
theorem Binary.ofFloat_ofBits {bits : Nat} (hlt : bits < 2 ^ 64) (h : Binary.ofBits bits ≠ .nan) :
    Binary.ofFloat (Float.ofBits (UInt64.ofNat bits)) = Binary.ofBits bits := by
  have hnumber : ¬ (bits / leadingBit % 2048 = 2047 ∧ bits % leadingBit ≠ 0) := by
    intro hnan
    apply h
    simp [Binary.ofBits, hnan]
  have hbits : @Float.Model.UnpackedFloat.isNaNBits Float.Model.Format.binary64
      (UInt64.ofNat bits).toBitVec = false := by
    rw [Float.Model.UnpackedFloat.isNaNBits, decide_eq_false_iff_not]
    intro hnan
    apply hnumber
    rw [Float.Model.UnpackedFloat.unpackExponent_def, Float.Model.UnpackedFloat.unpackMantissa_def,
      ← BitVec.toNat_inj, ne_eq, ← BitVec.toNat_inj, BitVec.extractLsb'_toNat,
      BitVec.extractLsb'_toNat, Nat.shiftRight_eq_div_pow] at hnan
    have hself : (UInt64.ofNat bits).toBitVec.toNat = bits := UInt64.toNat_ofNat_of_lt hlt
    rw [hself] at hnan
    exact hnan
  have hself : (Float.ofBits (UInt64.ofNat bits)).toBits = UInt64.ofNat bits := by
    show UInt64.ofBitVec (Float.Model.UnpackedFloat.pack Float.Model.Format.binary64
      (Float.Model.UnpackedFloat.unpack Float.Model.Format.binary64
        (UInt64.ofNat bits).toBitVec)) = _
    rw [Float.Model.UnpackedFloat.pack_unpack, hbits]
    rfl
  rw [Binary.ofFloat, hself]
  exact congrArg Binary.ofBits (UInt64.toNat_ofNat_of_lt hlt)

theorem signed_lt {bits : Nat} (h : bits ≤ infinityBits) (negative : Bool) :
    signed negative bits < 2 ^ 64 := by
  have hinfinity : infinityBits = 9218868437227405312 := rfl
  have hsign : signBit = 9223372036854775808 := rfl
  unfold signed
  split <;> omega

/-- Bits up to those of infinity are those of a number, with either sign. -/
theorem Binary.ofBits_ne_nan {bits : Nat} (h : bits ≤ infinityBits) (negative : Bool) :
    Binary.ofBits (signed negative bits) ≠ .nan := by
  intro hnan
  rcases Binary.ofBits_cases (signed_lt h negative) with hcase | ⟨_, hcase, -⟩ | ⟨_, _, _, hcase, -⟩
  · have hinfinity : infinityBits = 9218868437227405312 := rfl
    have hbit : leadingBit = 4503599627370496 := rfl
    have hsign : signBit = 9223372036854775808 := rfl
    have hfields := hcase.2
    cases negative with
    | false =>
        simp only [signed, Bool.false_eq_true, if_false, hbit] at hfields
        omega
    | true =>
        simp only [signed, if_true, hbit, hsign] at hfields
        omega
  · rw [hcase] at hnan
    cases hnan
  · rw [hcase] at hnan
    cases hnan

/-- The nearest double has the mantissa and the exponent that its bits are packed from. -/
theorem ofFloat_nearest (h : IsFinite m e) (hbits : nearestBits num den = packed m e)
    (negative : Bool) : Binary.ofFloat (nearest negative num den) = .finite negative m e := by
  have hparts := Binary.ofBits_packed h negative
  have hne : Binary.ofBits (signed negative (packed m e)) ≠ .nan := by
    rw [hparts]
    intro hcase
    cases hcase
  have hfloat := Binary.ofFloat_ofBits (signed_lt h.packed_lt.le negative) hne
  rw [hparts] at hfloat
  rw [← hfloat, ← hbits]
  rfl

theorem ofFloat_infinity (negative : Bool) :
    Binary.ofFloat (infinity negative) = .infinite negative := by
  cases negative <;> rfl

/-- **What is read is a number**: no text is read as an undefined one. -/
theorem toFloat_ne_nan (n : Numeral) : Binary.ofFloat n.toFloat ≠ .nan := by
  have hinfinity (negative : Bool) : Binary.ofFloat (infinity negative) ≠ .nan := by
    rw [ofFloat_infinity]
    intro hcase
    cases hcase
  have hnearest (negative : Bool) (num den : Nat) :
      Binary.ofFloat (nearest negative num den) ≠ .nan := by
    have hle : nearestBits num den ≤ infinityBits := by
      unfold nearestBits
      split
      · exact Nat.zero_le _
      · exact min_le_right _ _
    have hne := Binary.ofBits_ne_nan hle negative
    have hfloat := Binary.ofFloat_ofBits (signed_lt hle negative) hne
    show Binary.ofFloat (Float.ofBits (UInt64.ofNat (signed negative (nearestBits num den)))) ≠ _
    rw [hfloat]
    exact hne
  cases n with
  | infinity negative => exact hinfinity negative
  | decimal negative value exponent =>
      unfold Numeral.toFloat
      dsimp only
      split
      · exact hnearest _ _ _
      · split
        · exact hinfinity _
        · split
          · exact hnearest _ _ _
          · split
            · exact hnearest _ _ _
            · exact hnearest _ _ _

/-! ## The whole part of a number -/

/-- The value of a finite double, and zero for any other one. -/
def Binary.toRat : Binary → ℚ
  | .finite negative m e => if negative then -(m * 2 ^ e) else m * 2 ^ e
  | .nan | .infinite _ => 0

theorem wholePart_eq_floor (m : Nat) (e : Int) : wholePart m e = ⌊(m : ℚ) * 2 ^ e⌋₊ := by
  rw [← powerOfTwo_div, ← mul_div_assoc, ← Nat.cast_mul, Nat.floor_div_eq_div]
  rfl

theorem wholePart_le (m : Nat) (e : Int) : (wholePart m e : ℚ) ≤ m * 2 ^ e := by
  rw [wholePart_eq_floor]
  exact Nat.floor_le (by positivity)

theorem lt_wholePart_add_one (m : Nat) (e : Int) : (m : ℚ) * 2 ^ e < wholePart m e + 1 := by
  rw [wholePart_eq_floor]
  exact Nat.lt_floor_add_one _

/-- A number is its whole part only if it is whole. -/
theorem isWhole_iff : isWhole m e = true ↔ (wholePart m e : ℚ) = m * 2 ^ e := by
  constructor
  · exact wholePart_eq
  · intro h
    have hpos : ((powerOfTwo e).2 : ℚ) ≠ 0 := by exact_mod_cast (powerOfTwo_snd_pos e).ne'
    rw [← powerOfTwo_div, ← mul_div_assoc, eq_div_iff hpos] at h
    have hmul : m * (powerOfTwo e).1 = wholePart m e * (powerOfTwo e).2 := by exact_mod_cast h.symm
    rw [isWhole, hmul, Nat.mul_mod_left]
    rfl

/-- **The integer part of a number is its value rounded toward zero.** -/
theorem truncate_eq (b : Binary) :
    Decimal.truncate b = if b.toRat < 0 then ⌈b.toRat⌉ else ⌊b.toRat⌋ := by
  cases b with
  | nan => simp [Decimal.truncate, Binary.toRat]
  | infinite negative => simp [Decimal.truncate, Binary.toRat]
  | finite negative m e =>
      have hnonneg : (0 : ℚ) ≤ m * 2 ^ e := by positivity
      have hfloor : ((wholePart m e : Nat) : Int) = ⌊(m : ℚ) * 2 ^ e⌋ := by
        rw [wholePart_eq_floor]
        exact Int.natCast_floor_eq_floor hnonneg
      cases negative with
      | false => simp [Decimal.truncate, Binary.toRat, hfloor, not_lt.mpr hnonneg]
      | true =>
          by_cases hzero : (m : ℚ) * 2 ^ e = 0
          · simp [Decimal.truncate, Binary.toRat, hfloor, hzero]
          · have hpos : (0 : ℚ) < m * 2 ^ e := lt_of_le_of_ne hnonneg (Ne.symm hzero)
            have hneg : -((m : ℚ) * 2 ^ e) < 0 := neg_neg_of_pos hpos
            simp only [Decimal.truncate, Binary.toRat, if_true, if_pos hneg, hfloor, Int.ceil_neg]

end Livedoc.Decimal
