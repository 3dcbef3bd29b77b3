import Livedoc.Expansion.Function
import Livedoc.Proofs.Decimal.Spelling
import Mathlib

/-!
# Numbers survive their text

What a document shows for a double lies in the interval of the double: a whole number is the double
itself, and any other number is shown by its shortest decimal. What lies there is read as the double
(`toFloat_decimal`); it is neither so large nor so small that the reader would not look at its digits.
The bits of a double are those of its sign, its exponent and its mantissa (`Binary.ofBits_cases`), so
the bits that are found are the ones that were shown (`parseNumber?_formatNumber`).
-/

namespace Livedoc

open Livedoc.Tree

namespace Decimal

variable {m : Nat} {e : Int}

/-! ## Bits -/

/-- The bits of a double with its sign. -/
def signed (negative : Bool) (bits : Nat) : Nat := if negative then bits + signBit else bits

theorem signed_beq {sign : Nat} (h : sign < 2) (bits : Nat) :
    signed (sign == 1) bits = bits + sign * signBit := by
  obtain rfl | rfl : sign = 0 ∨ sign = 1 := by omega
  · simp [signed]
  · simp [signed]

/-- What the bits of a double say about it. -/
theorem Binary.ofBits_cases {bits : Nat} (h : bits < 2 ^ 64) :
    Binary.ofBits bits = .nan ∧ bits / leadingBit % 2048 = 2047 ∧ bits % leadingBit ≠ 0 ∨
      (∃ negative, Binary.ofBits bits = .infinite negative ∧
        bits = signed negative infinityBits) ∨
      ∃ negative m e, Binary.ofBits bits = .finite negative m e ∧ IsFinite m e ∧
        bits = signed negative (packed m e) := by
  let sign := bits / signBit % 2
  let biased := bits / leadingBit % 2048
  let fraction := bits % leadingBit
  have hsplit : bits = biased * leadingBit + fraction + sign * signBit := by
    simp only [sign, biased, fraction, show leadingBit = 4503599627370496 from rfl,
      show signBit = 9223372036854775808 from rfl]
    omega
  have hsign : sign < 2 := Nat.mod_lt _ (by decide)
  have hbiased : biased < 2048 := Nat.mod_lt _ (by decide)
  have hfraction : fraction < leadingBit := Nat.mod_lt _ (by decide)
  by_cases hfull : biased = 2047
  · by_cases hzero : fraction = 0
    · refine .inr (.inl ⟨sign == 1, ?_, ?_⟩)
      · simp [Binary.ofBits, show bits / leadingBit % 2048 = 2047 from hfull,
          show bits % leadingBit = 0 from hzero, sign]
      · rw [signed_beq hsign, hsplit, hfull, hzero]
        rfl
    · refine .inl ⟨?_, hfull, hzero⟩
      simp [Binary.ofBits, show bits / leadingBit % 2048 = 2047 from hfull,
          show bits % leadingBit ≠ 0 from hzero]
  · refine .inr (.inr ?_)
    by_cases hsub : biased = 0
    · refine ⟨sign == 1, fraction, -1074, ?_, ⟨by omega, by omega, by omega, .inr rfl⟩, ?_⟩
      · simp [Binary.ofBits, show bits / leadingBit % 2048 = 0 from hsub, sign, fraction]
      · rw [signed_beq hsign, packed, if_pos hfraction, ← Nat.zero_add fraction,
          ← Nat.zero_mul leadingBit, ← hsub]
        exact hsplit
    · refine ⟨sign == 1, leadingBit + fraction, biased - 1075, ?_,
        ⟨by omega, by omega, by omega, .inl (by omega)⟩, ?_⟩
      · simp only [Binary.ofBits]
        rw [if_neg hfull, if_neg hsub]
      · have hexponent : ((biased : Int) - 1075 + 1075).toNat = biased := by omega
        rw [signed_beq hsign, packed, if_neg (by omega), hexponent, Nat.add_sub_cancel_left]
        exact hsplit

/-- Bits with all of the exponent set, and some of the mantissa, are those of no number. -/
theorem isNaN_of_bits {x : Float} (hexponent : x.toBits.toNat / leadingBit % 2048 = 2047)
    (hfraction : x.toBits.toNat % leadingBit ≠ 0) : x.isNaN = true := by
  rw [Float.isNaN_eq_decide_eq_nan, decide_eq_true_eq, ← Float.toBits_inj, ← UInt64.toBitVec_inj]
  refine x.toModel.valid.eq_packedNaN ?_ ?_
  · rw [Float.Model.UnpackedFloat.unpackExponent_def, ← BitVec.toNat_inj, BitVec.extractLsb'_toNat,
      Nat.shiftRight_eq_div_pow]
    exact hexponent
  · rw [Float.Model.UnpackedFloat.unpackMantissa_def, ne_eq, ← BitVec.toNat_inj,
      BitVec.extractLsb'_toNat]
    exact hfraction

theorem ofBits_signed {x : Float} {bits : Nat} {negative : Bool}
    (h : x.toBits.toNat = signed negative bits) :
    Float.ofBits (UInt64.ofNat (signed negative bits)) = x := by
  rw [← h, UInt64.ofNat_toNat, Float.ofBits_toBits]

/-! ## Reading a decimal -/

theorem IsFinite.zpow_le (h : IsFinite m e) : (2 : ℚ) ^ (-1074 : Int) ≤ 2 ^ e ∧
    (2 : ℚ) ^ e ≤ 2 ^ (971 : Int) :=
  ⟨zpow_le_zpow_right₀ one_le_two h.le_exponent, zpow_le_zpow_right₀ one_le_two h.exponent_le⟩

theorem two_zpow_lt_cutoff : (2 : ℚ) ^ (1075 : Int) < 10 ^ (400 : Int) := by
  calc (2 : ℚ) ^ (1075 : Int) = (2 ^ 215) ^ 5 := by rw [← pow_mul]; exact zpow_natCast 2 1075
    _ < (10 ^ 80) ^ 5 := by
        apply pow_lt_pow_left₀ _ (by positivity) (by decide)
        norm_num
    _ = 10 ^ (400 : Int) := by rw [← pow_mul]; exact (zpow_natCast 10 400).symm

/-- No double is so large that its decimals would be cut off. -/
theorem Rounds.lt_cutoff {q : ℚ} (h : IsFinite m e) (hq : Rounds m e q) :
    q < 10 ^ (400 : Int) := by
  have hmantissa : (m : ℚ) + 1 / 2 ≤ 2 ^ (53 : Int) := by
    have hlt : m + 1 ≤ 2 * leadingBit := h.mantissa_lt
    have hcast : (m : ℚ) + 1 ≤ 2 * leadingBit := by exact_mod_cast hlt
    rw [leadingBit_eq] at hcast
    norm_num at hcast ⊢
    linarith
  calc q ≤ ((m : ℚ) + 1 / 2) * 2 ^ e := hq.high
    _ ≤ 2 ^ (53 : Int) * 2 ^ (971 : Int) := by
        exact mul_le_mul hmantissa h.zpow_le.2 (by positivity) (by positivity)
    _ = 2 ^ (1024 : Int) := by rw [← zpow_add₀ two_ne_zero]; rfl
    _ ≤ 2 ^ (1075 : Int) := zpow_le_zpow_right₀ one_le_two (by decide)
    _ < 10 ^ (400 : Int) := two_zpow_lt_cutoff

/-- No double but zero is so small that its decimals would be cut off. -/
theorem Rounds.cutoff_lt {q : ℚ} (h : IsFinite m e) (hm : 0 < m) (hq : Rounds m e q) :
    10 ^ (-400 : Int) < q := by
  have hquarters : (quartersBelow m e : ℚ) ≤ 2 := by exact_mod_cast quartersBelow_le m e
  have hone : (1 : ℚ) ≤ m := by exact_mod_cast hm
  calc (10 : ℚ) ^ (-400 : Int) < 2 ^ (-1075 : Int) := by
        rw [zpow_neg, zpow_neg]
        exact inv_strictAnti₀ (by positivity) two_zpow_lt_cutoff
    _ = 1 / 2 * 2 ^ (-1074 : Int) := by
        rw [show (-1075 : Int) = -1 + -1074 by rfl, zpow_add₀ two_ne_zero, zpow_neg_one, one_div]
    _ ≤ ((m : ℚ) - quartersBelow m e / 4) * 2 ^ e := by
        apply mul_le_mul _ h.zpow_le.1 (by positivity) (by linarith)
        linarith
    _ ≤ q := hq.low

/-- **A decimal in the interval of a double is read as the double.** -/
theorem toFloat_decimal (h : IsFinite m e) (hm : 0 < m) {value : Nat} {exponent : Int}
    (hq : Rounds m e (value * 10 ^ exponent)) (negative : Bool) :
    (Numeral.decimal negative value exponent).toFloat =
      Float.ofBits (UInt64.ofNat (signed negative (packed m e))) := by
  have hvalue : 0 < value := by
    have hpos := hq.pos hm
    by_contra hzero
    obtain rfl : value = 0 := by omega
    simp at hpos
  have hone : (1 : ℚ) ≤ value := by exact_mod_cast hvalue
  have hten : (0 : ℚ) < 10 ^ exponent := by positivity
  have hlarge : ¬ exponent > 400 := by
    have hlt : (10 : ℚ) ^ exponent < 10 ^ (400 : Int) :=
      lt_of_le_of_lt (le_mul_of_one_le_left hten.le hone) (hq.lt_cutoff h)
    have := (zpow_lt_zpow_iff_right₀ (by norm_num : (1 : ℚ) < 10)).mp hlt
    omega
  have hsmall : ¬ exponent + digitCount value < -400 := by
    have hdigits : (value : ℚ) < 10 ^ (digitCount value : Int) := by
      exact_mod_cast lt_pow_digitCount value
    have hlt : (10 : ℚ) ^ (-400 : Int) < 10 ^ (exponent + digitCount value) := by
      rw [zpow_add₀ (by norm_num), mul_comm]
      exact (hq.cutoff_lt h hm).trans (mul_lt_mul_of_pos_right hdigits hten)
    have := (zpow_lt_zpow_iff_right₀ (by norm_num : (1 : ℚ) < 10)).mp hlt
    omega
  have hnearest {num den : Nat} (hden : 0 < den)
      (hsame : (value : ℚ) * 10 ^ exponent = (num : ℚ) / den) : nearest negative num den =
        Float.ofBits (UInt64.ofNat (signed negative (packed m e))) := by
    rw [hsame] at hq
    rw [← nearestBits_eq h hm hden hq]
    rfl
  rw [Numeral.toFloat, if_neg hvalue.ne', if_neg hlarge, if_neg hsmall]
  split
  · next hnegative =>
    obtain ⟨k, rfl⟩ : ∃ k : Nat, exponent = -k := ⟨(-exponent).toNat, by omega⟩
    apply hnearest (Nat.pow_pos (by decide))
    simp [div_eq_mul_inv]
  · next hnonnegative =>
    obtain ⟨k, rfl⟩ : ∃ k : Nat, exponent = k := ⟨exponent.toNat, by omega⟩
    apply hnearest Nat.one_pos
    simp [Nat.pow_eq]

/-! ## Numbers of a document -/

/-- A text is read in full as a number. -/
def ReadsAs (text : String) (x : Float) : Prop :=
  ∃ n : Numeral, takeNumeral? text.toList = some (n, []) ∧ n.toFloat = x

theorem ReadsAs.parse {text : String} {x : Float} (h : ReadsAs text x) :
    parseNumber? text = some x ∧ parseWholeNumber? text = some x := by
  obtain ⟨n, htake, rfl⟩ := h
  simp [parseNumber?, parseWholeNumber?, htake]

/-- What spells a number in the interval of a double is read as the double. -/
theorem Spells.readsAs {text : String} {negative : Bool} {q : ℚ} (hs : Spells text negative q)
    (h : IsFinite m e) (hm : 0 < m) (hq : Rounds m e q) :
    ReadsAs (signText negative ++ text)
      (Float.ofBits (UInt64.ofNat (signed negative (packed m e)))) := by
  obtain ⟨value, exponent, rfl, htake⟩ := hs
  exact ⟨_, by rw [String.toList_append]; exact htake, toFloat_decimal h hm hq negative⟩

/-- A double lies in its own interval. -/
theorem rounds_self (m : Nat) (e : Int) : Rounds m e (m * 2 ^ e) := by
  have hunit : (0 : ℚ) < 2 ^ e := by positivity
  have hquarters : 0 < (quartersBelow m e : ℚ) := by
    unfold quartersBelow
    split <;> norm_num
  apply Rounds.of_between
  · exact mul_lt_mul_of_pos_right (by linarith) hunit
  · exact mul_lt_mul_of_pos_right (by linarith) hunit

/-- A whole number is its whole part. -/
theorem wholePart_eq (h : isWhole m e = true) : (wholePart m e : ℚ) = m * 2 ^ e := by
  have hpos : ((powerOfTwo e).2 : ℚ) ≠ 0 := by exact_mod_cast (powerOfTwo_snd_pos e).ne'
  have hdvd : (powerOfTwo e).2 ∣ m * (powerOfTwo e).1 :=
    Nat.dvd_of_mod_eq_zero (beq_iff_eq.mp h)
  rw [wholePart, Nat.cast_div hdvd hpos, Nat.cast_mul, mul_div_assoc, powerOfTwo_div]

/-- The text of a finite double other than zero is read as the double. -/
theorem formatBinary_readsAs (h : IsFinite m e) (hm : 0 < m) (negative : Bool) :
    ReadsAs (formatBinary (.finite negative m e))
      (Float.ofBits (UInt64.ofNat (signed negative (packed m e)))) := by
  rw [formatBinary, if_neg hm.ne']
  split
  · next hwhole =>
    obtain ⟨hwhole, -⟩ := Bool.and_eq_true_iff.mp hwhole
    refine (digitText_spells (wholePart m e) negative).readsAs h hm ?_
    rw [wholePart_eq hwhole]
    exact rounds_self _ _
  · exact (write_spells numberStyle (shortest m e) negative).readsAs h hm (shortest_rounds h hm).2

theorem formatBinary_infinite_readsAs (negative : Bool) :
    ReadsAs (formatBinary (.infinite negative)) (infinity negative) := by
  refine ⟨.infinity negative, ?_, rfl⟩
  cases negative <;> decide +kernel

end Decimal

open Decimal

/-- The text of a double other than NaN is read as the double, or as zero if it is one. -/
theorem exists_readsAs {x : Float} (hx : x.isNaN = false) :
    ∃ y, ReadsAs (formatNumber x) y ∧ (y = x ∨ y = 0 ∧ x = -0) := by
  have hlt : x.toBits.toNat < 2 ^ 64 := x.toBits.toNat_lt
  rcases Binary.ofBits_cases hlt with ⟨-, hexponent, hfraction⟩ | ⟨negative, hbinary, hbits⟩ |
    ⟨negative, m, e, hbinary, hfinite, hbits⟩
  · rw [isNaN_of_bits hexponent hfraction] at hx
    cases hx
  · refine ⟨infinity negative, ?_, .inl (ofBits_signed hbits)⟩
    rw [formatNumber, Binary.ofFloat, hbinary]
    exact formatBinary_infinite_readsAs negative
  · rw [formatNumber, Binary.ofFloat, hbinary]
    rcases Nat.eq_zero_or_pos m with rfl | hm
    · -- both zeros are shown without a sign
      have hzero : x = Float.ofBits (UInt64.ofNat (signed negative 0)) := (ofBits_signed hbits).symm
      have htext : formatBinary (.finite negative 0 e) = "0" := by rw [formatBinary, if_pos rfl]
      refine ⟨0, ⟨.decimal false 0 0, by rw [htext]; decide +kernel, rfl⟩, ?_⟩
      cases negative with
      | true => exact .inr ⟨rfl, hzero⟩
      | false => exact .inl hzero.symm
    · exact ⟨x, ofBits_signed hbits ▸ formatBinary_readsAs hfinite hm negative, .inl rfl⟩

/-- **Numbers survive the passage through text.** The text that a document shows for a double other
than NaN is a number that makes up the whole text, and reading it gives the double again, or zero
for a negative zero. So the number that one call gives is the number that another one takes it for. -/
theorem parseNumber?_formatNumber (x : Float) (hx : x.isNaN = false) :
    ∃ y, parseNumber? (formatNumber x) = some y ∧ parseWholeNumber? (formatNumber x) = some y ∧
      (y == x) = true ∧ (y = x ∨ y = 0 ∧ x = -0) ∧
      ∀ default, numberOr default (Node.textOf (numberNodes x)) = y := by
  obtain ⟨y, hreads, hy⟩ := exists_readsAs hx
  obtain ⟨hparse, hwhole⟩ := hreads.parse
  refine ⟨y, hparse, hwhole, ?_, hy, fun default => ?_⟩
  · rcases hy with rfl | ⟨rfl, rfl⟩
    · rw [Float.beq_self_iff]
      rintro rfl
      simp at hx
    · rfl
  · have htext : Node.textOf (numberNodes x) = formatNumber x := String.append_empty
    rw [htext, numberOr, hparse, Option.getD_some]

/-- The double nearest to a tenth is shown with one digit, and read again. -/
theorem parseNumber?_formatNumber_tenth :
    (Float.ofBits 0x3FB999999999999A).isNaN = false ∧
      formatNumber (Float.ofBits 0x3FB999999999999A) = "0.1" ∧
      ∃ y, parseNumber? "0.1" = some y ∧ (y == Float.ofBits 0x3FB999999999999A) = true := by
  have hx : (Float.ofBits 0x3FB999999999999A).isNaN = false := by decide +kernel
  have htext : formatNumber (Float.ofBits 0x3FB999999999999A) = "0.1" := by decide +kernel
  obtain ⟨y, hparse, -, hequal, -⟩ := parseNumber?_formatNumber _ hx
  rw [htext] at hparse
  exact ⟨hx, htext, y, hparse, hequal⟩

end Livedoc
