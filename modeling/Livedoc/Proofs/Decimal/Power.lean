import Livedoc.Decimal.Power
import Livedoc.Proofs.Decimal.Nearest

/-!
# The sign of a power

Setting the sign of a number leaves its other parts (`ofFloat_withSign`). So the sign of a power does
not hang on how its size is worked out: an odd power of a negative number has the sign set, and any
other power of a number has not. The exception is a power that is too large, which is positive
infinity whatever its sign should be (`ofFloat_power`).

The text of a number tells its sign, which zero and the undefined number do not have
(`showsPositive_power_iff`, `not_showsNegative_power`).

A size that is not worked out is at least the power of two that it is said to reach
(`two_zpow_reachedExponent_le`).
-/

namespace Livedoc.Decimal

open Livedoc.Text

/-! ## Setting a sign -/

/-- The parts of a number with the sign that is given. -/
def Binary.withSign (negative : Bool) : Binary → Binary
  | .nan => .nan
  | .infinite _ => .infinite negative
  | .finite _ mantissa exponent => .finite negative mantissa exponent

theorem signed_mod_signBit {bits : Nat} (h : bits ≤ infinityBits) (negative : Bool) :
    signed negative bits % signBit = bits := by
  have hinfinity : infinityBits = 9218868437227405312 := rfl
  have hsign : signBit = 9223372036854775808 := rfl
  rw [hinfinity] at h
  rw [signed, hsign]
  split <;> omega

/-- **Setting the sign of a number leaves its other parts.** -/
theorem ofFloat_withSign (negative : Bool) (x : Float) :
    Binary.ofFloat (withSign negative x) = (Binary.ofFloat x).withSign negative := by
  have hresign : ∀ {sign : Bool} {bits : Nat}, bits ≤ infinityBits →
      x.toBits.toNat = signed sign bits →
      Binary.ofFloat (withSign negative x) = Binary.ofBits (signed negative bits) := by
    intro sign bits hle hbits
    rw [← Binary.ofFloat_ofBits (signed_lt hle negative) (Binary.ofBits_ne_nan hle negative),
      withSign, hbits, signed_mod_signBit hle]
    rfl
  rcases Binary.ofBits_cases x.toBits.toNat_lt with ⟨-, hexponent, hfraction⟩ |
    ⟨sign, hparts, hbits⟩ | ⟨sign, m, e, hparts, hfinite, hbits⟩
  · have hnan := isNaN_of_bits hexponent hfraction
    rw [Float.isNaN_eq_decide_eq_nan, decide_eq_true_eq] at hnan
    subst hnan
    cases negative <;> rfl
  · rw [hresign le_rfl hbits, Binary.ofFloat, hparts]
    cases negative <;> rfl
  · rw [hresign hfinite.packed_lt.le hbits, Binary.ofFloat, hparts]
    exact Binary.ofBits_packed hfinite negative

theorem Binary.hasSign_withSign (negative : Bool) (b : Binary) :
    (b.withSign negative).hasSign = (negative && b != .nan) := by
  cases b <;> cases negative <;> rfl

/-! ## The sign of a text -/

/-- The text of a negative number. -/
def ShowsNegative (text : String) : Prop := text.toList.head? = some '-'

instance (text : String) : Decidable (ShowsNegative text) :=
  inferInstanceAs (Decidable (_ = _))

/-- The text of a positive number. Zero is not one, and what is undefined is none. -/
def ShowsPositive (text : String) : Prop := text ≠ "0" ∧ text ≠ "NaN" ∧ ¬ ShowsNegative text

instance (text : String) : Decidable (ShowsPositive text) :=
  inferInstanceAs (Decidable (_ ∧ _))

/-- What spells a number without a sign does not start with one. -/
theorem Spells.not_showsNegative {text : String} {q : ℚ} (h : Spells text false q) :
    ¬ ShowsNegative text := by
  intro hneg
  obtain ⟨value, exponent, -, hread⟩ := h
  obtain ⟨rest, hrest⟩ := List.head?_eq_some_iff.mp hneg
  have hsign : takeSign (trimStart ('-' :: rest)) = (true, rest) := by
    have htrim : trimStart ('-' :: rest) = '-' :: rest := List.dropWhile_cons_of_neg (by decide)
    rw [htrim, takeSign]
  rw [hrest] at hread
  change takeNumeral? ('-' :: rest) = _ at hread
  unfold takeNumeral? at hread
  simp only [hsign] at hread
  split at hread
  · simp at hread
  · split at hread <;> simp at hread

/-- Only the text of a number with its sign set is that of a negative number. -/
theorem hasSign_of_showsNegative {b : Binary} (h : ShowsNegative (formatBinary b)) :
    b.hasSign = true := by
  cases b with
  | nan => exact absurd h (by decide)
  | infinite negative =>
      cases negative with
      | true => rfl
      | false => exact absurd h (by decide)
  | finite negative m e =>
      cases negative with
      | true => rfl
      | false =>
          exfalso
          unfold formatBinary at h
          dsimp only at h
          split at h
          · exact absurd h (by decide)
          · split at h
            · exact (digitText_spells _ false).not_showsNegative h
            · exact (write_spells _ _ false).not_showsNegative h

/-- The text of a number with its sign set is not that of a positive number. -/
theorem not_showsPositive_of_hasSign {b : Binary} (h : b.hasSign = true) :
    ¬ ShowsPositive (formatBinary b) := by
  cases b with
  | nan => cases h
  | infinite negative =>
      obtain rfl : negative = true := h
      decide
  | finite negative m e =>
      obtain rfl : negative = true := h
      have hminus : ∀ text, ¬ ShowsPositive (signText true ++ text) := by
        intro text hpos
        exact hpos.2.2 (by simp [ShowsNegative, signText])
      unfold formatBinary
      dsimp only
      split
      · decide
      · split <;> exact hminus _

/-! ## The sign of a power -/

/-- The size of the power of two finite numbers is too large. -/
def Overflows (base exponent : Float) : Prop :=
  (Binary.ofFloat base).isFinite = true ∧ (Binary.ofFloat exponent).isFinite = true ∧
    (Binary.ofFloat (powerSize base exponent)).isInfinite = true

/-- Whether a number is an even integer. -/
def Binary.isEven : Binary → Bool
  | .finite _ mantissa exponent =>
    isWhole mantissa exponent && wholePart mantissa exponent % 2 == 0
  | _ => false

variable {base exponent : Float}

/-- **What a power is**: undefined, infinite where it is too large, or else its size with the
sign. -/
theorem ofFloat_power (base exponent : Float) :
    Binary.ofFloat (power base exponent) = .nan ∨
      Overflows base exponent ∧ Binary.ofFloat (power base exponent) = .infinite false ∨
      ¬ Overflows base exponent ∧ Binary.ofFloat (power base exponent) =
        (Binary.ofFloat (powerSize base exponent)).withSign
          ((Binary.ofFloat base).hasSign && (Binary.ofFloat exponent).isOdd) := by
  unfold power
  dsimp only
  split
  · exact .inl rfl
  · right
    split
    · next h =>
        left
        constructor
        · simpa [Overflows, and_assoc] using h
        · exact ofFloat_infinity false
    · next h =>
        right
        constructor
        · simpa [Overflows, and_assoc] using h
        · exact ofFloat_withSign _ _

/-- The sign of a power is set only if that of the base is and the exponent is odd. -/
theorem hasSign_power (h : (Binary.ofFloat (power base exponent)).hasSign = true) :
    (Binary.ofFloat base).hasSign = true ∧ (Binary.ofFloat exponent).isOdd = true := by
  rcases ofFloat_power base exponent with hnan | ⟨-, hinfinite⟩ | ⟨-, hsize⟩
  · rw [hnan] at h
    cases h
  · rw [hinfinite] at h
    cases h
  · rw [hsize, Binary.hasSign_withSign, Bool.and_eq_true, Bool.and_eq_true] at h
    exact h.1

theorem Binary.isInteger_of_isOdd {b : Binary} (h : b.isOdd = true) : b.isInteger = true := by
  cases b with
  | nan | infinite => cases h
  | finite negative m e => exact (Bool.and_eq_true_iff.mp h).1

theorem Binary.not_isOdd_of_isEven {b : Binary} (h : b.isEven = true) : b.isOdd = false := by
  cases b with
  | nan | infinite => cases h
  | finite negative m e =>
      have heven : wholePart m e % 2 = 0 := by
        simpa using (Bool.and_eq_true_iff.mp h).2
      simp [isOdd, heven]

/-- An odd power that is too large is positive infinity. -/
theorem power_of_overflows (h : Overflows base exponent)
    (hodd : (Binary.ofFloat exponent).isOdd = true) : power base exponent = infinity false := by
  obtain ⟨hbase, hexponent, hsize⟩ := h
  simp [power, hbase, hexponent, hsize, Binary.isInteger_of_isOdd hodd]

/-- **An odd power of a negative number is positive only if it is too large.** -/
theorem showsPositive_power_iff (hbase : (Binary.ofFloat base).isFiniteWith true = true)
    (hodd : (Binary.ofFloat exponent).isOdd = true) :
    ShowsPositive (formatNumber (power base exponent)) ↔ Overflows base exponent := by
  have hsign : (Binary.ofFloat base).hasSign = true := by
    cases hparts : Binary.ofFloat base with
    | nan | infinite =>
        rw [hparts] at hbase
        cases hbase
    | finite negative m e =>
        rw [hparts] at hbase
        simpa [Binary.hasSign] using (Bool.and_eq_true_iff.mp hbase).1
  constructor
  · intro hpos
    by_contra hover
    unfold formatNumber at hpos
    rcases ofFloat_power base exponent with hnan | ⟨hlarge, -⟩ | ⟨-, hsize⟩
    · rw [hnan] at hpos
      exact absurd hpos (by decide)
    · exact hover hlarge
    · rw [hsize, hsign, hodd] at hpos
      cases hparts : Binary.ofFloat (powerSize base exponent) with
      | nan =>
          rw [hparts] at hpos
          exact absurd hpos (by decide)
      | infinite | finite =>
          rw [hparts] at hpos
          exact not_showsPositive_of_hasSign rfl hpos
  · intro hover
    rw [power_of_overflows hover hodd]
    decide

/-- **A power is negative only if it is an odd one of a number with its sign set.** -/
theorem not_showsNegative_power
    (h : (Binary.ofFloat base).hasSign = false ∨ (Binary.ofFloat exponent).isEven = true) :
    ¬ ShowsNegative (formatNumber (power base exponent)) := by
  intro hneg
  obtain ⟨hsign, hodd⟩ := hasSign_power (hasSign_of_showsNegative hneg)
  apply h.elim
  · intro hpositive
    rw [hpositive] at hsign
    cases hsign
  · intro heven
    rw [Binary.not_isOdd_of_isEven heven] at hodd
    cases hodd

/-! ## Sizes that are not worked out -/

/-- **The size reaches the power of two that it is said to reach.** -/
theorem two_zpow_reachedExponent_le {m m' : Nat} (hm : m ≠ 0) (e e' : Int) (sign negative : Bool) :
    (2 : ℚ) ^ reachedExponent (.finite sign m e) (.finite negative m' e') ≤
      ((m : ℚ) * 2 ^ e) ^ truncate (.finite negative m' e') := by
  have hlog := two_zpow_log2_le (Nat.pos_of_ne_zero hm)
  have hlow : (2 : ℚ) ^ ((m.log2 : Int) + e) ≤ m * 2 ^ e := by
    rw [zpow_add₀ two_ne_zero]
    exact mul_le_mul_of_nonneg_right hlog.1 (by positivity)
  have hhigh : (m : ℚ) * 2 ^ e ≤ 2 ^ ((m.log2 : Int) + e + 1) := by
    rw [show (m.log2 : Int) + e + 1 = (m.log2 : Int) + 1 + e by omega, zpow_add₀ two_ne_zero]
    exact mul_le_mul_of_nonneg_right hlog.2.le (by positivity)
  have hpos : (0 : ℚ) < m * 2 ^ e := lt_of_lt_of_le (by positivity) hlow
  unfold reachedExponent truncate
  dsimp only
  rw [if_neg hm]
  cases negative with
  | false =>
      rw [if_neg (by simp), if_neg (by simp), zpow_mul, zpow_natCast, zpow_natCast]
      exact pow_le_pow_left₀ (by positivity) hlow _
  | true =>
      rw [if_pos rfl, if_pos rfl, neg_mul, zpow_neg, zpow_neg, zpow_mul, zpow_natCast, zpow_natCast]
      apply inv_anti₀ (by positivity)
      exact pow_le_pow_left₀ hpos.le hhigh _

end Livedoc.Decimal
