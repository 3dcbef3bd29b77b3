import Livedoc.Decimal.Shortest
import Mathlib.Algebra.Order.Field.Basic
import Mathlib.Algebra.Order.Field.Power
import Mathlib.Tactic.FieldSimp
import Mathlib.Tactic.Linarith
import Mathlib.Tactic.NormNum
import Mathlib.Tactic.Positivity
import Mathlib.Tactic.Ring

/-!
# Which quotients round to a double

A double is a mantissa times a power of two, and the numbers that round to it make up an interval
around it (`Rounds`): half a unit of its last place to either side, or a quarter below the least
full mantissa, where the doubles begin to lie twice as dense. The ends belong to the interval if the
mantissa is even.

`nearestBits` finds the double of a quotient by integer arithmetic. The exponent that it takes is
the least with which the quotient fits into a mantissa (`exists_nearestBits`). In the interval of a
double this is the exponent of the double, but for the quarter below a full mantissa, where it is
less by one, and the mantissa is rounded up to where it carries (`IsFinite.eq_or_of_rounds`). So a
quotient in the interval of a double rounds to it (`nearestBits_eq`).

Quotients of natural numbers are compared as rational numbers here.
-/

namespace Livedoc.Decimal

/-! ## Powers as quotients -/

/-- A power with an exponent of either sign as a quotient of natural numbers. -/
private theorem quotient_eq_zpow (base : Nat) (hbase : 0 < base) {e : Int} {p : Nat × Nat}
    (hp : p = if e < 0 then (1, Nat.pow base (-e).toNat) else (Nat.pow base e.toNat, 1)) :
    0 < p.1 ∧ 0 < p.2 ∧ (p.1 : ℚ) / p.2 = (base : ℚ) ^ e := by
  subst hp
  split
  · next h =>
    obtain ⟨n, rfl⟩ : ∃ n : Nat, e = -n := ⟨(-e).toNat, by omega⟩
    exact ⟨Nat.one_pos, Nat.pow_pos hbase, by simp [Nat.pow_eq]⟩
  · next h =>
    obtain ⟨n, rfl⟩ : ∃ n : Nat, e = n := ⟨e.toNat, by omega⟩
    exact ⟨Nat.pow_pos hbase, Nat.one_pos, by simp [Nat.pow_eq]⟩

theorem powerOfTwo_fst_pos (e : Int) : 0 < (powerOfTwo e).1 :=
  (quotient_eq_zpow 2 Nat.two_pos rfl).1

theorem powerOfTwo_snd_pos (e : Int) : 0 < (powerOfTwo e).2 :=
  (quotient_eq_zpow 2 Nat.two_pos rfl).2.1

theorem powerOfTwo_div (e : Int) : ((powerOfTwo e).1 : ℚ) / (powerOfTwo e).2 = 2 ^ e :=
  (quotient_eq_zpow 2 Nat.two_pos rfl).2.2

theorem powerOfTen_fst_pos (e : Int) : 0 < (powerOfTen e).1 :=
  (quotient_eq_zpow 10 (by decide) rfl).1

theorem powerOfTen_snd_pos (e : Int) : 0 < (powerOfTen e).2 :=
  (quotient_eq_zpow 10 (by decide) rfl).2.1

theorem powerOfTen_div (e : Int) : ((powerOfTen e).1 : ℚ) / (powerOfTen e).2 = 10 ^ e :=
  (quotient_eq_zpow 10 (by decide) rfl).2.2

/-! ## Rounding a quotient -/

/-- A quotient rounds to a number that it is at most half a unit away from. Where it is just half
a unit, this is the even one. -/
theorem roundDiv_eq {num den n : Nat} (hlow : 2 * (n * den) ≤ 2 * num + den)
    (hhigh : 2 * num ≤ 2 * (n * den) + den)
    (heven : n % 2 = 0 ∨ 2 * (n * den) < 2 * num + den ∧ 2 * num < 2 * (n * den) + den)
    (hden : 0 < den) : roundDiv num den = n := by
  have hdiv := Nat.div_add_mod num den
  have hmod := Nat.mod_lt num hden
  have hcomm : num / den * den = den * (num / den) := Nat.mul_comm _ _
  have hfloor : n = num / den ∨ n = num / den + 1 := by
    have hle : n ≤ num / den + 1 := by
      by_contra hgt
      have hmul : (num / den + 2) * den ≤ n * den := Nat.mul_le_mul_right den (by omega)
      rw [Nat.add_mul, hcomm] at hmul
      omega
    have hge : num / den ≤ n := by
      by_contra hlt
      have hmul : (n + 1) * den ≤ num / den * den := Nat.mul_le_mul_right den (by omega)
      rw [Nat.add_mul, hcomm] at hmul
      omega
    omega
  unfold roundDiv
  dsimp only
  rcases hfloor with rfl | rfl
  · rw [hcomm] at hhigh heven
    split
    · rfl
    · split
      · omega
      · split
        · rfl
        · omega
  · rw [Nat.add_mul, hcomm] at hlow heven
    split
    · omega
    · split
      · rfl
      · split
        · omega
        · rfl

/-- The same, said of the quotient. -/
theorem roundDiv_eq_of_div {num den n : Nat} (hden : 0 < den)
    (hlow : (n : ℚ) - 1 / 2 ≤ (num : ℚ) / den) (hhigh : (num : ℚ) / den ≤ n + 1 / 2)
    (heven : n % 2 = 0 ∨ (n : ℚ) - 1 / 2 < (num : ℚ) / den ∧ (num : ℚ) / den < n + 1 / 2) :
    roundDiv num den = n := by
  have hpos : (0 : ℚ) < den := Nat.cast_pos.mpr hden
  rw [le_div_iff₀ hpos] at hlow
  rw [div_le_iff₀ hpos] at hhigh
  rw [lt_div_iff₀ hpos, div_lt_iff₀ hpos] at heven
  refine roundDiv_eq ?_ ?_ (heven.imp_right fun hstrict => ⟨?_, ?_⟩) hden
  · have : (2 * (n * den) : ℚ) ≤ 2 * num + den := by linarith
    exact_mod_cast this
  · have : (2 * num : ℚ) ≤ 2 * (n * den) + den := by linarith
    exact_mod_cast this
  · have : (2 * (n * den) : ℚ) < 2 * num + den := by linarith [hstrict.1]
    exact_mod_cast this
  · have : (2 * num : ℚ) < 2 * (n * den) + den := by linarith [hstrict.2]
    exact_mod_cast this

/-! ## Finite doubles -/

/-- The mantissa and the exponent of a finite double: a full mantissa, or the exponent of the
subnormal numbers. -/
structure IsFinite (mantissa : Nat) (exponent : Int) : Prop where
  mantissa_lt : mantissa < 2 * leadingBit
  le_exponent : -1074 ≤ exponent
  exponent_le : exponent ≤ 971
  full : leadingBit ≤ mantissa ∨ exponent = -1074

/-- The bits of a finite double without its sign. -/
def packed (mantissa : Nat) (exponent : Int) : Nat :=
  if mantissa < leadingBit then mantissa
  else (exponent + 1075).toNat * leadingBit + (mantissa - leadingBit)

theorem IsFinite.packed_lt {m : Nat} {e : Int} (h : IsFinite m e) : packed m e < infinityBits := by
  have hlt := h.mantissa_lt
  have hle := h.exponent_le
  unfold packed infinityBits
  split
  · omega
  · have hmul : (e + 1075).toNat * leadingBit ≤ 2046 * leadingBit :=
      Nat.mul_le_mul_right _ (by omega)
    omega

/-! ## The exponent of the nearest double -/

variable {num den : Nat}

/-- The bit length of a number. -/
theorem two_zpow_log2_le (h : 0 < num) : (2 : ℚ) ^ (num.log2 : Int) ≤ num ∧
    (num : ℚ) < 2 ^ ((num.log2 : Int) + 1) := by
  constructor
  · exact_mod_cast Nat.log2_self_le h.ne'
  · exact_mod_cast Nat.lt_log2_self

/-- A quotient in units of a power of two. -/
theorem scaled_div (num den : Nat) (e : Int) :
    ((num * (powerOfTwo e).2 : Nat) : ℚ) / (den * (powerOfTwo e).1 : Nat) =
      (num : ℚ) / den / 2 ^ e := by
  rw [← powerOfTwo_div]
  push_cast
  rw [div_div_div_eq]

theorem scaled_den_pos (hden : 0 < den) (e : Int) : 0 < den * (powerOfTwo e).1 :=
  Nat.mul_pos hden (powerOfTwo_fst_pos e)

theorem fits_iff (num : Nat) (hden : 0 < den) (e : Int) :
    num * (powerOfTwo e).2 / (den * (powerOfTwo e).1) < 2 * leadingBit ↔
      (num : ℚ) / den < 2 ^ (e + 53) := by
  have hpos : (0 : ℚ) < (den * (powerOfTwo e).1 : Nat) := Nat.cast_pos.mpr (scaled_den_pos hden e)
  have hbits : ((2 * leadingBit : Nat) : ℚ) = 2 ^ (53 : Int) := by norm_num [leadingBit]
  rw [Nat.div_lt_iff_lt_mul (scaled_den_pos hden e), ← Nat.cast_lt (α := ℚ),
    Nat.cast_mul (2 * leadingBit), ← div_lt_iff₀ hpos, scaled_div, hbits,
    div_lt_iff₀ (by positivity), ← zpow_add₀ two_ne_zero, add_comm]

/-- The exponent that is found is the least one with which the quotient has no more bits than a
mantissa, unless that would be less than the exponent of subnormal numbers. -/
theorem exists_nearestBits (hnum : 0 < num) (hden : 0 < den) : ∃ e : Int,
    (num : ℚ) / den < 2 ^ (e + 53) ∧ -1074 ≤ e ∧
      (e = -1074 ∨ (2 : ℚ) ^ (e + 52) ≤ (num : ℚ) / den) ∧
      nearestBits num den = min
        (packed (roundDiv (num * (powerOfTwo e).2) (den * (powerOfTwo e).1)) e) infinityBits := by
  let low : Int := (num.log2 : Int) - den.log2 - 53
  have hpos : (0 : ℚ) < den := Nat.cast_pos.mpr hden
  obtain ⟨hnumLow, hnumHigh⟩ := two_zpow_log2_le hnum
  obtain ⟨hdenLow, hdenHigh⟩ := two_zpow_log2_le hden
  have hlow : (2 : ℚ) ^ (low + 52) ≤ (num : ℚ) / den := by
    rw [le_div_iff₀ hpos]
    calc (2 : ℚ) ^ (low + 52) * den
        ≤ 2 ^ (low + 52) * 2 ^ ((den.log2 : Int) + 1) := by gcongr
      _ = 2 ^ (num.log2 : Int) := by
          rw [← zpow_add₀ two_ne_zero]
          congr 1
          omega
      _ ≤ num := hnumLow
  have hhigh : (num : ℚ) / den < 2 ^ (low + 1 + 53) := by
    rw [div_lt_iff₀ hpos]
    calc (num : ℚ) < 2 ^ ((num.log2 : Int) + 1) := hnumHigh
      _ = 2 ^ (low + 1 + 53) * 2 ^ (den.log2 : Int) := by
          rw [← zpow_add₀ two_ne_zero]
          congr 1
          omega
      _ ≤ 2 ^ (low + 1 + 53) * den := by gcongr
  -- of the two exponents that the bit lengths allow, the least that fits
  let fitting : Int := if (num : ℚ) / den < 2 ^ (low + 53) then low else low + 1
  have hfitting : (num : ℚ) / den < 2 ^ (fitting + 53) ∧
      (2 : ℚ) ^ (fitting + 52) ≤ (num : ℚ) / den := by
    by_cases hfits : (num : ℚ) / den < 2 ^ (low + 53)
    · simp only [fitting, if_pos hfits]
      exact ⟨hfits, hlow⟩
    · simp only [fitting, if_neg hfits]
      refine ⟨hhigh, ?_⟩
      rw [show low + 1 + 52 = low + 53 by omega]
      exact not_lt.mp hfits
  refine ⟨max (-1074) fitting, ?_, le_max_left _ _, ?_, ?_⟩
  · refine hfitting.1.trans_le (zpow_le_zpow_right₀ one_le_two ?_)
    omega
  · rcases le_total fitting (-1074) with hle | hle
    · exact .inl (max_eq_left hle)
    · exact .inr (by rw [max_eq_right hle]; exact hfitting.2)
  · have hfitsLow := fits_iff num hden low
    simp only [nearestBits, if_neg hnum.ne', packed, decide_eq_true_eq, fitting, ← hfitsLow]
    rfl

/-! ## The interval of a double -/

/-- How far the interval of a double reaches below it, in quarters of its last place. -/
def quartersBelow (m : Nat) (e : Int) : Nat := if m = leadingBit && e != -1074 then 1 else 2

/-- A number lies in the interval of a double. -/
structure Rounds (m : Nat) (e : Int) (q : ℚ) : Prop where
  low : ((m : ℚ) - quartersBelow m e / 4) * 2 ^ e ≤ q
  high : q ≤ ((m : ℚ) + 1 / 2) * 2 ^ e
  strict : m % 2 = 0 ∨
    ((m : ℚ) - quartersBelow m e / 4) * 2 ^ e < q ∧ q < ((m : ℚ) + 1 / 2) * 2 ^ e

theorem quartersBelow_le (m : Nat) (e : Int) : quartersBelow m e ≤ 2 := by
  unfold quartersBelow
  split <;> omega

theorem leadingBit_eq : (leadingBit : ℚ) = 2 ^ (52 : Int) := by norm_num [leadingBit]

theorem two_zpow_add (e n : Int) : (2 : ℚ) ^ (e + n) = 2 ^ n * 2 ^ e := by
  rw [add_comm, zpow_add₀ two_ne_zero]

/-- A number in the interval of a double fits into its exponent. -/
theorem Rounds.lt_two_zpow {m : Nat} {e : Int} {q : ℚ} (hq : Rounds m e q) (h : IsFinite m e) :
    q < 2 ^ (e + 53) := by
  have hunit : (0 : ℚ) < 2 ^ e := by positivity
  have hmantissa : (m : ℚ) + 1 ≤ 2 * leadingBit := by exact_mod_cast h.mantissa_lt
  have hfull : 2 * (leadingBit : ℚ) = 2 ^ (53 : Int) := by
    rw [leadingBit_eq]
    norm_num
  rw [two_zpow_add]
  apply hq.high.trans_lt
  apply mul_lt_mul_of_pos_right _ hunit
  linarith

/-- Above the least full mantissa it needs a full one. -/
theorem Rounds.two_zpow_le {m : Nat} {e : Int} {q : ℚ} (hq : Rounds m e q) (hm : leadingBit < m) :
    (2 : ℚ) ^ (e + 52) ≤ q := by
  have hquarters : (quartersBelow m e : ℚ) ≤ 2 := by exact_mod_cast quartersBelow_le m e
  have hnext : (leadingBit : ℚ) + 1 ≤ m := by exact_mod_cast hm
  rw [two_zpow_add, ← leadingBit_eq]
  apply le_trans _ hq.low
  apply mul_le_mul_of_nonneg_right _ (by positivity)
  linarith

/-- At the least full mantissa it needs a full one with the exponent below. -/
theorem Rounds.two_zpow_le_of_least {e : Int} {q : ℚ} (hq : Rounds leadingBit e q) :
    (2 : ℚ) ^ (e + 51) ≤ q := by
  have hquarters : (quartersBelow leadingBit e : ℚ) ≤ 2 := by
    exact_mod_cast quartersBelow_le leadingBit e
  rw [two_zpow_add]
  apply le_trans _ hq.low
  apply mul_le_mul_of_nonneg_right _ (by positivity)
  rw [leadingBit_eq]
  norm_num
  linarith

/-- The exponent with which a number in the interval of a double is rounded is the one of the
double. Only next to the least full mantissa it may be less by one. -/
theorem IsFinite.eq_or_of_rounds {m : Nat} {e e' : Int} {q : ℚ} (h : IsFinite m e)
    (hq : Rounds m e q) (hlt : q < 2 ^ (e' + 53)) (hle : -1074 ≤ e')
    (hge : e' = -1074 ∨ (2 : ℚ) ^ (e' + 52) ≤ q) :
    e' = e ∨ m = leadingBit ∧ e ≠ -1074 ∧ e' = e - 1 := by
  have hexponents {n : Int} (hn : (2 : ℚ) ^ (e + n) ≤ q) : e + n < e' + 53 :=
    (zpow_lt_zpow_iff_right₀ one_lt_two).mp (hn.trans_lt hlt)
  have hnotAbove : e' ≤ e := by
    by_contra habove
    have hfloor : (2 : ℚ) ^ (e' + 52) ≤ q := hge.resolve_left (by have := h.le_exponent; omega)
    have hexp := (zpow_lt_zpow_iff_right₀ one_lt_two).mp (hfloor.trans_lt (hq.lt_two_zpow h))
    omega
  rcases hnotAbove.eq_or_lt with heq | hbelow
  · exact .inl heq
  · have hne : e ≠ -1074 := by omega
    rcases (h.full.resolve_right hne).eq_or_lt with hleast | hmore
    · subst hleast
      have hexp := hexponents hq.two_zpow_le_of_least
      exact .inr ⟨rfl, hne, by omega⟩
    · have hexp := hexponents (hq.two_zpow_le hmore)
      omega

theorem Rounds.pos {m : Nat} {e : Int} {q : ℚ} (hq : Rounds m e q) (hm : 0 < m) : 0 < q := by
  have hquarters : (quartersBelow m e : ℚ) ≤ 2 := by exact_mod_cast quartersBelow_le m e
  have hone : (1 : ℚ) ≤ m := by exact_mod_cast hm
  refine lt_of_lt_of_le ?_ hq.low
  apply mul_pos
  · linarith
  · positivity

/-- A number in the interval of a double is rounded to its mantissa. -/
theorem Rounds.roundDiv_eq {m : Nat} {e : Int} (hden : 0 < den)
    (hq : Rounds m e ((num : ℚ) / den)) :
    roundDiv (num * (powerOfTwo e).2) (den * (powerOfTwo e).1) = m := by
  have hunit : (0 : ℚ) < 2 ^ e := by positivity
  have hquarters : (quartersBelow m e : ℚ) ≤ 2 := by exact_mod_cast quartersBelow_le m e
  obtain ⟨hlow, hhigh, hstrict⟩ := hq
  rw [← le_div_iff₀ hunit] at hlow
  rw [← div_le_iff₀ hunit] at hhigh
  rw [← lt_div_iff₀ hunit, ← div_lt_iff₀ hunit] at hstrict
  apply roundDiv_eq_of_div (scaled_den_pos hden e)
  · rw [scaled_div]
    linarith
  · rw [scaled_div]
    exact hhigh
  · rw [scaled_div]
    refine hstrict.imp_right fun h => ⟨?_, h.2⟩
    linarith [h.1]

/-- Just below the least full mantissa, in units of half the size, a number is rounded to the
least number that is too large for a mantissa. -/
theorem Rounds.roundDiv_eq_carry {e : Int} (hden : 0 < den) (he : e ≠ -1074)
    (hq : Rounds leadingBit e ((num : ℚ) / den)) (hlt : (num : ℚ) / den < 2 ^ (e + 52)) :
    roundDiv (num * (powerOfTwo (e - 1)).2) (den * (powerOfTwo (e - 1)).1) = 2 * leadingBit := by
  have hunit : (0 : ℚ) < 2 ^ (e - 1) := by positivity
  have hdouble : (2 : ℚ) ^ e = 2 * 2 ^ (e - 1) := by
    rw [← zpow_one_add₀ two_ne_zero]
    congr 1
    omega
  have hquarters : quartersBelow leadingBit e = 1 := by simp [quartersBelow, he]
  have hlow := hq.low
  rw [hquarters, hdouble, ← mul_assoc, ← le_div_iff₀ hunit] at hlow
  rw [zpow_add₀ two_ne_zero, hdouble, mul_right_comm, ← div_lt_iff₀ hunit, ← leadingBit_eq] at hlt
  apply roundDiv_eq_of_div (scaled_den_pos hden (e - 1))
  · rw [scaled_div]
    push_cast
    norm_num at hlow ⊢
    linarith
  · rw [scaled_div]
    push_cast
    linarith
  · exact .inl (Nat.mul_mod_right 2 leadingBit)

/-- **A number in the interval of a double rounds to it.** -/
theorem nearestBits_eq {m : Nat} {e : Int} (h : IsFinite m e) (hm : 0 < m) (hden : 0 < den)
    (hq : Rounds m e ((num : ℚ) / den)) : nearestBits num den = packed m e := by
  have hnum : 0 < num := by
    have hpos := hq.pos hm
    by_contra hzero
    obtain rfl : num = 0 := by omega
    simp at hpos
  obtain ⟨e', hlt, hle, hge, hbits⟩ := exists_nearestBits hnum hden
  have hfinite := h.packed_lt
  rcases h.eq_or_of_rounds hq hlt hle hge with rfl | ⟨rfl, he, rfl⟩
  · rw [hbits, hq.roundDiv_eq hden]
    exact min_eq_left hfinite.le
  · -- the carry goes to the exponent
    have hcarry : packed (2 * leadingBit) (e - 1) = packed leadingBit e := by
      have hexponent : (e + 1075).toNat = (e - 1 + 1075).toNat + 1 := by
        have := h.le_exponent
        omega
      simp only [packed, if_neg (Nat.not_lt.mpr (Nat.le_mul_of_pos_left leadingBit Nat.two_pos)),
        if_neg (lt_irrefl leadingBit), hexponent, Nat.add_mul]
      omega
    rw [show e - 1 + 53 = e + 52 by omega] at hlt
    rw [hbits, hq.roundDiv_eq_carry hden he hlt, hcarry]
    exact min_eq_left hfinite.le

end Livedoc.Decimal
