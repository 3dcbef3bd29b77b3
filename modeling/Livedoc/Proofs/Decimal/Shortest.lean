import Livedoc.Proofs.Decimal.Rounding
import Mathlib.Algebra.Order.Floor.Defs

/-!
# The shortest decimal lies in the interval

The search for the shortest decimal of a double goes from coarse grids of decimals to finer ones and
stops where a neighbour of the double lies in its interval. So what it finds lies there
(`rounds_of_onGrid?`), and it is the value of the digits that are given, since trailing zeros that
are dropped are made up for by the place of the point (`dropZeros_spec`).

It always finds something. The last grid has steps of less than `10 ^ -16` of the double, and the
interval is wider than that, because a mantissa is less than `10 ^ 16` (`shortest_rounds`).
-/

namespace Livedoc.Decimal

variable {m num den : Nat} {e : Int}

/-! ## Numbers of digits -/

theorem lt_pow_digitCount (n : Nat) : n < 10 ^ digitCount n :=
  (Nat.length_toDigits_le_iff (by decide) Nat.length_toDigits_pos).mp le_rfl

theorem digitCount_pos (n : Nat) : 0 < digitCount n := Nat.length_toDigits_pos

/-- A number with more than one digit reaches the power with as many zeros less one. -/
theorem pow_le_of_lt_digitCount {n k : Nat} (hn : 0 < n) (hk : k < digitCount n) : 10 ^ k ≤ n := by
  rcases Nat.eq_zero_or_pos k with rfl | hpos
  · exact hn
  · by_contra hlt
    have hle := (Nat.length_toDigits_le_iff (b := 10) (by decide) hpos).mpr (not_le.mp hlt)
    exact absurd hk (not_lt.mpr hle)

theorem digitCount_mul_ten {n : Nat} (hn : 0 < n) : digitCount (n * 10) = digitCount n + 1 := by
  unfold digitCount
  rw [Nat.toDigits_of_base_le (by decide) (by omega), Nat.mul_div_cancel n (by decide),
    List.length_append]
  rfl

/-- Trailing zeros that are dropped stand for a power of ten. -/
theorem dropZeros_spec (fuel : Nat) : ∀ {n : Nat}, 0 < n →
    ∃ k, 0 < dropZeros fuel n ∧ n = dropZeros fuel n * 10 ^ k ∧
      digitCount n = digitCount (dropZeros fuel n) + k := by
  induction fuel with
  | zero => exact fun hn => ⟨0, hn, (Nat.mul_one _).symm, rfl⟩
  | succ fuel ih =>
      intro n hn
      unfold dropZeros
      split
      · next h =>
        have hdvd : n % 10 = 0 := by simp_all
        have hvalue : n = n / 10 * 10 := by omega
        have hpos : 0 < n / 10 := by omega
        obtain ⟨k, hdrop, hrest, hcount⟩ := ih hpos
        refine ⟨k + 1, hdrop, ?_, ?_⟩
        · rw [Nat.pow_succ, ← Nat.mul_assoc, ← hrest]
          exact hvalue
        · rw [hvalue, digitCount_mul_ten hpos, Nat.mul_div_cancel _ (by decide), hcount]
          omega
      · exact ⟨0, hn, (Nat.mul_one _).symm, rfl⟩

/-- The first digit of a quotient has at most its leading exponent. -/
theorem leadingExponent_le (hnum : 0 < num) (hden : 0 < den) :
    (10 : ℚ) ^ leadingExponent num den ≤ (num : ℚ) / den := by
  have hpos : (0 : ℚ) < den := Nat.cast_pos.mpr hden
  unfold leadingExponent
  split
  · next hle =>
    have hfloor : 0 < num / den := Nat.div_pos hle hden
    have hcount := digitCount_pos (num / den)
    have hten : 10 ^ (digitCount (num / den) - 1) ≤ num / den :=
      pow_le_of_lt_digitCount hfloor (by omega)
    have hmul : 10 ^ (digitCount (num / den) - 1) * den ≤ num :=
      (Nat.le_div_iff_mul_le hden).mp hten
    rw [le_div_iff₀ hpos, show (digitCount (num / den) : Int) - 1 =
      ((digitCount (num / den) - 1 : Nat) : Int) by omega, zpow_natCast]
    exact_mod_cast hmul
  · next hlt =>
    let ceil := (den + num - 1) / num
    have hceil : den ≤ ceil * num := by
      have hdiv := Nat.div_add_mod (den + num - 1) num
      have hmod := Nat.mod_lt (den + num - 1) hnum
      have hcomm : ceil * num = num * ceil := Nat.mul_comm _ _
      have hsame : num * ((den + num - 1) / num) = num * ceil := rfl
      omega
    have hcount := lt_pow_digitCount (ceil - 1)
    have hden' : den ≤ 10 ^ digitCount (ceil - 1) * num :=
      hceil.trans (Nat.mul_le_mul_right num (by omega))
    show (10 : ℚ) ^ (-(digitCount (ceil - 1) : Int)) ≤ _
    rw [zpow_neg, zpow_natCast, le_div_iff₀ hpos, inv_mul_le_iff₀ (by positivity)]
    exact_mod_cast hden'

/-! ## The interval of a double -/

theorem two_zpow_sub_two (e : Int) : (2 : ℚ) ^ (e - 2) = 2 ^ e / 4 := by
  rw [zpow_sub₀ two_ne_zero]
  norm_num

theorem Interval.of_den_pos (m : Nat) (e : Int) : 0 < (Interval.of m e).den :=
  powerOfTwo_snd_pos _

/-- The center of the interval is the double. -/
theorem Interval.of_center (m : Nat) (e : Int) :
    ((Interval.of m e).center : ℚ) / (Interval.of m e).den = m * 2 ^ e := by
  show ((4 * m * (powerOfTwo (e - 2)).1 : Nat) : ℚ) / (powerOfTwo (e - 2)).2 = _
  push_cast
  rw [mul_div_assoc, powerOfTwo_div, two_zpow_sub_two]
  ring

theorem Interval.of_low (hm : 0 < m) (e : Int) :
    ((Interval.of m e).low : ℚ) / (Interval.of m e).den =
      ((m : ℚ) - quartersBelow m e / 4) * 2 ^ e := by
  have hle : quartersBelow m e ≤ 4 * m := (quartersBelow_le m e).trans (by omega)
  show (((4 * m - quartersBelow m e) * (powerOfTwo (e - 2)).1 : Nat) : ℚ) /
    (powerOfTwo (e - 2)).2 = _
  rw [Nat.cast_mul, Nat.cast_sub hle, mul_div_assoc, powerOfTwo_div, two_zpow_sub_two]
  push_cast
  ring

theorem Interval.of_high (m : Nat) (e : Int) :
    ((Interval.of m e).high : ℚ) / (Interval.of m e).den = ((m : ℚ) + 1 / 2) * 2 ^ e := by
  show (((4 * m + 2) * (powerOfTwo (e - 2)).1 : Nat) : ℚ) / (powerOfTwo (e - 2)).2 = _
  push_cast
  rw [mul_div_assoc, powerOfTwo_div, two_zpow_sub_two]
  ring

/-- What lies in the interval by integer arithmetic lies in it. -/
theorem Interval.holds_iff (hm : 0 < m) (hden : 0 < den) :
    (Interval.of m e).holds num den = true ↔ Rounds m e ((num : ℚ) / den) := by
  have hpos : (0 : ℚ) < den := Nat.cast_pos.mpr hden
  have hcommon : (0 : ℚ) < (Interval.of m e).den := Nat.cast_pos.mpr (Interval.of_den_pos m e)
  have hlow : ((Interval.of m e).low * den ≤ num * (Interval.of m e).den ↔
      ((m : ℚ) - quartersBelow m e / 4) * 2 ^ e ≤ (num : ℚ) / den) ∧
      ((Interval.of m e).low * den < num * (Interval.of m e).den ↔
        ((m : ℚ) - quartersBelow m e / 4) * 2 ^ e < (num : ℚ) / den) := by
    rw [← Interval.of_low hm, div_le_div_iff₀ hcommon hpos, div_lt_div_iff₀ hcommon hpos]
    constructor <;> exact_mod_cast Iff.rfl
  have hhigh : (num * (Interval.of m e).den ≤ (Interval.of m e).high * den ↔
      (num : ℚ) / den ≤ ((m : ℚ) + 1 / 2) * 2 ^ e) ∧
      (num * (Interval.of m e).den < (Interval.of m e).high * den ↔
        (num : ℚ) / den < ((m : ℚ) + 1 / 2) * 2 ^ e) := by
    rw [← Interval.of_high, div_le_div_iff₀ hpos hcommon, div_lt_div_iff₀ hpos hcommon]
    constructor <;> exact_mod_cast Iff.rfl
  have hclosed : (Interval.of m e).closed = decide (m % 2 = 0) := rfl
  unfold Interval.holds
  by_cases heven : m % 2 = 0
  · simp only [hclosed, heven, decide_true, if_true, Bool.and_eq_true, decide_eq_true_eq, hlow.1,
      hhigh.1]
    exact ⟨fun h => ⟨h.1, h.2, .inl heven⟩, fun h => ⟨h.low, h.high⟩⟩
  · simp only [hclosed, heven, decide_false, Bool.false_eq_true, if_false, Bool.and_eq_true,
      decide_eq_true_eq, hlow.2, hhigh.2]
    exact ⟨fun h => ⟨h.1.le, h.2.le, .inr h⟩, fun h => h.strict.resolve_left heven⟩

/-! ## The search -/

/-- A number on a grid of decimals. -/
theorem grid_div (n : Nat) (t : Int) :
    ((n * (powerOfTen t).1 : Nat) : ℚ) / (powerOfTen t).2 = n * 10 ^ t := by
  rw [Nat.cast_mul, mul_div_assoc, powerOfTen_div]

theorem holds_grid_iff (hm : 0 < m) (n : Nat) (t : Int) :
    (Interval.of m e).holds (n * (powerOfTen t).1) (powerOfTen t).2 = true ↔
      Rounds m e (n * 10 ^ t) := by
  rw [Interval.holds_iff hm (powerOfTen_snd_pos t), grid_div]

/-- What is found on a grid lies in the interval. -/
theorem rounds_of_onGrid? (hm : 0 < m) {t : Int} {n : Nat}
    (h : (Interval.of m e).onGrid? t = some n) : Rounds m e (n * 10 ^ t) := by
  rw [← holds_grid_iff hm]
  unfold Interval.onGrid? at h
  dsimp only at h
  split at h
  · next hboth =>
    obtain ⟨hdown, hup⟩ := Bool.and_eq_true_iff.mp hboth
    split at h
    · cases h
      exact hdown
    · cases h
      exact hup
  · split at h
    · next hdown =>
      cases h
      exact hdown
    · split at h
      · next hup =>
        cases h
        exact hup
      · cases h

/-- Nothing is found on a grid only where neither neighbour of the center lies in the interval. -/
theorem Interval.holds_eq_false_of_onGrid? {i : Interval} {t : Int}
    (h : ¬ (i.onGrid? t).isSome = true) :
    let down := i.center * (powerOfTen t).2 / (i.den * (powerOfTen t).1)
    i.holds (down * (powerOfTen t).1) (powerOfTen t).2 = false ∧
      i.holds ((down + 1) * (powerOfTen t).1) (powerOfTen t).2 = false := by
  intro down
  unfold Interval.onGrid? at h
  dsimp only at h
  split at h
  · split at h <;> exact absurd rfl h
  · split at h
    · exact absurd rfl h
    · next hdown =>
      split at h
      · exact absurd rfl h
      · next hup => exact ⟨Bool.eq_false_iff.mpr hdown, Bool.eq_false_iff.mpr hup⟩

/-- A number strictly between the ends of the interval lies in it. -/
theorem Rounds.of_between {q : ℚ} (hlow : ((m : ℚ) - quartersBelow m e / 4) * 2 ^ e < q)
    (hhigh : q < ((m : ℚ) + 1 / 2) * 2 ^ e) : Rounds m e q := ⟨hlow.le, hhigh.le, .inr ⟨hlow, hhigh⟩⟩

/-- On a grid that is finer than the interval is wide something is found. -/
theorem onGrid?_isSome (hm : 0 < m) {t : Int}
    (hwidth : (10 : ℚ) ^ t < (1 / 2 + quartersBelow m e / 4) * 2 ^ e) :
    ((Interval.of m e).onGrid? t).isSome = true := by
  let i := Interval.of m e
  let down := i.center * (powerOfTen t).2 / (i.den * (powerOfTen t).1)
  have hunit : (0 : ℚ) < 2 ^ e := by positivity
  have hquarters : 0 < (quartersBelow m e : ℚ) := by
    unfold quartersBelow
    split <;> norm_num
  have hten : (0 : ℚ) < 10 ^ t := by positivity
  have hden : 0 < i.den * (powerOfTen t).1 :=
    Nat.mul_pos (Interval.of_den_pos m e) (powerOfTen_fst_pos t)
  have hden' : (0 : ℚ) < (i.den * (powerOfTen t).1 : Nat) := Nat.cast_pos.mpr hden
  have hcenter : ((i.center * (powerOfTen t).2 : Nat) : ℚ) / (i.den * (powerOfTen t).1 : Nat) =
      m * 2 ^ e / 10 ^ t := by
    rw [← Interval.of_center, ← powerOfTen_div]
    push_cast
    rw [div_div_div_eq]
  have hfloor : (down : ℚ) * 10 ^ t ≤ m * 2 ^ e := by
    rw [← le_div_iff₀ hten, ← hcenter, le_div_iff₀ hden']
    exact_mod_cast Nat.div_mul_le_self _ _
  have hceil : (m : ℚ) * 2 ^ e < ((down + 1 : Nat) : ℚ) * 10 ^ t := by
    rw [← div_lt_iff₀ hten, ← hcenter, div_lt_iff₀ hden']
    exact_mod_cast (Nat.div_lt_iff_lt_mul hden).mp (Nat.lt_succ_self down)
  by_contra hnone
  obtain ⟨hdown, hup⟩ := Interval.holds_eq_false_of_onGrid? hnone
  rw [← Bool.not_eq_true, holds_grid_iff hm] at hdown hup
  -- neither neighbour lies in the interval, so they are further apart than it is wide
  have hbelow : (down : ℚ) * 10 ^ t ≤ ((m : ℚ) - quartersBelow m e / 4) * 2 ^ e := by
    by_contra hlt
    refine hdown (.of_between (not_le.mp hlt) (hfloor.trans_lt ?_))
    exact mul_lt_mul_of_pos_right (by linarith) hunit
  have habove : ((m : ℚ) + 1 / 2) * 2 ^ e ≤ ((down + 1 : Nat) : ℚ) * 10 ^ t := by
    by_contra hlt
    refine hup (.of_between (lt_trans ?_ hceil) (not_le.mp hlt))
    exact mul_lt_mul_of_pos_right (by linarith) hunit
  push_cast at habove
  linarith

/-- A search that comes to a grid on which something is found stops at one. -/
theorem Interval.search_eq {i : Interval} {lead : Int} (tries : Nat) : ∀ {count last : Nat},
    count ≤ last → last < count + tries → (i.onGrid? (lead - last + 1)).isSome = true →
      ∃ t n fuel, i.onGrid? t = some n ∧
        i.search lead tries count = ⟨dropZeros fuel n, t + digitCount n⟩ := by
  induction tries with
  | zero =>
      intro count last hle hlt
      omega
  | succ tries ih =>
      intro count last hle hlt hlast
      rw [Interval.search]
      split
      · next n hfound => exact ⟨_, n, count + 1, hfound, rfl⟩
      · next hnone =>
        have hne : count ≠ last := by
          rintro rfl
          rw [hnone] at hlast
          cases hlast
        exact ih (by omega) (by omega) hlast

/-- Seventeen digits make a grid that is finer than the interval of a double. -/
theorem zpow_lt_width (h : IsFinite m e) {lead : Int} (hlead : (10 : ℚ) ^ lead ≤ m * 2 ^ e) :
    (10 : ℚ) ^ (lead - (17 : Nat) + 1) < (1 / 2 + quartersBelow m e / 4) * 2 ^ e := by
  have hfine : (m : ℚ) / 10 ^ 16 < 1 / 2 + quartersBelow m e / 4 := by
    unfold quartersBelow
    split
    · next hleast =>
      have hvalue : m = leadingBit := by simp_all
      rw [hvalue, leadingBit_eq]
      norm_num
    · have hlt : (m : ℚ) < 2 * leadingBit := by exact_mod_cast h.mantissa_lt
      have hbits : 2 * (leadingBit : ℚ) < 10 ^ 16 := by norm_num [leadingBit_eq]
      have hfull : (1 / 2 : ℚ) + ((2 : Nat) : ℚ) / 4 = 1 := by norm_num
      rw [hfull, div_lt_one (by norm_num)]
      exact hlt.trans hbits
  calc (10 : ℚ) ^ (lead - (17 : Nat) + 1) = 10 ^ lead / 10 ^ 16 := by
        rw [show lead - (17 : Nat) + 1 = lead - 16 by omega, zpow_sub₀ (by norm_num)]
        norm_num
    _ ≤ m * 2 ^ e / 10 ^ 16 := by gcongr
    _ = m / 10 ^ 16 * 2 ^ e := by ring
    _ < (1 / 2 + quartersBelow m e / 4) * 2 ^ e := by gcongr

/-- Without the zeros at its end a number counts larger units. -/
theorem dropZeros_value (fuel : Nat) {n : Nat} (hn : 0 < n) (t : Int) :
    0 < dropZeros fuel n ∧ ((dropZeros fuel n : Nat) : ℚ) *
      10 ^ (t + digitCount n - digitCount (dropZeros fuel n)) = n * 10 ^ t := by
  obtain ⟨k, hvalue, hdrop, hcount⟩ := dropZeros_spec fuel hn
  refine ⟨hvalue, ?_⟩
  rw [show t + (digitCount n : Int) - digitCount (dropZeros fuel n) = k + t by omega,
    zpow_add₀ (by norm_num), zpow_natCast, ← mul_assoc]
  congr 1
  exact_mod_cast hdrop.symm

/-- **The shortest decimal of a double lies in its interval.** Its digits are those of a positive
number, and seventeen of them are enough to find it. -/
theorem shortest_rounds (h : IsFinite m e) (hm : 0 < m) :
    0 < (shortest m e).value ∧ Rounds m e
      ((shortest m e).value * 10 ^ ((shortest m e).point - digitCount (shortest m e).value)) := by
  let i := Interval.of m e
  let lead := leadingExponent i.center i.den
  have hcenter : 0 < i.center :=
    Nat.mul_pos (Nat.mul_pos (by decide) hm) (powerOfTwo_fst_pos _)
  have hlead : (10 : ℚ) ^ lead ≤ m * 2 ^ e := by
    rw [← Interval.of_center]
    exact leadingExponent_le hcenter (Interval.of_den_pos m e)
  obtain ⟨t, n, fuel, hfound, hsearch⟩ : ∃ t n fuel, i.onGrid? t = some n ∧
      i.search lead 17 1 = ⟨dropZeros fuel n, t + digitCount n⟩ :=
    Interval.search_eq 17 (by decide) (by decide) (onGrid?_isSome hm (zpow_lt_width h hlead))
  have hrounds := rounds_of_onGrid? hm hfound
  have hn : 0 < n := by
    have hpos := hrounds.pos hm
    by_contra hzero
    obtain rfl : n = 0 := by omega
    simp at hpos
  have hshortest : shortest m e = ⟨dropZeros fuel n, t + digitCount n⟩ := hsearch
  obtain ⟨hvalue, hsame⟩ := dropZeros_value fuel hn t
  rw [hshortest]
  refine ⟨hvalue, ?_⟩
  rw [hsame]
  exact hrounds

end Livedoc.Decimal
