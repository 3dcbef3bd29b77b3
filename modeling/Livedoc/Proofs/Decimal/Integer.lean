import Livedoc.Proofs.Decimal.Nearest

/-!
# Integers as doubles

A double is an integer only if this has few significant bits: it is a power of two so many times, and
a mantissa can count them (`FewBits`). Such an integer is the double that it is rounded to
(`Rounds.eq_of_fewBits`). Any other one is so large that the doubles around it are integers too, and
it becomes the nearest of these (`exists_nearestInteger`).

So a variable that is set to an integer holds the nearest double, and what is shown for it are all
digits of an integer (`formatBinary_nat`). They are those of the integer itself exactly if it has few
bits.
-/

namespace Livedoc.Decimal

variable {m n : Nat} {e : Int}

/-! ## Few significant bits -/

/-- The number has no more significant bits than the mantissa of a double. -/
def FewBits (n : Nat) : Prop := ∃ m e : Nat, m < 2 * leadingBit ∧ n = m * 2 ^ e

namespace FewBits

theorem zero : FewBits 0 := ⟨0, 0, by decide, by decide⟩

/-- A number that is no larger than the mantissas has few bits. -/
theorem of_le (h : n ≤ 2 * leadingBit) : FewBits n := by
  by_cases hfull : n = 2 * leadingBit
  · use 1, 53, by decide
    rw [hfull]
    decide
  · use n, 0
    constructor
    · omega
    · omega

/-- Such a number is a double, if it is not too large. -/
theorem exists_isFinite (h : FewBits n) (hlt : n < 2 ^ 65) :
    ∃ m e, IsFinite m e ∧ (m : ℚ) * 2 ^ e = n := by
  obtain ⟨m, e, hm, rfl⟩ := h
  by_cases hzero : m = 0
  · use 0, -1074
    subst hzero
    constructor
    · constructor <;> decide
    · simp
  have hlow := Nat.log2_self_le hzero
  have hhigh := Nat.lt_log2_self (n := m)
  have hlog : m.log2 ≤ 52 := by
    have hbits : m.log2 < 53 := (Nat.log2_lt hzero).mpr hm
    omega
  have hexponent : e < 65 := by
    apply (Nat.pow_lt_pow_iff_right (by decide : 1 < 2)).mp
    apply lt_of_le_of_lt _ hlt
    exact Nat.le_mul_of_pos_left _ (Nat.pos_of_ne_zero hzero)
  -- the mantissa is moved up to its full length
  use m * 2 ^ (52 - m.log2), (e : Int) - (52 - m.log2 : Nat)
  constructor
  · constructor
    · have hmul : m * 2 ^ (52 - m.log2) < 2 ^ (m.log2 + 1) * 2 ^ (52 - m.log2) :=
        Nat.mul_lt_mul_of_pos_right hhigh (Nat.two_pow_pos _)
      have hsum : m.log2 + 1 + (52 - m.log2) = 53 := by omega
      rw [← Nat.pow_add, hsum] at hmul
      exact hmul
    · omega
    · omega
    · left
      have hmul : 2 ^ m.log2 * 2 ^ (52 - m.log2) ≤ m * 2 ^ (52 - m.log2) :=
        Nat.mul_le_mul_right _ hlow
      have hsum : m.log2 + (52 - m.log2) = 52 := by omega
      rw [← Nat.pow_add, hsum] at hmul
      exact hmul
  · push_cast
    rw [zpow_sub₀ two_ne_zero, zpow_natCast, zpow_natCast]
    field_simp

end FewBits

/-! ## Rounding an integer -/

/-- A number with few bits is the double that it is rounded to. -/
theorem Rounds.eq_of_fewBits (h : IsFinite m e) (hq : Rounds m e n) (hn : FewBits n)
    (hlt : n < 2 ^ 65) : (m : ℚ) * 2 ^ e = n := by
  obtain ⟨m', e', hfinite, hvalue⟩ := hn.exists_isFinite hlt
  have hnear := hq.nearest h hfinite
  rw [hvalue, sub_self, abs_zero] at hnear
  exact sub_eq_zero.mp (abs_nonpos_iff.mp hnear)

/-- A number with more bits is rounded to a double that is a number too. -/
theorem Rounds.le_exponent (h : IsFinite m e) (hq : Rounds m e n) (hn : ¬ FewBits n) : 0 ≤ e := by
  by_contra hneg
  apply hn
  apply FewBits.of_le
  have hmantissa : (m : ℚ) + 1 ≤ 2 * leadingBit := by exact_mod_cast h.mantissa_lt
  have hunit : (2 : ℚ) ^ e ≤ 1 := zpow_le_one_of_nonpos₀ one_le_two (by omega)
  have hle : (n : ℚ) ≤ 2 * leadingBit := by
    calc (n : ℚ) ≤ (m + 1 / 2) * 2 ^ e := hq.high
      _ ≤ (m + 1 / 2) * 1 := mul_le_mul_of_nonneg_left hunit (by positivity)
      _ ≤ 2 * leadingBit := by linarith
  exact_mod_cast hle

/-- **The number that a number is rounded to** has few bits, and is the number itself if this has few
bits. -/
theorem Rounds.exists_nat (h : IsFinite m e) (hq : Rounds m e n) (hlt : n < 2 ^ 65) :
    ∃ r : Nat, (r : ℚ) = m * 2 ^ e ∧ FewBits r ∧ (r = n ↔ FewBits n) := by
  by_cases hn : FewBits n
  · use n, (hq.eq_of_fewBits h hn hlt).symm, hn
    simp [hn]
  · have hexponent : e = (e.toNat : Int) := by
      have := hq.le_exponent h hn
      omega
    have hfew : FewBits (m * 2 ^ e.toNat) := ⟨m, e.toNat, h.mantissa_lt, rfl⟩
    use m * 2 ^ e.toNat
    constructor
    · rw [hexponent, zpow_natCast]
      push_cast
      rfl
    · use hfew
      constructor
      · intro heq
        exact heq ▸ hfew
      · intro hcase
        exact absurd hcase hn

/-- No number with few bits is nearer. -/
theorem Rounds.nearest_nat (h : IsFinite m e) (hq : Rounds m e n) (hlt : n ≤ 2 ^ 64) {r : Nat}
    (hr : (r : ℚ) = m * 2 ^ e) {r' : Nat} (hfew : FewBits r') :
    |(r : Int) - n| ≤ |(r' : Int) - n| := by
  have hsmall {k : Nat} (hk : FewBits k) (hbound : k < 2 ^ 65) :
      |(r : Int) - n| ≤ |(k : Int) - n| := by
    obtain ⟨m', e', hfinite, hvalue⟩ := hk.exists_isFinite hbound
    have hnear := hq.nearest h hfinite
    rw [hvalue, ← hr] at hnear
    exact_mod_cast hnear
  by_cases hbound : r' < 2 ^ 65
  · exact hsmall hfew hbound
  · -- what is so large is further away than zero
    apply (hsmall .zero (by decide)).trans
    have hself : |((0 : Nat) : Int) - n| = n := by simp
    rw [hself]
    apply le_trans _ (le_abs_self _)
    omega

/-! ## The integer that is shown -/

/-- The second integer is the nearest one to the first that has few bits, and of two of them the one
with the even mantissa. -/
structure NearestInteger (n k : Int) : Prop where
  sameSign : k = if n < 0 then -(k.natAbs : Int) else k.natAbs
  fewBits : FewBits k.natAbs
  nearest : ∀ k' : Int, FewBits k'.natAbs → |k - n| ≤ |k' - n|
  rounds : ∃ m e, IsFinite m e ∧ (k.natAbs : ℚ) = m * 2 ^ e ∧ Rounds m e n.natAbs

/-- All digits of a number are shown. -/
theorem formatBinary_nat {r : Nat} (hr : (r : ℚ) = m * 2 ^ e) (hlt : r < wholeLimit)
    (negative : Bool) : formatBinary (.finite negative m e) =
      intText (if negative then -(r : Int) else r) := by
  have hwhole : wholePart m e = r := by
    rw [wholePart_eq_floor, ← hr]
    exact Nat.floor_natCast r
  have hexact : isWhole m e = true := by rw [isWhole_iff, hwhole, hr]
  have hzero : m = 0 ↔ r = 0 := by
    have hunit : (2 : ℚ) ^ e ≠ 0 := by positivity
    rw [← Nat.cast_eq_zero (R := ℚ) (n := r), hr, mul_eq_zero, Nat.cast_eq_zero]
    simp [hunit]
  unfold formatBinary
  dsimp only
  by_cases hm : m = 0
  · rw [if_pos hm, hzero.mp hm]
    cases negative <;> rfl
  · have hpos : r ≠ 0 := mt hzero.mpr hm
    rw [if_neg hm, hexact, hwhole, if_pos (by simpa using hlt)]
    unfold intText signText
    cases negative with
    | false => simp
    | true => simp [Nat.pos_of_ne_zero hpos]

/-- Numbers of 64 bits are far below the limit. -/
theorem lt_roundingLimit (hn : n ≤ 2 ^ 64) : (n : ℚ) < roundingLimit := by
  have hbound : (n : ℚ) ≤ 2 ^ 64 := by exact_mod_cast hn
  have hpower : (2 : ℚ) ^ (64 : Int) < 2 ^ (971 : Int) :=
    zpow_lt_zpow_right₀ one_lt_two (by decide)
  have hmantissa : (1 : ℚ) < 2 * leadingBit - 1 / 2 := by
    rw [leadingBit_eq]
    norm_num
  exact hbound.trans_lt (hpower.trans (lt_mul_of_one_lt_left (by positivity) hmantissa))

/-- What is nearer to a number of 64 bits than zero is shown with all digits. -/
theorem lt_wholeLimit {r : Nat} (hn : n ≤ 2 ^ 64) (hr : |(r : Int) - n| ≤ |((0 : Nat) : Int) - n|) :
    r < wholeLimit := by
  have hself : |((0 : Nat) : Int) - n| = n := by simp
  have hmax : wholeLimit = 1000000000000000000000 := by decide
  rw [hself] at hr
  have hhigh := (abs_le.mp hr).2
  omega

/-- With the sign of an integer a number is as far from it as without. -/
theorem abs_signed_sub (n : Int) (r : Nat) :
    |(if n < 0 then -(r : Int) else r) - n| = |(r : Int) - n.natAbs| := by
  split
  · rw [← abs_neg]
    congr 1
    omega
  · congr 1
    omega

/-- The double of the absolute value has the nearest integer, with the sign. -/
theorem nearestInteger_signed {n : Int} {r : Nat} (hfinite : IsFinite m e)
    (hrounds : Rounds m e n.natAbs) (hr : (r : ℚ) = m * 2 ^ e) (hfew : FewBits r)
    (hnearest : ∀ k, FewBits k → |(r : Int) - n.natAbs| ≤ |(k : Int) - n.natAbs|) :
    NearestInteger n (if n < 0 then -(r : Int) else r) := by
  have hsize : (if n < 0 then -(r : Int) else r).natAbs = r := by split <;> omega
  constructor
  · rw [hsize]
  · rw [hsize]
    exact hfew
  · intro k hk
    rw [abs_signed_sub]
    apply (hnearest k.natAbs hk).trans
    simpa only [Int.natCast_natAbs] using abs_abs_sub_abs_le k n
  · use m, e, hfinite
    rw [hsize]
    exact ⟨hr, hrounds⟩

/-- **An integer becomes the nearest double**, and all digits of this are shown. -/
theorem exists_nearestInteger {n : Int} (hn : n.natAbs ≤ 2 ^ 64) :
    ∃ x k, ofInt? n = some x ∧ formatNumber x = intText k ∧ NearestInteger n k ∧
      (k = n ↔ FewBits n.natAbs) := by
  have hlimit : ((n.natAbs : Nat) : ℚ) / (1 : Nat) < roundingLimit := by
    rw [Nat.cast_one, div_one]
    exact lt_roundingLimit hn
  obtain ⟨m, e, hfinite, hrounds, hbits⟩ := exists_rounds Nat.one_pos hlimit
  rw [Nat.cast_one, div_one] at hrounds
  have hlt : n.natAbs < 2 ^ 65 := by omega
  obtain ⟨r, hr, hfew, hself⟩ := hrounds.exists_nat hfinite hlt
  have hnearest (k : Nat) (hk : FewBits k) : |(r : Int) - n.natAbs| ≤ |(k : Int) - n.natAbs| :=
    hrounds.nearest_nat hfinite hn hr hk
  use nearest (n < 0) n.natAbs 1, if n < 0 then -(r : Int) else r
  constructor
  · rw [ofInt?, hbits, if_pos hfinite.packed_lt]
  · constructor
    · have hsmall : r < wholeLimit := lt_wholeLimit hn (hnearest 0 .zero)
      rw [formatNumber, ofFloat_nearest hfinite hbits, formatBinary_nat hr hsmall]
      simp
    · constructor
      · exact nearestInteger_signed hfinite hrounds hr hfew hnearest
      · rw [← hself]
        split <;> omega

end Livedoc.Decimal
