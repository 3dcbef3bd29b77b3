import Livedoc.Proofs.Decimal.Nearest
import Livedoc.Proofs.Expansion.Isolation

/-!
# The limit of rounds

The number of rounds that a text asks for is the integer part of the number that is read from it, if
the limit allows so many. Whether it does is decided on natural numbers, by the whole part of the
number and by whether there is anything else to it; that comes to a comparison of the number itself
with the limit (`exceeds_iff`). A number above the limit gives as many rounds as the limit allows, and
a warning, whatever its integer part is.

A text without a number asks for one round, and it is given one without a look at the limit. So the
limit is kept unless it allows no round at all and the text has no number (`iterationCount_limited`).
-/

namespace Livedoc

open Livedoc.Decimal Livedoc.Environment Livedoc.Expansion Livedoc.Problem Livedoc.Source

namespace Decimal

/-! ## Numbers above a limit -/

/-- The number is above the limit. -/
def Binary.IsAbove (limit : Int) : Binary → Prop
  | .nan => False
  | .infinite negative => negative = false
  | .finite negative m e => (limit : ℚ) < (Binary.finite negative m e).toRat

/-- The rounds that a number gives under a limit: its integer part, brought to the nearest number
from none to the limit, and all or none if it is infinite. -/
def Binary.roundsUnder (limit : Int) : Binary → Int
  | .nan => 1
  | .infinite negative => if negative then 0 else limit
  | .finite negative m e => max 0 (min limit (Decimal.truncate (.finite negative m e)))

/-- A number above the limit gives as many rounds as the limit allows. -/
theorem roundsUnder_of_isAbove {limit : Int} (hlimit : 0 ≤ limit) {b : Binary}
    (h : b.IsAbove limit) : b.roundsUnder limit = limit := by
  cases b with
  | nan => exact h.elim
  | infinite negative =>
      obtain rfl : negative = false := h
      rfl
  | finite negative m e =>
      have hvalue : (limit : ℚ) < (Binary.finite negative m e).toRat := h
      have hcast : (0 : ℚ) ≤ limit := by exact_mod_cast hlimit
      have hpart : limit ≤ Decimal.truncate (.finite negative m e) := by
        rw [truncate_eq, if_neg (not_lt.mpr (hcast.trans hvalue.le))]
        exact Int.le_floor.mpr hvalue.le
      rw [Binary.roundsUnder, min_eq_left hpart, max_eq_right hlimit]

/-- Any other number gives its integer part, or none if this is negative. -/
theorem roundsUnder_of_not_isAbove {limit : Int} (hlimit : 0 ≤ limit) {b : Binary}
    (hne : b ≠ .nan) (h : ¬ b.IsAbove limit) :
    b.roundsUnder limit = (Decimal.truncate b).toNat := by
  cases b with
  | nan => exact absurd rfl hne
  | infinite negative =>
      cases negative with
      | false => exact absurd rfl h
      | true => rfl
  | finite negative m e =>
      have hvalue : (Binary.finite negative m e).toRat ≤ limit := not_lt.mp h
      have hpart : Decimal.truncate (.finite negative m e) ≤ limit := by
        rw [truncate_eq]
        split
        · next hnegative =>
            apply le_trans _ hlimit
            exact Int.ceil_le.mpr (by exact_mod_cast hnegative.le)
        · exact_mod_cast (Int.floor_le _).trans hvalue
      rw [Binary.roundsUnder, min_eq_right hpart]
      omega

/-- No number gives more rounds than the limit allows. -/
theorem roundsUnder_le {limit : Int} (hlimit : 0 ≤ limit) {b : Binary} (hne : b ≠ .nan) :
    b.roundsUnder limit ≤ limit := by
  cases b with
  | nan => exact absurd rfl hne
  | infinite negative =>
      rw [Binary.roundsUnder]
      split
      · exact hlimit
      · exact le_rfl
  | finite negative m e => exact max_le hlimit (min_le_left _ _)

/-- Whether a number is above a limit shows in its whole part, and in whether it has any other. -/
theorem exceeds_iff (m : Nat) (e limit : Int) :
    (wholePart m e > limit ∨ wholePart m e = limit ∧ isWhole m e = false) ↔
      (limit : ℚ) < m * 2 ^ e := by
  have hlow := wholePart_le m e
  have hhigh := lt_wholePart_add_one m e
  constructor
  · intro h
    apply h.elim
    · intro hgt
      have hcast : (limit : ℚ) < (wholePart m e : Int) := by exact_mod_cast hgt
      rw [Int.cast_natCast] at hcast
      exact hcast.trans_le hlow
    · intro hsame
      have hcast : ((wholePart m e : Int) : ℚ) = limit := by exact_mod_cast hsame.1
      rw [Int.cast_natCast] at hcast
      rw [← hcast]
      apply lt_of_le_of_ne hlow
      intro heq
      rw [isWhole_iff.mpr heq] at hsame
      exact absurd hsame.2 (by decide)
  · intro h
    have hle : limit < (wholePart m e : Int) + 1 := by
      have hcast := h.trans hhigh
      exact_mod_cast hcast
    by_cases hsame : (wholePart m e : Int) = limit
    · right
      constructor
      · exact hsame
      · rw [← Bool.not_eq_true, isWhole_iff]
        intro heq
        rw [← hsame, Int.cast_natCast, heq] at h
        exact lt_irrefl _ h
    · left
      omega

end Decimal

variable {text : String} {x : Float} {limit : Int}

/-- What is read is no undefined number. -/
theorem ofFloat_ne_nan_of_parseNumber? (h : parseNumber? text = some x) :
    Binary.ofFloat x ≠ .nan := by
  obtain ⟨⟨n, rest⟩, -, rfl⟩ := Option.map_eq_some_iff.mp h
  exact toFloat_ne_nan n

/-- Of a number above the limit there are as many rounds as the limit allows. -/
theorem roundsOf_above (h : parseNumber? text = some x) (hlimit : 0 ≤ limit)
    (habove : (Binary.ofFloat x).IsAbove limit) : roundsOf text limit = .limited x := by
  unfold roundsOf
  rw [h]
  dsimp only
  cases hx : Binary.ofFloat x with
  | nan => exact absurd hx (ofFloat_ne_nan_of_parseNumber? h)
  | infinite negative =>
      rw [hx] at habove
      obtain rfl : negative = false := habove
      rfl
  | finite negative m e =>
      rw [hx] at habove
      have hvalue : (limit : ℚ) < (Binary.finite negative m e).toRat := habove
      have hpos : (0 : ℚ) < (Binary.finite negative m e).toRat := by
        have hcast : (0 : ℚ) ≤ limit := by exact_mod_cast hlimit
        exact hcast.trans_lt hvalue
      have hnonneg : (0 : ℚ) ≤ m * 2 ^ e := by positivity
      cases negative with
      | true =>
          simp only [Binary.toRat, if_true] at hpos
          linarith
      | false =>
          simp only [Binary.toRat, Bool.false_eq_true, if_false] at hvalue hpos
          have hm : m ≠ 0 := by
            intro hzero
            simp [hzero] at hpos
          have hexceeds := (exceeds_iff m e limit).mpr hvalue
          simp [hm, hexceeds]

/-- Of any other number there are as many rounds as its integer part says, and none if it is
negative. -/
theorem roundsOf_within (h : parseNumber? text = some x)
    (hwithin : ¬ (Binary.ofFloat x).IsAbove limit) :
    roundsOf text limit = .exactly (Decimal.truncate (.ofFloat x)).toNat := by
  unfold roundsOf
  rw [h]
  dsimp only
  cases hx : Binary.ofFloat x with
  | nan => exact absurd hx (ofFloat_ne_nan_of_parseNumber? h)
  | infinite negative =>
      rw [hx] at hwithin
      cases negative with
      | false => exact absurd rfl hwithin
      | true => rfl
  | finite negative m e =>
      rw [hx] at hwithin
      have hvalue : ¬ (limit : ℚ) < (Binary.finite negative m e).toRat := hwithin
      cases negative with
      | true =>
          have hnone : (-(wholePart m e : Int)).toNat = 0 := by omega
          simp [Decimal.truncate, hnone]
      | false =>
          simp only [Binary.toRat, Bool.false_eq_true, if_false] at hvalue
          have hfits : ¬ (wholePart m e > limit ∨ wholePart m e = limit ∧ isWhole m e = false) :=
            mt (exceeds_iff m e limit).mp hvalue
          by_cases hm : m = 0
          · simp [hm, Decimal.truncate, wholePart]
          · simp [hm, hfits, Decimal.truncate]

namespace Expansion

variable {span : Span} {e : Environment}

/-- The warning that a number is above the limit. -/
def excessWarning (x : Float) (limit : Int) (span : Span) : Warning :=
  ⟨"repeat count " ++ formatNumber x ++ " exceeds limit of " ++ toString limit, .performance, span⟩

theorem iterationCount_exactly {n : Nat}
    (h : roundsOf text e.setting.limits.iterations = .exactly n) (span : Span) :
    iterationCount text span e = (.ok n, e) := by
  unfold iterationCount
  rw [bind_ok (inspect_run _ e), h]
  rfl

theorem iterationCount_above
    (h : roundsOf text e.setting.limits.iterations = .limited x) (span : Span) :
    iterationCount text span e = (.ok e.setting.limits.iterations,
      e.mapStore (·.warn (excessWarning x e.setting.limits.iterations span))) := by
  unfold iterationCount
  rw [bind_ok (inspect_run _ e), h]
  rfl

/-- **The limit of rounds is kept**, but for one case. Under a limit that is not negative, every text
gives a number of rounds that is not negative. It is above the limit only if the text has no number
and the limit allows no round. A text without a number gives one round. Any other text is read as a
number that is not undefined, and gives the integer part of this number, brought to the nearest
number from none to the limit. One warning is recorded if the number is above the limit, and else
the environment stays as it is. -/
theorem iterationCount_limited (text : String) (span : Span) (e : Environment)
    (hlimit : 0 ≤ e.setting.limits.iterations) :
    let limit := e.setting.limits.iterations
    ∃ n after, iterationCount text span e = (.ok n, after) ∧ 0 ≤ n ∧
      (limit < n ↔ parseNumber? text = none ∧ limit = 0) ∧
      (parseNumber? text = none → n = 1 ∧ after = e) ∧
      ∀ x, parseNumber? text = some x →
        Binary.ofFloat x ≠ .nan ∧ n = (Binary.ofFloat x).roundsUnder limit ∧
        ((Binary.ofFloat x).IsAbove limit →
          after = e.mapStore (·.warn (excessWarning x limit span))) ∧
        (¬ (Binary.ofFloat x).IsAbove limit → after = e) := by
  intro limit
  cases hparse : parseNumber? text with
  | none =>
      have hone : roundsOf text limit = .exactly 1 := by rw [roundsOf, hparse]
      use 1, e, iterationCount_exactly hone span, by decide
      constructor
      · simp only [true_and]
        omega
      · simp
  | some x =>
      have hne : Binary.ofFloat x ≠ .nan := ofFloat_ne_nan_of_parseNumber? hparse
      by_cases habove : (Binary.ofFloat x).IsAbove limit
      · have hrun := iterationCount_above (roundsOf_above hparse hlimit habove) span
        use limit, e.mapStore (·.warn (excessWarning x limit span)), hrun, hlimit
        constructor
        · simp
        · constructor
          · simp
          · intro y hy
            cases hy
            use hne, (roundsUnder_of_isAbove hlimit habove).symm
            exact ⟨fun _ => rfl, fun hnot => absurd habove hnot⟩
      · have hrun := iterationCount_exactly (roundsOf_within hparse habove) span
        have hrounds := roundsUnder_of_not_isAbove hlimit hne habove
        have hle := roundsUnder_le hlimit hne
        use (Decimal.truncate (.ofFloat x)).toNat, e, hrun, by omega
        constructor
        · simp
          omega
        · constructor
          · simp
          · intro y hy
            cases hy
            use hne, hrounds.symm
            exact ⟨fun h => absurd h habove, fun _ => rfl⟩

/-- An environment in which so many rounds are allowed. -/
def limitedEnvironment (iterations : Int) : Environment :=
  .create "" "d" none [] (.ofTexts []) { iterations } [] { year := 2024, month := 3, day := 9 }

/-- A number that is above the limit only by its fraction. -/
theorem iterationCount_limited_fraction :
    let e := limitedEnvironment 4
    let x := Float.ofBits 0x4012000000000000
    0 ≤ e.setting.limits.iterations ∧ parseNumber? "4.5 times" = some x ∧
      Binary.ofFloat x = .finite false 0x12000000000000 (-50) ∧
      iterationCount "4.5 times" .unknown e =
        (.ok 4, e.mapStore (·.warn (excessWarning x 4 .unknown))) ∧
      (excessWarning x 4 .unknown).message = "repeat count 4.5 exceeds limit of 4" := by
  intro e x
  have hparse : parseNumber? "4.5 times" = some x := by decide +kernel
  have hbinary : Binary.ofFloat x = .finite false 0x12000000000000 (-50) := by decide +kernel
  have habove : (Binary.ofFloat x).IsAbove 4 := by
    rw [hbinary]
    show ((4 : Int) : ℚ) < ((0x12000000000000 : Nat) : ℚ) * 2 ^ (-50 : Int)
    norm_num
  have hrounds : (Binary.ofFloat x).roundsUnder 4 = 4 := roundsUnder_of_isAbove (by decide) habove
  obtain ⟨n, after, hrun, -, -, -, hnumber⟩ :=
    iterationCount_limited "4.5 times" .unknown e (by decide)
  obtain ⟨-, hn, hwarn, -⟩ := hnumber x hparse
  have hfour : n = 4 := hn.trans hrounds
  rw [hfour, hwarn habove] at hrun
  exact ⟨by decide, hparse, hbinary, hrun, by decide +kernel⟩

/-- A text without a number gives a round where the limit allows none. -/
theorem iterationCount_exceeds :
    let e := limitedEnvironment 0
    0 ≤ e.setting.limits.iterations ∧ iterationCount "abc" .unknown e = (.ok 1, e) ∧
      e.setting.limits.iterations < 1 :=
  ⟨by decide, rfl, by decide⟩

end Expansion

end Livedoc
