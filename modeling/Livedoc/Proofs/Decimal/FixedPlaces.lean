import Livedoc.Proofs.Decimal.Nearest

/-!
# A fixed number of places

With a fixed number of places a number is rounded to a decimal, and the text that is shown spells this
decimal (`takeNumeral?_places`). Reading the text rounds once more, to the double that is nearest to the
decimal. This need not be the double that was shown, but it is no further away from the decimal, since
the double that was shown could have been taken as well. So it is rounded to the same decimal
(`inPlaces_nearest`).

It does not matter for this whether the decimals or the doubles lie more densely where the number is.
Where both the number and the double that is read lie half way between two decimals, the even one was
taken, and it is taken again.
-/

namespace Livedoc.Decimal

variable {m : Nat} {e : Int}

/-! ## The text of a decimal -/

/-- The digits after the point: as many as there are places, with zeros in front. -/
def fractionDigits (value places : Nat) : List Char :=
  let digits := Nat.toDigits 10 (value % 10 ^ places)
  List.replicate (places - digits.length) '0' ++ digits

theorem length_fractionDigits (value : Nat) {places : Nat} (h : 0 < places) :
    (fractionDigits value places).length = places := by
  have hlt : value % 10 ^ places < 10 ^ places := Nat.mod_lt _ (Nat.pow_pos (by decide))
  have hle : (Nat.toDigits 10 (value % 10 ^ places)).length ≤ places :=
    (Nat.length_toDigits_le_iff (by decide) h).mpr hlt
  rw [fractionDigits, List.length_append, List.length_replicate]
  omega

/-- The digits before and after the point are those of the value. -/
theorem decimalValue_places (value : Nat) {places : Nat} (h : 0 < places) :
    decimalValue (Nat.toDigits 10 (value / 10 ^ places) ++ fractionDigits value places) = value := by
  have hdigits : AllDigits (fractionDigits value places) := .append (.zeros _) (.toDigits _)
  have hfraction : Nat.ofDigitChars 10 (fractionDigits value places) 0 = value % 10 ^ places := by
    rw [fractionDigits, Nat.ofDigitChars_append, Nat.ofDigitChars_replicate_zero, Nat.mul_zero,
      Nat.ofDigitChars_ten_toDigits]
  rw [decimalValue_eq (.append (.toDigits _) hdigits), Nat.ofDigitChars_append,
    Nat.ofDigitChars_ten_toDigits, Nat.ofDigitChars_eq_ofDigitChars_zero, hfraction,
    length_fractionDigits value h]
  exact Nat.div_add_mod value (10 ^ places)

theorem toList_placesText (value : Nat) {places : Nat} (h : 0 < places) :
    (placesText value places).toList =
      Nat.toDigits 10 (value / 10 ^ places) ++ '.' :: fractionDigits value places := by
  have hsize : (digitText (value % 10 ^ places)).length =
      (Nat.toDigits 10 (value % 10 ^ places)).length := String.length_ofList
  unfold placesText
  rw [if_neg h.ne']
  simp only [String.toList_append, Nat.pow_eq, hsize, toList_zeros, toList_digitText]
  simp [fractionDigits]

/-- **The text with a fixed number of places spells the rounded decimal.** -/
theorem takeNumeral?_places (negative : Bool) (value places : Nat) :
    takeNumeral? ((signText negative).toList ++ (placesText value places).toList) =
      some (.decimal negative value (-places), []) := by
  by_cases h : places = 0
  · subst h
    have hread := takeNumeral?_spelled negative Nat.toDigits_ne_nil (.toDigits value) .nil
      endsDigits_nil rfl
    have htext : (placesText value 0).toList = Nat.toDigits 10 value := by
      show (digitText (value / 1)).toList = _
      rw [Nat.div_one, toList_digitText]
    rw [htext]
    simpa [pointed, decimalValue_toDigits] using hread
  · have hpos : 0 < places := Nat.pos_of_ne_zero h
    have hne : fractionDigits value places ≠ [] := by
      apply List.ne_nil_of_length_pos
      rw [length_fractionDigits value hpos]
      exact hpos
    have hdigits : AllDigits (fractionDigits value places) := .append (.zeros _) (.toDigits _)
    have hread := takeNumeral?_spelled negative Nat.toDigits_ne_nil
      (.toDigits (value / 10 ^ places)) hdigits endsDigits_nil rfl
    rw [decimalValue_places value hpos, length_fractionDigits value hpos, pointed_of_ne_nil hne,
      List.append_nil] at hread
    rw [toList_placesText value hpos, hread]
    simp

/-- A decimal with few places is read as the double nearest to it. -/
theorem toFloat_places (negative : Bool) (value : Nat) {places : Nat} (h : places ≤ maxPlaces) :
    (Numeral.decimal negative value (-places)).toFloat = nearest negative value (10 ^ places) := by
  have hmax : maxPlaces = 100 := rfl
  by_cases hzero : value = 0
  · rw [Numeral.toFloat, if_pos hzero, hzero]
    simp only [nearest, nearestBits, if_true]
  · have hdigits := digitCount_pos value
    rw [Numeral.toFloat, if_neg hzero, if_neg (by omega), if_neg (by omega)]
    split
    · next hnegative =>
      have hexponent : (- -(places : Int)).toNat = places := by omega
      rw [hexponent, Nat.pow_eq]
    · next hnonnegative =>
      have hnone : places = 0 := by omega
      subst hnone
      simp [Nat.pow_eq]

/-! ## Rounding to places -/

/-- A double in units of the last of so many places. -/
def inPlaces (m : Nat) (e : Int) (places : Nat) : Nat :=
  roundDiv (m * (powerOfTwo e).1 * 10 ^ places) (powerOfTwo e).2

theorem formatFixed_finite {x : Float} {negative : Bool}
    (h : Binary.ofFloat x = .finite negative m e) (places : Int) :
    formatFixed x places = signText negative ++
      placesText (inPlaces m e (min maxPlaces places.toNat)) (min maxPlaces places.toNat) := by
  unfold formatFixed
  simp only [h]
  rfl

theorem inPlaces_div (m : Nat) (e : Int) (places : Nat) :
    ((m * (powerOfTwo e).1 * 10 ^ places : Nat) : ℚ) / (powerOfTwo e).2 =
      m * 2 ^ e * 10 ^ places := by
  rw [← powerOfTwo_div]
  push_cast
  ring

/-- A double is at most half a unit away from the decimal that it is rounded to, and less if the
decimal is odd. -/
theorem inPlaces_near (m : Nat) (e : Int) (places : Nat) :
    |(m : ℚ) * 2 ^ e * 10 ^ places - inPlaces m e places| ≤ 1 / 2 ∧
      (inPlaces m e places % 2 = 0 ∨
        |(m : ℚ) * 2 ^ e * 10 ^ places - inPlaces m e places| < 1 / 2) := by
  have hbounds := roundDiv_bounds (m * (powerOfTwo e).1 * 10 ^ places) (powerOfTwo_snd_pos e)
  rw [inPlaces_div] at hbounds
  change (inPlaces m e places : ℚ) - 1 / 2 ≤ _ ∧ _ ≤ (inPlaces m e places : ℚ) + 1 / 2 ∧
    (inPlaces m e places % 2 = 0 ∨ (inPlaces m e places : ℚ) - 1 / 2 < _ ∧
      _ < (inPlaces m e places : ℚ) + 1 / 2) at hbounds
  constructor
  · rw [abs_le]
    constructor <;> linarith [hbounds.1, hbounds.2.1]
  · apply hbounds.2.2.imp_right
    intro hstrict
    rw [abs_lt]
    constructor <;> linarith [hstrict.1, hstrict.2]

/-- A double that is as near to a decimal is rounded to it too. -/
theorem inPlaces_eq_of_near {m' : Nat} {e' : Int} {places : Nat}
    (h : |(m' : ℚ) * 2 ^ e' * 10 ^ places - inPlaces m e places| ≤
      |(m : ℚ) * 2 ^ e * 10 ^ places - inPlaces m e places|) :
    inPlaces m' e' places = inPlaces m e places := by
  obtain ⟨hnear, hstrict⟩ := inPlaces_near m e places
  have habs := abs_le.mp (h.trans hnear)
  apply roundDiv_eq_of_div (powerOfTwo_snd_pos e')
  · rw [inPlaces_div]
    linarith [habs.1]
  · rw [inPlaces_div]
    linarith [habs.2]
  · apply hstrict.imp_right
    intro hless
    have habs := abs_lt.mp (h.trans_lt hless)
    rw [inPlaces_div]
    constructor <;> linarith [habs.1, habs.2]

/-- No double is rounded to a decimal that is too large for one. -/
theorem inPlaces_lt_limit (h : IsFinite m e) (places : Nat) :
    (inPlaces m e places : ℚ) / (10 ^ places : Nat) < roundingLimit := by
  have hone : (1 : ℚ) ≤ 10 ^ places := one_le_pow₀ (by norm_num)
  have hpos : (0 : ℚ) < 10 ^ places := by positivity
  have hnear := (abs_le.mp (inPlaces_near m e places).1).1
  have hmantissa : (m : ℚ) ≤ 2 * leadingBit - 1 := by
    have hlt : m + 1 ≤ 2 * leadingBit := h.mantissa_lt
    have hcast : (m : ℚ) + 1 ≤ 2 * leadingBit := by exact_mod_cast hlt
    linarith
  have hdouble : (m : ℚ) * 2 ^ e ≤ (2 * leadingBit - 1) * 2 ^ (971 : Int) := by
    apply mul_le_mul hmantissa h.zpow_le.2 (by positivity)
    rw [leadingBit_eq]
    norm_num
  have hlarge : (1 : ℚ) < 2 ^ (971 : Int) := one_lt_zpow₀ one_lt_two (by decide)
  push_cast
  rw [div_lt_iff₀ hpos]
  calc (inPlaces m e places : ℚ) ≤ m * 2 ^ e * 10 ^ places + 1 / 2 := by linarith
    _ ≤ (m * 2 ^ e + 1 / 2) * 10 ^ places := by linarith
    _ < roundingLimit * 10 ^ places := by
        apply mul_lt_mul_of_pos_right _ hpos
        have hlimit : roundingLimit = (2 * leadingBit - 1) * 2 ^ (971 : Int) +
            2 ^ (971 : Int) / 2 := by
          unfold roundingLimit
          ring
        rw [hlimit]
        apply add_lt_add_of_le_of_lt hdouble
        apply div_lt_div_of_pos_right hlarge two_pos

/-- **A double is rounded to the same decimal as the double that is nearest to this decimal.** -/
theorem inPlaces_nearest (h : IsFinite m e) (places : Nat) :
    ∃ m' e', IsFinite m' e' ∧
      nearestBits (inPlaces m e places) (10 ^ places) = packed m' e' ∧
      inPlaces m' e' places = inPlaces m e places := by
  have hpos : (0 : ℚ) < 10 ^ places := by positivity
  obtain ⟨m', e', hfinite, hrounds, hbits⟩ :=
    exists_rounds (Nat.pow_pos (by decide)) (inPlaces_lt_limit h places)
  use m', e', hfinite, hbits
  -- distances to the decimal, in units of the last place
  have hscaled (n : Nat) (t : Int) :
      |(n : ℚ) * 2 ^ t * 10 ^ places - inPlaces m e places| =
        |(n : ℚ) * 2 ^ t - inPlaces m e places / (10 ^ places : Nat)| * 10 ^ places := by
    rw [← abs_of_pos hpos, ← abs_mul, abs_of_pos hpos, sub_mul]
    push_cast
    rw [div_mul_cancel₀ _ hpos.ne']
  apply inPlaces_eq_of_near
  rw [hscaled, hscaled]
  exact mul_le_mul_of_nonneg_right (hrounds.nearest hfinite h) hpos.le

/-! ## Showing, reading and showing again -/

/-- The text of a double with a fixed number of places is read as a double with the same text. -/
theorem exists_readsAs_formatFixed {x : Float} (hx : Binary.ofFloat x ≠ .nan) (places : Int) :
    ∃ y, ReadsAs (formatFixed x places) y ∧ Binary.ofFloat y ≠ .nan ∧
      formatFixed y places = formatFixed x places := by
  have hlt : x.toBits.toNat < 2 ^ 64 := x.toBits.toNat_lt
  rcases Binary.ofBits_cases hlt with hnan | ⟨negative, hbinary, hbits⟩ |
    ⟨negative, m, e, hbinary, hfinite, hbits⟩
  · exact absurd hnan.1 hx
  · have htext : formatFixed x places = formatBinary (.infinite negative) := by
      unfold formatFixed
      rw [Binary.ofFloat, hbinary]
    have hself : x = infinity negative := (ofBits_signed hbits).symm
    use x
    rw [htext]
    constructor
    · rw [hself]
      exact formatBinary_infinite_readsAs negative
    · exact ⟨hx, rfl⟩
  · let count := min maxPlaces places.toNat
    obtain ⟨m', e', hfinite', hnearest, hsame⟩ := inPlaces_nearest hfinite count
    have hread := ofFloat_nearest hfinite' hnearest negative
    use nearest negative (inPlaces m e count) (10 ^ count)
    constructor
    · use .decimal negative (inPlaces m e count) (-count)
      rw [formatFixed_finite hbinary, String.toList_append]
      constructor
      · exact takeNumeral?_places negative _ _
      · exact toFloat_places negative _ (min_le_left _ _)
    · constructor
      · rw [hread]
        intro hcase
        cases hcase
      · rw [formatFixed_finite hread, formatFixed_finite hbinary, hsame]

end Livedoc.Decimal
