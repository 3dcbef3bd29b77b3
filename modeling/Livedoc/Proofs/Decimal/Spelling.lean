import Livedoc.Decimal.Number
import Livedoc.Decimal.Reading
import Livedoc.Proofs.Decimal.Shortest
import Livedoc.Proofs.Text.Blank
import Livedoc.Proofs.Text.Case
import Mathlib.Data.List.TakeDrop

/-!
# Decimals that are read back

A decimal is laid out as digits, a point, further digits and an exponent, some of which may be
missing. Whatever the layout, the reader of numbers takes all of it, and the digits and the exponent
that it finds have the value of the decimal (`write_spells`). So it does not matter to a reader which
layout was chosen.

The text of a finite number is made of digits, a point, signs and the mark of an exponent
(`OfMarks.formatBinary`, `OfMarks.placesText`). None of these is white space or a capital letter, so
the text of a number stays what it is where a text is trimmed or put in lower case.
-/

namespace Livedoc.Decimal

open Livedoc.Text

/-! ## Digits -/

/-- The decimal digits of ASCII, and no others. -/
def AllDigits (cs : List Char) : Prop := ∀ c ∈ cs, c.isDigit = true

namespace AllDigits

theorem nil : AllDigits [] := fun _ h => absurd h List.not_mem_nil

theorem append {cs ds : List Char} (hc : AllDigits cs) (hd : AllDigits ds) :
    AllDigits (cs ++ ds) := fun c h => (List.mem_append.mp h).elim (hc c) (hd c)

theorem toDigits (n : Nat) : AllDigits (Nat.toDigits 10 n) :=
  fun _ => Nat.isDigit_of_mem_toDigits (by decide) (by decide)

theorem zeros (n : Nat) : AllDigits (List.replicate n '0') := by
  intro c h
  rw [List.eq_of_mem_replicate h]
  rfl

theorem take {cs : List Char} (h : AllDigits cs) (n : Nat) : AllDigits (cs.take n) :=
  fun c hc => h c (List.mem_of_mem_take hc)

theorem drop {cs : List Char} (h : AllDigits cs) (n : Nat) : AllDigits (cs.drop n) :=
  fun c hc => h c (List.mem_of_mem_drop hc)

end AllDigits

theorem toNat_of_isDigit {c : Char} (h : c.isDigit = true) : 48 ≤ c.toNat ∧ c.toNat ≤ 57 := by
  simp only [Char.isDigit, Bool.and_eq_true, decide_eq_true_eq] at h
  exact ⟨UInt32.le_iff_toNat_le.mp h.1, UInt32.le_iff_toNat_le.mp h.2⟩

theorem digitValue?_of_isDigit {c : Char} (h : c.isDigit = true) :
    digitValue? c = some (c.toNat - 48) := by
  have hrange := toNat_of_isDigit h
  have hfirst : (decide (0x30 ≤ c.toNat) && decide (c.toNat < 0x30 + 10)) = true := by
    simp only [Bool.and_eq_true, decide_eq_true_eq]
    omega
  obtain ⟨zeros, hzeros⟩ : ∃ zeros, digitZeros = 0x30 :: zeros := ⟨_, rfl⟩
  have hfind : digitZeros.find? (fun z => z ≤ c.toNat && c.toNat < z + 10) = some 0x30 := by
    rw [hzeros]
    exact List.find?_cons_of_pos hfirst
  rw [digitValue?, hfind]
  rfl

theorem decimalValue_eq {cs : List Char} (h : AllDigits cs) :
    decimalValue cs = Nat.ofDigitChars 10 cs 0 := by
  have hfold : ∀ (n : Nat) (cs : List Char), AllDigits cs →
      cs.foldl (fun n c => n * 10 + (digitValue? c).getD 0) n = Nat.ofDigitChars 10 cs n := by
    intro n cs
    induction cs generalizing n with
    | nil => exact fun _ => rfl
    | cons c cs ih =>
        intro hall
        rw [List.foldl_cons, Nat.ofDigitChars_cons, ih _ fun d hd => hall d (List.mem_cons_of_mem c hd),
          digitValue?_of_isDigit (hall c List.mem_cons_self), Nat.mul_comm n]
        rfl
  exact hfold 0 cs h

/-- The digits of a number have its value. -/
theorem decimalValue_toDigits (n : Nat) : decimalValue (Nat.toDigits 10 n) = n := by
  rw [decimalValue_eq (.toDigits n), Nat.ofDigitChars_ten_toDigits]

/-- Zeros before a number do not change it. -/
theorem decimalValue_zeros_append (k n : Nat) :
    decimalValue (List.replicate k '0' ++ Nat.toDigits 10 n) = n := by
  rw [decimalValue_eq (.append (.zeros k) (.toDigits n)), Nat.ofDigitChars_append,
    Nat.ofDigitChars_replicate_zero, Nat.mul_zero, Nat.ofDigitChars_ten_toDigits]

/-- Zeros after a number stand for a power of ten. -/
theorem decimalValue_append_zeros (n k : Nat) :
    decimalValue (Nat.toDigits 10 n ++ List.replicate k '0') = n * 10 ^ k := by
  rw [decimalValue_eq (.append (.toDigits n) (.zeros k)), Nat.ofDigitChars_append,
    Nat.ofDigitChars_replicate_zero, Nat.ofDigitChars_ten_toDigits, Nat.mul_comm]

/-! ## Reading a spelled number -/

/-- The text does not go on with a digit. -/
def NoDigitHead (cs : List Char) : Prop := ∀ c ∈ cs.head?, isDecimalDigit c = false

theorem isDecimalDigit_of_isDigit {c : Char} (h : c.isDigit = true) : isDecimalDigit c = true := by
  rw [isDecimalDigit, digitValue?_of_isDigit h]
  rfl

/-- Digits are read up to where they end. -/
theorem spanDigits_append {ds rest : List Char} (hds : AllDigits ds) (hrest : NoDigitHead rest) :
    spanDigits (ds ++ rest) = (ds, rest) := by
  have hdigit : ∀ c ∈ ds, isDecimalDigit c = true :=
    fun c hc => isDecimalDigit_of_isDigit (hds c hc)
  rw [spanDigits, List.span_eq_takeWhile_dropWhile, List.takeWhile_append_of_pos hdigit,
    List.dropWhile_append_of_pos hdigit]
  cases rest with
  | nil => simp
  | cons c rest =>
      have hc : ¬ isDecimalDigit c = true := by simp [hrest c rfl]
      rw [List.takeWhile_cons_of_neg hc, List.dropWhile_cons_of_neg hc, List.append_nil]

/-- The digits after a point, if there are any. -/
def pointed (fraction : List Char) : List Char :=
  if fraction = [] then [] else '.' :: fraction

/-- What may follow the digits of a number: nothing, or a mark that neither is a digit nor a
point. -/
def EndsDigits (rest : List Char) : Prop := NoDigitHead rest ∧ rest.head? ≠ some '.'

theorem takeDigits?_spelled {whole fraction rest : List Char} (hne : whole ≠ [])
    (hwhole : AllDigits whole) (hfraction : AllDigits fraction) (hrest : EndsDigits rest) :
    takeDigits? (whole ++ (pointed fraction ++ rest)) = some (whole, fraction, rest) := by
  obtain ⟨c, cs, rfl⟩ := List.exists_cons_of_ne_nil hne
  by_cases hempty : fraction = []
  · have hspan : spanDigits (c :: cs ++ (pointed fraction ++ rest)) = (c :: cs, rest) := by
      rw [pointed, if_pos hempty]
      exact spanDigits_append hwhole hrest.1
    simp only [takeDigits?, hspan]
    split <;> simp_all [EndsDigits]
  · have hpoint : NoDigitHead ('.' :: (fraction ++ rest)) := by
      rintro d hd
      cases hd
      rfl
    have hspan : spanDigits (c :: cs ++ (pointed fraction ++ rest)) =
        (c :: cs, '.' :: (fraction ++ rest)) := by
      rw [pointed, if_neg hempty]
      exact spanDigits_append hwhole hpoint
    simp only [takeDigits?, hspan, spanDigits_append hfraction hrest.1]

/-- An exponent is read with its sign. -/
theorem takeExponent_spelled (negative : Bool) {ds : List Char} (hne : ds ≠ []) (hds : AllDigits ds) :
    takeExponent ('e' :: (if negative then '-' else '+') :: ds) =
      (if negative then -(decimalValue ds : Int) else decimalValue ds, []) := by
  have hspan : spanDigits ds = (ds, []) := by
    have hall : spanDigits (ds ++ []) = (ds, []) := spanDigits_append hds (by rintro c ⟨⟩)
    rwa [List.append_nil] at hall
  cases negative with
  | true => simp [takeExponent, takeSign, hspan, hne]
  | false => simp [takeExponent, takeSign, hspan, hne]

theorem isBlank_of_isDigit {c : Char} (h : c.isDigit = true) : isBlank c = false := by
  have hrange := toNat_of_isDigit h
  simp only [isBlank, inRanges, blankRanges, CharRange.covers, List.any_cons, List.any_nil,
    Bool.or_false, Bool.or_eq_false_iff, Bool.and_eq_false_iff, decide_eq_false_iff_not]
  omega

/-- What follows the sign of a number starts with its first digit. -/
theorem takeNumeral?_signed {negative : Bool} {c : Char} {cs : List Char} (hc : c.isDigit = true) :
    takeNumeral? ((signText negative).toList ++ c :: cs) =
      (takeDigits? (c :: cs)).map fun (whole, fraction, rest) =>
        (.decimal negative (decimalValue (whole ++ fraction))
          ((takeExponent rest).1 - fraction.length), (takeExponent rest).2) := by
  have hsign : takeSign (trimStart ((signText negative).toList ++ c :: cs)) =
      (negative, c :: cs) := by
    have hrange := toNat_of_isDigit hc
    have hminus : c ≠ '-' := by rintro rfl; exact absurd hc (by decide)
    have hplus : c ≠ '+' := by rintro rfl; exact absurd hc (by decide)
    cases negative with
    | true =>
        have htrim : trimStart ('-' :: c :: cs) = '-' :: c :: cs :=
          List.dropWhile_cons_of_neg (by decide)
        exact congrArg takeSign htrim
    | false =>
        have htrim : trimStart (c :: cs) = c :: cs :=
          List.dropWhile_cons_of_neg (by simp [isBlank_of_isDigit hc])
        show takeSign (trimStart (c :: cs)) = _
        rw [htrim, takeSign]
        · simp [hminus]
        · simp [hplus]
  have hword : "Infinity".toList.isPrefixOf (c :: cs) = false := by
    have hne : c ≠ 'I' := by rintro rfl; exact absurd hc (by decide)
    show ('I' == c && _) = false
    simp [Ne.symm hne]
  simp only [takeNumeral?, hsign, hword, Bool.false_eq_true, if_false]
  cases takeDigits? (c :: cs) <;> rfl

/-- A number spelled with a sign, digits, and what may follow them is read in full. -/
theorem takeNumeral?_spelled (negative : Bool) {whole fraction rest : List Char} {exponent : Int}
    (hne : whole ≠ []) (hwhole : AllDigits whole) (hfraction : AllDigits fraction)
    (hrest : EndsDigits rest) (hexponent : takeExponent rest = (exponent, [])) :
    takeNumeral? ((signText negative).toList ++ (whole ++ (pointed fraction ++ rest))) =
      some (.decimal negative (decimalValue (whole ++ fraction)) (exponent - fraction.length), []) := by
  have hdigits := takeDigits?_spelled hne hwhole hfraction hrest
  obtain ⟨c, cs, rfl⟩ := List.exists_cons_of_ne_nil hne
  rw [List.cons_append, takeNumeral?_signed (hwhole c List.mem_cons_self), ← List.cons_append,
    hdigits, Option.map_some]
  simp only [hexponent]

/-! ## Layouts -/

theorem endsDigits_nil : EndsDigits [] := ⟨by rintro c ⟨⟩, by simp⟩

theorem toList_zeros (n : Nat) : (zeros n).toList = List.replicate n '0' := String.toList_ofList

theorem toList_digitText (n : Nat) : (digitText n).toList = Nat.toDigits 10 n := String.toList_ofList

/-- What a text spells in full: a sign, digits and an exponent, which stand for a value. -/
def Spells (text : String) (negative : Bool) (q : ℚ) : Prop :=
  ∃ (value : Nat) (exponent : Int), (value : ℚ) * 10 ^ exponent = q ∧
    takeNumeral? ((signText negative).toList ++ text.toList) =
      some (.decimal negative value exponent, [])

theorem pointed_of_ne_nil {fraction : List Char} (h : fraction ≠ []) :
    pointed fraction = '.' :: fraction := if_neg h

/-- A text spells what its digits and its exponent stand for. -/
theorem Spells.of_parts {text : String} {whole fraction rest : List Char} {exponent : Int} {q : ℚ}
    (negative : Bool) (hne : whole ≠ []) (hwhole : AllDigits whole) (hfraction : AllDigits fraction)
    (hrest : EndsDigits rest) (hexponent : takeExponent rest = (exponent, []))
    (htext : text.toList = whole ++ (pointed fraction ++ rest))
    (hvalue : (decimalValue (whole ++ fraction) : ℚ) * 10 ^ (exponent - fraction.length) = q) :
    Spells text negative q := by
  refine ⟨_, _, hvalue, ?_⟩
  rw [htext]
  exact takeNumeral?_spelled negative hne hwhole hfraction hrest hexponent

/-- A text without an exponent spells what its digits stand for. -/
theorem Spells.of_digits {text : String} {whole fraction : List Char} {q : ℚ} (negative : Bool)
    (hne : whole ≠ []) (hwhole : AllDigits whole) (hfraction : AllDigits fraction)
    (htext : text.toList = whole ++ pointed fraction)
    (hvalue : (decimalValue (whole ++ fraction) : ℚ) * 10 ^ (-fraction.length : Int) = q) :
    Spells text negative q :=
  .of_parts negative hne hwhole hfraction endsDigits_nil rfl (by rw [htext, List.append_nil])
    (by rw [zero_sub, hvalue])

/-- A whole number is spelled by its digits. -/
theorem digitText_spells (n : Nat) (negative : Bool) : Spells (digitText n) negative n := by
  refine .of_digits negative Nat.toDigits_ne_nil (.toDigits n) .nil ?_ ?_
  · simp [pointed, toList_digitText]
  · simp [decimalValue_toDigits]

section Positional

variable (d : Digits) (negative : Bool)

/-- All digits stand after the point. -/
theorem spells_behindPoint (hpoint : d.point ≤ 0) :
    Spells ("0." ++ zeros (-d.point).toNat ++ String.ofList (Nat.toDigits 10 d.value)) negative
      (d.value * 10 ^ (d.point - digitCount d.value)) := by
  let fraction := List.replicate (-d.point).toNat '0' ++ Nat.toDigits 10 d.value
  have hfraction : fraction ≠ [] := List.append_ne_nil_of_right_ne_nil _ Nat.toDigits_ne_nil
  have hvalue : decimalValue (['0'] ++ fraction) = d.value :=
    decimalValue_zeros_append ((-d.point).toNat + 1) d.value
  refine .of_digits negative (List.cons_ne_nil '0' []) (.zeros 1)
    (.append (.zeros (-d.point).toNat) (.toDigits d.value)) ?_ ?_
  · rw [pointed_of_ne_nil hfraction]
    simp [toList_zeros, fraction]
  · rw [hvalue]
    congr 2
    simp only [List.length_append, List.length_replicate, digitCount]
    omega

/-- The point stands among the digits. -/
theorem spells_aroundPoint (hpos : 0 < d.point) (hinside : d.point < digitCount d.value) :
    Spells (String.ofList ((Nat.toDigits 10 d.value).take d.point.toNat) ++ "." ++
      String.ofList ((Nat.toDigits 10 d.value).drop d.point.toNat)) negative
        (d.value * 10 ^ (d.point - digitCount d.value)) := by
  rw [digitCount] at hinside
  have hwhole : (Nat.toDigits 10 d.value).take d.point.toNat ≠ [] := by
    simp only [ne_eq, List.take_eq_nil_iff, Nat.toDigits_ne_nil, or_false]
    omega
  have hfraction : (Nat.toDigits 10 d.value).drop d.point.toNat ≠ [] := by
    simp only [ne_eq, List.drop_eq_nil_iff]
    omega
  refine .of_digits negative hwhole (.take (.toDigits d.value) _)
    (.drop (.toDigits d.value) d.point.toNat) ?_ ?_
  · rw [pointed_of_ne_nil hfraction]
    simp
  · rw [List.take_append_drop, decimalValue_toDigits]
    congr 2
    simp only [List.length_drop, digitCount]
    omega

/-- The digits end before the point, and a zero may stand after it. -/
theorem spells_beforePoint (hbefore : digitCount d.value ≤ d.point) (keepFraction : Bool) :
    Spells (String.ofList (Nat.toDigits 10 d.value) ++ zeros (d.point - digitCount d.value).toNat ++
      if keepFraction then ".0" else "") negative
        (d.value * 10 ^ (d.point - digitCount d.value)) := by
  generalize hk : (d.point - digitCount d.value).toNat = k
  have hpower : d.point - digitCount d.value = (k : Int) := by omega
  have hwhole : Nat.toDigits 10 d.value ++ List.replicate k '0' ≠ [] :=
    List.append_ne_nil_of_left_ne_nil Nat.toDigits_ne_nil _
  have hdigits : AllDigits (Nat.toDigits 10 d.value ++ List.replicate k '0') :=
    .append (.toDigits d.value) (.zeros k)
  cases keepFraction with
  | false =>
      refine .of_digits negative hwhole hdigits .nil ?_ ?_
      · simp [pointed, toList_zeros]
      · rw [List.append_nil, decimalValue_append_zeros, hpower]
        simp
  | true =>
      refine .of_digits negative hwhole hdigits (.zeros 1 : AllDigits ['0']) ?_ ?_
      · simp [pointed, toList_zeros]
      · rw [List.append_assoc, List.replicate_append_replicate, decimalValue_append_zeros, hpower]
        have hten : ((10 ^ (k + 1) : Nat) : ℚ) * 10 ^ (-1 : Int) = 10 ^ k := by
          rw [Nat.cast_pow, pow_succ, zpow_neg_one]
          exact mul_inv_cancel_right₀ (by norm_num) _
        rw [Nat.cast_mul, mul_assoc, zpow_natCast]
        exact congrArg _ hten

theorem positional_spells (style : Style) :
    Spells (style.positional d) negative (d.value * 10 ^ (d.point - digitCount d.value)) := by
  unfold Style.positional
  dsimp only
  split
  · next hpoint => exact spells_behindPoint d negative hpoint
  · split
    · next hpos hinside => exact spells_aroundPoint d negative (not_le.mp hpos) hinside
    · next hpos houtside => exact spells_beforePoint d negative (not_lt.mp houtside) _

end Positional

theorem scientific_spells (style : Style) (d : Digits) (negative : Bool) :
    Spells (style.scientific d) negative (d.value * 10 ^ (d.point - digitCount d.value)) := by
  let exponent := d.point - 1
  let width := style.exponentWidth - (digitText exponent.natAbs).length
  let size := List.replicate width '0' ++ Nat.toDigits 10 exponent.natAbs
  let rest := 'e' :: (if exponent < 0 then '-' else '+') :: size
  have hpos : 0 < (Nat.toDigits 10 d.value).length := Nat.length_toDigits_pos
  have hsize : digitCount d.value = (Nat.toDigits 10 d.value).length := rfl
  have hrest : EndsDigits rest := ⟨by rintro c ⟨⟩; decide, by simp [rest]⟩
  have hexponent : takeExponent rest = (exponent, []) := by
    have hne : size ≠ [] := List.append_ne_nil_of_right_ne_nil _ Nat.toDigits_ne_nil
    have hall : AllDigits size := .append (.zeros width) (.toDigits exponent.natAbs)
    have hvalue : decimalValue size = exponent.natAbs := decimalValue_zeros_append width _
    have hread := takeExponent_spelled (decide (exponent < 0)) hne hall
    simp only [decide_eq_true_eq, hvalue] at hread
    refine hread.trans (congrArg (·, []) ?_)
    split <;> omega
  have hwhole : (Nat.toDigits 10 d.value).take 1 ≠ [] := by
    simp [Nat.toDigits_ne_nil]
  refine .of_parts negative hwhole (.take (.toDigits d.value) 1) (.drop (.toDigits d.value) 1) hrest
    hexponent ?_ ?_
  · have hpointed : (if (Nat.toDigits 10 d.value).length > 1 then
          "." ++ String.ofList ((Nat.toDigits 10 d.value).drop 1) else "").toList =
        pointed ((Nat.toDigits 10 d.value).drop 1) := by
      split
      · next h =>
        rw [pointed_of_ne_nil (mt List.drop_eq_nil_iff.mp (not_le.mpr h))]
        simp
      · next h =>
        rw [pointed, if_pos (List.drop_eq_nil_iff.mpr (not_lt.mp h))]
        rfl
    have hsign : (if exponent < 0 then "-" else "+").toList =
        [if exponent < 0 then '-' else '+'] := by split <;> rfl
    simp only [Style.scientific, String.toList_append, String.toList_ofList, hpointed]
    rw [hsign, toList_zeros, toList_digitText]
    simp [rest, size, width, exponent]
  · rw [List.take_append_drop, decimalValue_toDigits]
    congr 2
    simp only [List.length_drop, hsize]
    omega

/-- **A decimal is spelled by each of its layouts.** -/
theorem write_spells (style : Style) (d : Digits) (negative : Bool) :
    Spells (style.write d) negative (d.value * 10 ^ (d.point - digitCount d.value)) := by
  unfold Style.write
  split
  · exact positional_spells d negative style
  · exact scientific_spells style d negative

/-! ## The characters of a number -/

/-- A character that the text of a finite number is made of. -/
def isNumberMark (c : Char) : Bool := c.isDigit || ['.', '-', '+', 'e'].contains c

/-- The text is made of such characters. -/
def OfMarks (text : String) : Prop := ∀ c ∈ text.toList, isNumberMark c = true

instance (text : String) : Decidable (OfMarks text) :=
  decidable_of_iff (text.toList.all isNumberMark = true) List.all_eq_true

namespace OfMarks

theorem append {s t : String} (hs : OfMarks s) (ht : OfMarks t) : OfMarks (s ++ t) := by
  intro c hc
  rw [String.toList_append] at hc
  exact (List.mem_append.mp hc).elim (hs c) (ht c)

theorem digits {cs : List Char} (h : AllDigits cs) : OfMarks (String.ofList cs) := by
  intro c hc
  rw [String.toList_ofList] at hc
  rw [isNumberMark, h c hc, Bool.true_or]

theorem digitText (n : Nat) : OfMarks (digitText n) := digits (.toDigits n)

theorem zeros (n : Nat) : OfMarks (zeros n) := digits (.zeros n)

theorem signText (negative : Bool) : OfMarks (signText negative) := by
  cases negative <;> decide

/-- Where one of two texts is taken, both have to be made of such characters. -/
theorem ite {p : Prop} [Decidable p] {s t : String} (hs : OfMarks s) (ht : OfMarks t) :
    OfMarks (if p then s else t) := by
  split
  · exact hs
  · exact ht

theorem positional (style : Style) (d : Digits) : OfMarks (style.positional d) := by
  have hdigits : AllDigits (Nat.toDigits 10 d.value) := .toDigits d.value
  have hpoint : OfMarks "." := by decide
  have hzero : OfMarks "0." := by decide
  have hfraction : OfMarks ".0" := by decide
  have hnone : OfMarks "" := by decide
  unfold Style.positional
  apply ite
  · exact (hzero.append (.zeros _)).append (.digits hdigits)
  · apply ite
    · exact ((digits (hdigits.take _)).append hpoint).append (.digits (hdigits.drop _))
    · exact ((digits hdigits).append (.zeros _)).append (.ite hfraction hnone)

theorem scientific (style : Style) (d : Digits) : OfMarks (style.scientific d) := by
  have hdigits : AllDigits (Nat.toDigits 10 d.value) := .toDigits d.value
  have hpoint : OfMarks "." := by decide
  have hmark : OfMarks "e" := by decide
  have hminus : OfMarks "-" := by decide
  have hplus : OfMarks "+" := by decide
  have hnone : OfMarks "" := by decide
  have hmantissa := (digits (hdigits.take 1)).append
    (.ite (p := (Nat.toDigits 10 d.value).length > 1)
      (hpoint.append (.digits (hdigits.drop 1))) hnone)
  have hsign := hmantissa.append hmark |>.append (.ite (p := d.point - 1 < 0) hminus hplus)
  exact (hsign.append (.zeros _)).append (.digitText _)

theorem write (style : Style) (d : Digits) : OfMarks (style.write d) :=
  ite (positional style d) (scientific style d)

theorem placesText (value places : Nat) : OfMarks (placesText value places) := by
  have hpoint : OfMarks "." := by decide
  unfold Decimal.placesText
  apply ite
  · exact .digitText _
  · exact (((digitText _).append hpoint).append (.zeros _)).append (.digitText _)

theorem formatBinary (negative : Bool) (m : Nat) (e : Int) :
    OfMarks (formatBinary (.finite negative m e)) := by
  have hzero : OfMarks "0" := by decide
  unfold Decimal.formatBinary
  dsimp only
  apply ite hzero
  apply ite
  · exact (signText negative).append (.digitText _)
  · exact (signText negative).append (.write _ _)

/-! ## What is done to the text of a number -/

theorem lt_of_isNumberMark {c : Char} (h : isNumberMark c = true) : c.toNat < 128 := by
  rw [isNumberMark, Bool.or_eq_true] at h
  apply h.elim
  · intro hdigit
    have := toNat_of_isDigit hdigit
    omega
  · intro hmark
    have hall : ∀ c ∈ ['.', '-', '+', 'e'], c.toNat < 128 := by simp
    exact hall c (List.contains_iff_mem.mp hmark)

/-- No such character is white space or a capital letter. -/
theorem isNumberMark_spec {c : Char} (h : isNumberMark c = true) :
    isBlank c = false ∧ lowerChar c = [c] := by
  have hall : ∀ n < 128, isNumberMark (Char.ofNat n) = true →
      isBlank (Char.ofNat n) = false ∧ lowerChar (Char.ofNat n) = [Char.ofNat n] := by
    decide +kernel
  have hself := hall c.toNat (lt_of_isNumberMark h)
  rw [Char.ofNat_toNat] at hself
  exact hself h

variable {text : String}

/-- **The text of a number is trimmed already.** -/
theorem strip (h : OfMarks text) : strip text = text := by
  have hblank : ∀ c ∈ text.toList, isBlank c = false := fun c hc => (isNumberMark_spec (h c hc)).1
  rw [Text.strip, trim, trimWhile_of_none hblank, String.ofList_toList]

/-- **The text of a number is in lower case already.** -/
theorem toLower (h : OfMarks text) : toLower text = text := by
  have hlower : ∀ c ∈ text.toList, lowerChar c = [c] := fun c hc => (isNumberMark_spec (h c hc)).2
  rw [Text.toLower, lower_of_forall hlower, String.ofList_toList]

end OfMarks

end Livedoc.Decimal
