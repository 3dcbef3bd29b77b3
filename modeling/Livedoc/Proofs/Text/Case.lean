import Livedoc.Text.Case

/-!
# Letter case

Conversion to upper case gives letters for letters.  A mark before the capital letters or right
behind them, such as a newline, a dot or a bracket, is in the upper case of a text only where it is
in the text (`mem_of_mem_upper`), so the lines of a text, its dots and its brackets stay what they
are.

A text in lower case is made of letters that are their own lower case (`lowerChar_of_mem_lower`).
Any text made of these, such as a part of one in lower case, is its own lower case
(`lower_of_forall`).
-/

namespace Livedoc.Text

variable {c d mark : Char}

/-- The code point of a character given by its code point. -/
private theorem toNat_ofNat {n : Nat} (h : n.isValidChar) : (Char.ofNat n).toNat = n := by
  rw [Char.ofNat, dif_pos h]
  rfl

/-! ## Upper case -/

/-- A code point of a mark is its own. -/
private theorem eq_toNat_of_ofNat {n : Nat} (hpos : 0 < mark.toNat) (h : Char.ofNat n = mark) :
    n = mark.toNat := by
  by_cases hn : n.isValidChar
  · rw [← h, toNat_ofNat hn]
  · rw [Char.ofNat, dif_neg hn] at h
    subst h
    cases hpos

/-- The letters that a shift moves are capital letters or come behind the marks. -/
private theorem upperShifts_offset : ∀ s ∈ upperShifts, (64 : Int) < s.first + s.offset ∧
    (s.last + s.offset < 91 ∨ (96 : Int) < s.first + s.offset) := by
  decide +kernel

private theorem longUppers_offset : ∀ p ∈ longUppers, ∀ n ∈ p.2, 64 < n ∧ (n < 91 ∨ 96 < n) := by
  decide +kernel

private theorem eq_of_shiftCase_eq (hpos : 0 < mark.toNat)
    (hmark : mark.toNat < 65 ∨ 90 < mark.toNat ∧ mark.toNat < 97)
    (h : shiftCase upperShifts c = mark) : c = mark := by
  unfold shiftCase at h
  split at h
  · next s hs =>
      have hoffset := upperShifts_offset s (List.mem_of_find?_eq_some hs)
      have hmoves : s.moves c.toNat = true := by simpa using List.find?_some hs
      have hrange : s.first ≤ c.toNat ∧ c.toNat ≤ s.last := by
        simp only [CaseShift.moves, Bool.and_eq_true, decide_eq_true_eq] at hmoves
        exact hmoves.1
      have hcode := eq_toNat_of_ofNat hpos h
      omega
  · exact h

/-- **Upper case is a mark only for the mark.** -/
theorem eq_of_mem_upperChar (hpos : 0 < mark.toNat)
    (hmark : mark.toNat < 65 ∨ 90 < mark.toNat ∧ mark.toNat < 97)
    (h : mark ∈ upperChar c) : c = mark := by
  unfold upperChar at h
  split at h
  · next hascii =>
      have key : ∀ n < 128, ((Char.ofNat n).toUpper.toNat < 65 ∨
          90 < (Char.ofNat n).toUpper.toNat ∧ (Char.ofNat n).toUpper.toNat < 97) →
            Char.ofNat n = (Char.ofNat n).toUpper := by decide
      have hc := key c.toNat hascii
      rw [Char.ofNat_toNat, ← List.mem_singleton.mp h] at hc
      exact hc hmark
  · split at h
    · next capitals hlong =>
        obtain ⟨n, hn, hcode⟩ := List.mem_map.mp h
        obtain ⟨before, after, hsplit, -⟩ := List.lookup_eq_some_iff.mp hlong
        have hbig := longUppers_offset (c.toNat, capitals) (by rw [hsplit]; simp) n hn
        have hsmall := eq_toNat_of_ofNat hpos hcode
        omega
    · exact eq_of_shiftCase_eq hpos hmark (List.mem_singleton.mp h).symm

/-- A mark in the upper case of a text stands in the text. -/
theorem mem_of_mem_upper {cs : List Char} (hpos : 0 < mark.toNat)
    (hmark : mark.toNat < 65 ∨ 90 < mark.toNat ∧ mark.toNat < 97)
    (h : mark ∈ upper cs) : mark ∈ cs := by
  obtain ⟨c, hc, hmem⟩ := List.mem_flatMap.mp h
  exact eq_of_mem_upperChar hpos hmark hmem ▸ hc

/-! ## Lower case -/

/-- Whether no letter that the shift `s` gives is one that the shift `t` moves.  Either the stretches
do not meet, or capital and small letters alternate where they do. -/
def CaseShift.apart (s t : CaseShift) : Bool :=
  let first := (s.first + s.offset).toNat
  let last := (s.last + s.offset).toNat
  Nat.blt last t.first || Nat.blt t.last first ||
    Nat.beq t.step 2 && (Nat.beq s.step 2 || Nat.beq s.first s.last) &&
      !Nat.beq (first % 2) (t.first % 2)

private theorem lowerShifts_apart :
    (lowerShifts.all fun s => lowerShifts.all fun t => s.apart t) = true := by
  decide +kernel

private theorem lowerShifts_offset : ∀ s ∈ lowerShifts, (0 : Int) ≤ s.first + s.offset ∧
    (s.last + s.offset < 0x130 ∨ (0x130 : Int) < s.first + s.offset) := by
  decide +kernel

theorem CaseShift.moves_iff {s : CaseShift} {n : Nat} :
    s.moves n = true ↔ s.first ≤ n ∧ n ≤ s.last ∧ (n - s.first) % s.step = 0 := by
  simp [moves, and_assoc]

/-- A shift does not move what a shift apart from it gives. -/
theorem CaseShift.moves_of_apart {s t : CaseShift} {n : Nat} (hapart : s.apart t = true)
    (hpos : (0 : Int) ≤ s.first + s.offset) (hmoves : s.moves n = true) :
    t.moves (n + s.offset).toNat = false := by
  obtain ⟨hfirst, hlast, hstep⟩ := moves_iff.mp hmoves
  rw [← Bool.not_eq_true]
  intro hmoves'
  obtain ⟨hfirst', hlast', hstep'⟩ := moves_iff.mp hmoves'
  simp only [apart, Bool.or_eq_true, Bool.and_eq_true, Nat.blt_eq, Nat.beq_eq,
    Bool.not_eq_true', Bool.eq_false_iff, ne_eq] at hapart
  rcases hapart with (hbefore | hbehind) | ⟨⟨htwo, hsame⟩, hparity⟩
  · omega
  · omega
  · rw [htwo] at hstep'
    have heven : (n - s.first) % 2 = 0 := by
      rcases hsame with hsame | hsame
      · rwa [hsame] at hstep
      · omega
    omega

/-- A letter that no shift moves is its own lower case. -/
private theorem lowerChar_ofNat {n : Nat} (hi : n ≠ 0x130)
    (h : ∀ s ∈ lowerShifts, s.moves n = false) : lowerChar (Char.ofNat n) = [Char.ofNat n] := by
  by_cases hn : n.isValidChar
  · have hcode := toNat_ofNat hn
    unfold lowerChar
    rw [hcode]
    split
    · next hascii =>
        have key : ∀ n < 128, (CaseShift.mk 0x41 0x5A 1 32).moves n = false →
            (Char.ofNat n).toLower = Char.ofNat n := by decide
        rw [key n hascii (h _ List.mem_cons_self)]
    · rw [if_neg, shiftCase, hcode, List.find?_eq_none.mpr fun s hs => by simp [h s hs]]
      intro heq
      rw [heq] at hcode
      exact hi hcode.symm
  · rw [Char.ofNat, dif_neg hn]
    decide

/-- **A letter of a lower case is its own lower case.** -/
theorem lowerChar_of_mem_lowerChar (h : d ∈ lowerChar c) : lowerChar d = [d] := by
  unfold lowerChar at h
  split at h
  · next hascii =>
      have key : ∀ n < 128, lowerChar (Char.ofNat n).toLower = [(Char.ofNat n).toLower] := by
        decide +kernel
      have hc := key c.toNat hascii
      rwa [Char.ofNat_toNat, ← List.mem_singleton.mp h] at hc
  · next hcode =>
      split at h
      · have key : (['i', '\u0307'].all fun d => lowerChar d == [d]) = true := by decide +kernel
        exact eq_of_beq (List.all_eq_true.mp key d h)
      · next hi =>
          rw [List.mem_singleton.mp h, shiftCase]
          cases hfound : lowerShifts.find? (·.moves c.toNat) with
          | none =>
              show lowerChar c = [c]
              rw [lowerChar, if_neg hcode, if_neg hi, shiftCase, hfound]
          | some s =>
              have hs := List.mem_of_find?_eq_some hfound
              have hmoves : s.moves c.toNat = true := by simpa using List.find?_some hfound
              obtain ⟨hpos, hrange⟩ := lowerShifts_offset s hs
              obtain ⟨hfirst, hlast, -⟩ := CaseShift.moves_iff.mp hmoves
              refine lowerChar_ofNat (by omega) fun t ht => ?_
              have hapart := List.all_eq_true.mp (List.all_eq_true.mp lowerShifts_apart s hs) t ht
              exact CaseShift.moves_of_apart hapart hpos hmoves

/-- **A text in lower case is made of letters that are their own lower case.** -/
theorem lowerChar_of_mem_lower {cs : List Char} (h : d ∈ lower cs) : lowerChar d = [d] := by
  have hafter (cs before : List Char) (hd : d ∈ lowerAfter before cs) : lowerChar d = [d] := by
    induction cs generalizing before with
    | nil => cases hd
    | cons c cs ih =>
        rw [lowerAfter, List.mem_append] at hd
        rcases hd with hd | hd
        · split at hd
          · have key : (['\u03c2', '\u03c3'].all fun d => lowerChar d == [d]) = true := by
              decide +kernel
            refine eq_of_beq (List.all_eq_true.mp key d ?_)
            rw [List.mem_singleton.mp hd]
            split <;> simp
          · exact lowerChar_of_mem_lowerChar hd
        · exact ih (c :: before) hd
  exact hafter cs [] h

/-- **Letters that are their own lower case are a text in lower case.** -/
theorem lower_of_forall {cs : List Char} (h : ∀ c ∈ cs, lowerChar c = [c]) : lower cs = cs := by
  have hafter : ∀ before, lowerAfter before cs = cs := by
    induction cs with
    | nil => exact fun _ => rfl
    | cons c cs ih =>
        intro before
        obtain ⟨hc, hcs⟩ := List.forall_mem_cons.mp h
        have hsigma : c ≠ '\u03a3' := by
          rintro rfl
          exact absurd hc (by decide +kernel)
        rw [lowerAfter, if_neg hsigma, hc, ih hcs, List.singleton_append]
  exact hafter []

end Livedoc.Text
