import Livedoc.Proofs.Text.Blank
import Livedoc.Proofs.Text.Lines
import Mathlib.Algebra.Ring.Nat

/-!
# Counting opening brackets

The number of opening brackets in a text is that of its parts together, and taking characters out of
the text, or dividing it into lines, adds none.
-/

namespace Livedoc.Text

variable {c : Char} {cs ds : List Char}

/-- The number of opening brackets in a text. -/
def tally (cs : List Char) : Nat := cs.count '['

@[simp]
theorem tally_nil : tally [] = 0 := rfl

theorem tally_cons (c : Char) (cs : List Char) :
    tally (c :: cs) = tally cs + if c = '[' then 1 else 0 := by
  simp [tally, List.count_cons]

@[simp]
theorem tally_cons_of_ne (h : c ≠ '[') (cs : List Char) : tally (c :: cs) = tally cs := by
  rw [tally_cons, if_neg h, Nat.add_zero]

@[simp]
theorem tally_append (cs ds : List Char) : tally (cs ++ ds) = tally cs + tally ds :=
  List.count_append

@[simp]
theorem tally_reverse (cs : List Char) : tally cs.reverse = tally cs :=
  List.count_reverse

theorem tally_eq_zero_iff : tally cs = 0 ↔ '[' ∉ cs := List.count_eq_zero

theorem tally_replicate (h : c ≠ '[') (n : Nat) : tally (List.replicate n c) = 0 :=
  tally_eq_zero_iff.mpr fun hmem => h (List.eq_of_mem_replicate hmem).symm

theorem tally_replicate_le {m n : Nat} (h : m ≤ n) (c : Char) :
    tally (List.replicate m c) ≤ tally (List.replicate n c) :=
  ((List.replicate_sublist_replicate c).mpr h).count_le '['

/-! ## Parts -/

theorem tally_le_of_sublist (h : cs.Sublist ds) : tally cs ≤ tally ds := h.count_le '['

theorem tally_le_of_suffix (h : cs <:+ ds) : tally cs ≤ tally ds :=
  tally_le_of_sublist h.sublist

theorem tally_dropEndWhile_le (p : Char → Bool) (cs : List Char) :
    tally (dropEndWhile p cs) ≤ tally cs :=
  tally_le_of_sublist (prefix_dropEndWhile p cs).sublist

theorem tally_dropWhile_le (p : Char → Bool) (cs : List Char) :
    tally (cs.dropWhile p) ≤ tally cs :=
  tally_le_of_sublist (List.dropWhile_sublist p)

theorem tally_trimWhile_le (p : Char → Bool) (cs : List Char) :
    tally (trimWhile p cs) ≤ tally cs :=
  Nat.le_trans (tally_dropEndWhile_le p _) (tally_dropWhile_le p cs)

theorem tally_drop_le (n : Nat) (cs : List Char) : tally (cs.drop n) ≤ tally cs :=
  tally_le_of_sublist (List.drop_sublist n cs)

theorem tally_take_add_drop (n : Nat) (cs : List Char) :
    tally (cs.take n) + tally (cs.drop n) = tally cs := by
  rw [← tally_append, List.take_append_drop]

/-! ## Several texts -/

/-- The number of opening brackets in several texts. -/
def tallyAll (css : List (List Char)) : Nat := (css.map tally).sum

@[simp]
theorem tallyAll_nil : tallyAll [] = 0 := rfl

@[simp]
theorem tallyAll_cons (cs : List Char) (css : List (List Char)) :
    tallyAll (cs :: css) = tally cs + tallyAll css := by
  simp [tallyAll]

@[simp]
theorem tallyAll_append (css dss : List (List Char)) :
    tallyAll (css ++ dss) = tallyAll css + tallyAll dss := by
  simp [tallyAll]

theorem tallyAll_eq_zero_iff {css : List (List Char)} :
    tallyAll css = 0 ↔ ∀ cs ∈ css, '[' ∉ cs := by
  induction css with
  | nil => exact ⟨fun _ => nofun, fun _ => rfl⟩
  | cons cs css ih =>
      rw [tallyAll_cons, Nat.add_eq_zero_iff, ih, tally_eq_zero_iff, List.forall_mem_cons]

theorem tallyAll_le_of_sublist {css dss : List (List Char)} (h : css.Sublist dss) :
    tallyAll css ≤ tallyAll dss := by
  induction h with
  | slnil => exact Nat.le_refl _
  | cons ds _ ih =>
      rw [tallyAll_cons]
      omega
  | cons_cons cs _ ih =>
      rw [tallyAll_cons, tallyAll_cons]
      omega

/-- Taking something out of each text adds no brackets. -/
theorem tallyAll_map_le {f : List Char → List Char} (h : ∀ cs, tally (f cs) ≤ tally cs)
    (css : List (List Char)) : tallyAll (css.map f) ≤ tallyAll css := by
  induction css with
  | nil => exact Nat.le_refl _
  | cons cs css ih =>
      have hfirst := h cs
      rw [List.map_cons, tallyAll_cons, tallyAll_cons]
      omega

theorem tally_unlines (css : List (List Char)) : tally (unlines css) = tallyAll css := by
  induction css with
  | nil => rfl
  | cons cs css ih =>
      cases css with
      | nil => rfl
      | cons next css =>
          rw [unlines_cons_cons, tally_append, tally_cons_of_ne (by decide), ih, tallyAll_cons cs]

/-- **The lines of a text have its brackets.** -/
theorem tallyAll_lines (cs : List Char) : tallyAll (lines cs) = tally cs := by
  rw [← tally_unlines, unlines_lines]

end Livedoc.Text
