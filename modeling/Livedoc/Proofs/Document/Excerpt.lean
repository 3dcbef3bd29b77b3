import Livedoc.Document.Reading
import Livedoc.Proofs.Document.Segment
import Livedoc.Proofs.Text.Blank

/-!
# Where segments stand

Dividing lines gives segments one after the other, each with the number of the line that it starts
at (`Divides`), whatever fence is open, whatever Markdown is pending and however many lines still
belong to the block call before (`segmentsFrom_divides`).  So a segment is a stretch of the lines
that are divided, and its number is that of its first line (`segments_standAt`).  The body of a
block call is a stretch of the lines after it, with columns taken away that hold nothing but spaces
and tabs.  So whatever lines are read within bodies, at whatever depth, are lines of the whole text
without their first columns (`Excerpt`), and where such a line holds anything, what was taken away
was blank.
-/

namespace Livedoc.Document

open Livedoc.Call Livedoc.Text

variable {number : Nat} {ls : List (List Char)} {ss : List Segment}

/-! ## Block calls -/

theorem blockCall?_line {line : List Char} {rest : List (List Char)} {c : BlockCall}
    (h : blockCall? number line rest = some c) :
    c.line = line ∧ c.number = number ∧ c.body = indentedLines rest ∧
      headAt? 0 line = some c.head ∧ c.head.unterminated = false := by
  unfold blockCall? at h
  split at h
  · cases h
  · next head hhead =>
      dsimp only at h
      split at h
      · cases h
      · next hclosed =>
          split at h
          · cases h
            exact ⟨rfl, rfl, rfl, hhead, by simpa using hclosed⟩
          · cases h

/-- A body consists of lines that continue it, from the first one on. -/
theorem indentedLines_prefix_takeWhile (ls : List (List Char)) :
    indentedLines ls <+: ls.takeWhile continuesBody := by
  have hdrop : ∀ xs : List (List Char),
      xs.foldr (fun line rest => if rest.isEmpty && allBlank line then [] else line :: rest) [] <+:
        xs := by
    intro xs
    induction xs with
    | nil => exact List.prefix_refl []
    | cons x xs ih =>
        rw [List.foldr_cons]
        split
        · exact List.nil_prefix
        · exact (List.prefix_cons_inj x).mpr ih
  exact hdrop _

/-- A body is a stretch of the lines after its call. -/
theorem indentedLines_prefix (ls : List (List Char)) : indentedLines ls <+: ls :=
  (indentedLines_prefix_takeWhile ls).trans (List.takeWhile_prefix _)

/-! ## Dividing lines -/

def Segment.isMarkdown : Segment → Bool
  | .markdown _ _ => true
  | .call _ => false

/-- The segments divide the lines, the first of which has the given number. -/
inductive Divides : Nat → List (List Char) → List Segment → Prop where
  | nil {number : Nat} : Divides number [] []
  /-- A stretch of Markdown holds a line and goes up to a block call or to the end. -/
  | markdown {number : Nat} {ms after : List (List Char)} {ss : List Segment} (hne : ms ≠ [])
      (hnext : ∀ s ∈ ss.head?, s.isMarkdown = false)
      (hafter : Divides (number + ms.length) after ss) :
      Divides number (ms ++ after) (.markdown ms number :: ss)
  | call {number : Nat} {c : BlockCall} {after : List (List Char)} {ss : List Segment}
      (hcall : blockCall? number c.line (c.body ++ after) = some c)
      (hafter : Divides (number + 1 + c.body.length) after ss) :
      Divides number (c.line :: (c.body ++ after)) (.call c :: ss)

theorem divides_markdownBefore (pending : List (List Char))
    (hnext : ∀ s ∈ ss.head?, s.isMarkdown = false)
    (hafter : Divides (number + pending.length) ls ss) :
    Divides number (pending.reverse ++ ls)
      (markdownBefore pending (number + pending.length) ++ ss) := by
  unfold markdownBefore
  cases pending with
  | nil => exact hafter
  | cons line pending =>
      rw [← List.length_reverse] at hafter ⊢
      rw [if_neg (by simp), Nat.add_sub_cancel]
      exact .markdown (by simp) hnext hafter

/-- **Dividing lines accounts for all of them**, those that are pending first and without those
that belong to the block call before. -/
theorem segmentsFrom_divides (fence : Option (List Char)) (pending : List (List Char))
    (number skip : Nat) (ls : List (List Char)) (hskip : skip = 0 ∨ pending = [])
    (hle : skip ≤ ls.length) :
    Divides (number + skip) (pending.reverse ++ ls.drop skip)
      (segmentsFrom fence pending (number + pending.length) skip ls) := by
  induction ls generalizing fence pending number skip with
  | nil =>
      obtain rfl : skip = 0 := Nat.le_zero.mp hle
      have hend : Divides number (pending.reverse ++ [])
          (markdownBefore pending (number + pending.length) ++ []) :=
        divides_markdownBefore pending (by simp) .nil
      rw [List.append_nil (markdownBefore _ _)] at hend
      exact hend
  | cons line rest ih =>
      have hpush : ∀ fence, Divides number (pending.reverse ++ line :: rest)
          (segmentsFrom fence (line :: pending) (number + pending.length + 1) 0 rest) := by
        intro fence
        have hlonger := ih fence (line :: pending) number 0 (.inl rfl) (Nat.zero_le _)
        rwa [List.reverse_cons, List.append_assoc] at hlonger
      cases skip with
      | succ skip =>
          obtain rfl : pending = [] := hskip.resolve_left (Nat.succ_ne_zero skip)
          have hbelow := ih fence [] (number + 1) skip (.inr rfl) (Nat.le_of_succ_le_succ hle)
          rwa [Nat.add_assoc, Nat.add_comm 1 skip] at hbelow
      | zero =>
          cases fence with
          | some marks => exact hpush _
          | none =>
              rw [segmentsFrom]
              cases openedFence? line with
              | some marks => exact hpush _
              | none =>
                  cases hcall : blockCall? (number + pending.length) line rest with
                  | none => exact hpush _
                  | some c =>
                      obtain ⟨hline, -, hbody, -, -⟩ := blockCall?_line hcall
                      obtain ⟨tail, htail⟩ : c.body <+: rest := hbody ▸ indentedLines_prefix rest
                      have hbelow := ih none [] (number + pending.length + 1) c.body.length
                        (.inr rfl) (body_length_le hcall)
                      rw [← htail, List.drop_left] at hbelow
                      rw [← hline, ← htail] at hcall ⊢
                      exact divides_markdownBefore pending (by simp [Segment.isMarkdown])
                        (.call hcall hbelow)

theorem segments_divides (number : Nat) (ls : List (List Char)) :
    Divides number ls (segments number ls) :=
  segmentsFrom_divides none [] number 0 ls (.inl rfl) (Nat.zero_le _)

/-! ## Where segments stand -/

/-- The segment is a stretch of lines, the first of which has the given number, and is numbered
accordingly. -/
def Segment.StandsAt (number : Nat) (ls : List (List Char)) : Segment → Prop
  | .markdown ms n => ∃ before after, ls = before ++ ms ++ after ∧ n = number + before.length
  | .call c => ∃ before after, ls = before ++ c.line :: after ∧
      blockCall? (number + before.length) c.line after = some c

/-- Further lines before those that are divided. -/
theorem Segment.StandsAt.prepend {s : Segment} (front : List (List Char))
    (h : s.StandsAt (number + front.length) ls) : s.StandsAt number (front ++ ls) := by
  cases s with
  | markdown ms n =>
      obtain ⟨before, after, rfl, rfl⟩ := h
      refine ⟨front ++ before, after, by simp, ?_⟩
      rw [List.length_append, Nat.add_assoc]
  | call c =>
      obtain ⟨before, after, rfl, hcall⟩ := h
      refine ⟨front ++ before, after, by simp, ?_⟩
      rwa [List.length_append, ← Nat.add_assoc]

/-- The segments of a division stand where their numbers say. -/
theorem Divides.standsAt (h : Divides number ls ss) : ∀ s ∈ ss, s.StandsAt number ls := by
  induction h with
  | nil => nofun
  | @markdown number ms after ss hne hnext hafter ih =>
      intro s hs
      rcases List.mem_cons.mp hs with rfl | hs
      · exact ⟨[], after, rfl, rfl⟩
      · exact .prepend ms (ih s hs)
  | @call number c after ss hcall hafter ih =>
      intro s hs
      rcases List.mem_cons.mp hs with rfl | hs
      · exact ⟨[], c.body ++ after, rfl, hcall⟩
      · have hstand := ih s hs
        rw [Nat.add_assoc, Nat.add_comm 1] at hstand
        exact .prepend (c.line :: c.body) hstand

theorem segments_standAt {s : Segment} (h : s ∈ segments number ls) : s.StandsAt number ls :=
  (segments_divides number ls).standsAt s h

/-! ## Indentation -/

/-- The common indentation of lines is blank in those that hold anything. -/
theorem commonIndent_le {line : List Char} (hline : line ∈ ls) (hblank : allBlank line = false) :
    commonIndent ls ≤ (line.takeWhile isGap).length := by
  let widths := (ls.filter fun l => !allBlank l).map fun l => (l.takeWhile isGap).length
  have hmem : (line.takeWhile isGap).length ∈ widths :=
    List.mem_map.mpr ⟨line, List.mem_filter.mpr ⟨hline, by simp [hblank]⟩, rfl⟩
  show widths.min?.getD 0 ≤ _
  cases hmin : widths.min? with
  | none => exact Nat.zero_le _
  | some least => exact (List.min?_eq_some_iff.mp hmin).2 _ hmem

theorem take_isGap {line : List Char} {n : Nat} (h : n ≤ (line.takeWhile isGap).length) :
    ∀ c ∈ line.take n, isGap c = true := by
  intro c hc
  have hfront : line.take n <+: line.takeWhile isGap :=
    List.prefix_of_prefix_length_le (List.take_prefix n line) (List.takeWhile_prefix _)
      (Nat.le_trans (List.length_take_le n line) h)
  exact List.mem_takeWhile_imp (hfront.subset hc)

/-! ## Excerpts -/

/-- Lines of a whole text, from the one with the given number on, without their first `indent`
columns. Where such a line holds anything, these were spaces and tabs. -/
structure Excerpt (whole : List (List Char)) (number indent : Nat) (ls : List (List Char)) :
    Prop where
  number_pos : 0 < number
  line : ∀ {i line}, ls[i]? = some line → ∃ full, whole[number - 1 + i]? = some full ∧
    line = full.drop indent ∧ (allBlank line = false → ∀ c ∈ full.take indent, isGap c = true)

namespace Excerpt

variable {whole : List (List Char)} {indent : Nat}

theorem refl (whole : List (List Char)) : Excerpt whole 1 0 whole where
  number_pos := Nat.one_pos
  line h := ⟨_, by simpa using h, rfl, by simp⟩

/-- A stretch of the lines. -/
theorem middle {before ms after : List (List Char)}
    (h : Excerpt whole number indent (before ++ ms ++ after)) :
    Excerpt whole (number + before.length) indent ms where
  number_pos := Nat.add_pos_left h.number_pos _
  line := by
    intro i line hi
    have hlt : i < ms.length := (List.getElem?_eq_some_iff.mp hi).1
    have hall : (before ++ ms ++ after)[before.length + i]? = some line := by
      rw [List.append_assoc, List.getElem?_append_right (Nat.le_add_right _ _),
        Nat.add_sub_cancel_left, List.getElem?_append_left hlt, hi]
    obtain ⟨full, hfull, hline⟩ := h.line hall
    have hpos := h.number_pos
    have hindex : number - 1 + (before.length + i) = number + before.length - 1 + i := by omega
    exact ⟨full, hindex ▸ hfull, hline⟩

/-- Columns that are common to the lines can be taken away as well. -/
theorem dedent (h : Excerpt whole number indent ls) :
    Excerpt whole number (indent + commonIndent ls) (ls.map (List.drop (commonIndent ls))) where
  number_pos := h.number_pos
  line := by
    intro i line hi
    rw [List.getElem?_map, Option.map_eq_some_iff] at hi
    obtain ⟨outer, houter, rfl⟩ := hi
    obtain ⟨full, hfull, rfl, hgap⟩ := h.line houter
    refine ⟨full, hfull, List.drop_drop, fun hblank => ?_⟩
    have hnot : allBlank (full.drop indent) = false := by
      rw [Bool.eq_false_iff] at hblank ⊢
      intro hall
      refine hblank (List.all_eq_true.mpr fun c hc => ?_)
      exact List.all_eq_true.mp hall c (List.mem_of_mem_drop hc)
    have hcommon := take_isGap (commonIndent_le (List.mem_of_getElem? houter) hnot)
    intro c hc
    rw [List.take_add, List.mem_append] at hc
    rcases hc with hc | hc
    · exact hgap hnot c hc
    · exact hcommon c hc

/-- The lines of a body, as they are read. -/
theorem body (h : Excerpt whole number indent ls) {c : BlockCall}
    (hc : .call c ∈ segments number ls) :
    Excerpt whole (c.number + 1) (indent + commonIndent c.body)
      (c.body.map (List.drop (commonIndent c.body))) := by
  obtain ⟨before, after, rfl, hcall⟩ := segments_standAt hc
  obtain ⟨-, hnumber, hbody, -, -⟩ := blockCall?_line hcall
  obtain ⟨tail, htail⟩ := indentedLines_prefix after
  rw [← hbody] at htail
  subst htail
  have hsplit : before ++ c.line :: (c.body ++ tail) = (before ++ [c.line]) ++ c.body ++ tail := by
    simp
  rw [hsplit] at h
  have hbelow := h.middle.dedent
  rwa [List.length_append, List.length_singleton, ← Nat.add_assoc, ← hnumber] at hbelow

end Excerpt

end Livedoc.Document
