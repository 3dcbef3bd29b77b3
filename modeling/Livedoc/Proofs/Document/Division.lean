import Livedoc.Proofs.Document.Excerpt
import Livedoc.Proofs.Text.Lines

/-!
# Segments account for all lines

Going through the segments in order gives the lines back: a stretch of Markdown stands for the
lines of its text, a block call for its line and those of its body.  The division of the lines
(`Divides`) says so one segment at a time, with the number of the line that each starts at.
-/

namespace Livedoc.Document

open Livedoc.Call Livedoc.Text

/-- The lines of a segment: those of its text, or that of the call and those of its body. -/
def Segment.lines : Segment → List (List Char)
  | .markdown ms _ => Text.lines (unlines ms)
  | .call c => c.line :: c.body

/-- The number of the first line of a segment. -/
def Segment.number : Segment → Nat
  | .markdown _ n => n
  | .call c => c.number

variable {number : Nat} {ls : List (List Char)} {ss : List Segment}

/-! ## What a division says -/

namespace Divides

/-- The segments hold all lines, each once and in order. -/
theorem flatMap_lines (h : Divides number ls ss) (hls : ∀ line ∈ ls, '\n' ∉ line) :
    ss.flatMap Segment.lines = ls := by
  induction h with
  | nil => rfl
  | @markdown number ms after ss hne hnext hafter ih =>
      have hms : Text.lines (unlines ms) = ms :=
        lines_unlines hne fun line hline => hls line (List.mem_append_left after hline)
      have hrest := ih fun line hline => hls line (List.mem_append_right ms hline)
      rw [List.flatMap_cons, hrest, Segment.lines, hms]
  | @call number c after ss hcall hafter ih =>
      have hrest := ih fun line hline =>
        hls line (List.mem_cons_of_mem _ (List.mem_append_right c.body hline))
      rw [List.flatMap_cons, hrest, Segment.lines, List.cons_append]

/-- After some of the segments, the rest of them divides the rest of the lines. -/
theorem of_append {before after : List Segment} (h : Divides number ls (before ++ after))
    (hls : ∀ line ∈ ls, '\n' ∉ line) :
    ∃ below, Divides (number + (before.flatMap Segment.lines).length) below after := by
  induction before generalizing number ls with
  | nil => exact ⟨ls, h⟩
  | cons s before ih =>
      rw [List.flatMap_cons, List.length_append, ← Nat.add_assoc]
      cases h with
      | @markdown _ ms below _ hne hnext hbelow =>
          have hms : Text.lines (unlines ms) = ms :=
            lines_unlines hne fun line hline => hls line (List.mem_append_left below hline)
          rw [Segment.lines, hms]
          exact ih hbelow fun line hline => hls line (List.mem_append_right ms hline)
      | @call _ c below _ hcall hbelow =>
          rw [Segment.lines, List.length_cons, Nat.add_comm c.body.length, ← Nat.add_assoc]
          exact ih hbelow fun line hline =>
            hls line (List.mem_cons_of_mem _ (List.mem_append_right c.body hline))

end Divides

/-! ## Bodies -/

/-- The lines of a body are blank or indented. -/
theorem continuesBody_of_mem_indentedLines {line : List Char} (h : line ∈ indentedLines ls) :
    continuesBody line = true :=
  List.mem_takeWhile_imp ((indentedLines_prefix_takeWhile ls).subset h)

theorem blank_or_indented {line : List Char} (h : continuesBody line = true) :
    allBlank line = true ∨ ∃ c rest, line = c :: rest ∧ (c = ' ' ∨ c = '\t') := by
  by_cases hblank : allBlank line = true
  · exact .inl hblank
  · cases line with
    | nil => exact absurd rfl hblank
    | cons c rest =>
        right
        exact ⟨c, rest, rfl, by simpa [continuesBody, hblank, isGap] using h⟩

/-- A body does not end in a blank line. -/
theorem getLast?_indentedLines (ls : List (List Char)) :
    ∀ line ∈ (indentedLines ls).getLast?, allBlank line = false := by
  unfold indentedLines
  induction ls.takeWhile continuesBody with
  | nil => simp
  | cons first rest ih =>
      rw [List.foldr_cons]
      split
      · simp
      · next hkept =>
          revert ih hkept
          cases rest.foldr (fun line rest => if rest.isEmpty && allBlank line then []
            else line :: rest) [] with
          | nil => simp
          | cons next others => simp

/-! ## All lines, once and in order -/

/-- **Segments account for every line.**  Going through them in order gives the lines back; each
is numbered with the line it starts at; Markdown holds a line at least, and is followed by a
block call or by nothing; the body of a call consists of blank and indented lines and does not
end in a blank one. -/
theorem segments_account_for_lines (number : Nat) (ls : List (List Char))
    (hls : ∀ line ∈ ls, '\n' ∉ line) :
    (segments number ls).flatMap Segment.lines = ls ∧
      (∀ before s after, segments number ls = before ++ s :: after →
        s.number = number + (before.flatMap Segment.lines).length) ∧
      (∀ ms n, .markdown ms n ∈ segments number ls → ms ≠ []) ∧
      (∀ before ms n ns m after,
        segments number ls ≠ before ++ .markdown ms n :: .markdown ns m :: after) ∧
      (∀ c, .call c ∈ segments number ls →
        (∀ line ∈ c.body,
          allBlank line = true ∨ ∃ first rest, line = first :: rest ∧ (first = ' ' ∨ first = '\t')) ∧
        ∀ line ∈ c.body.getLast?, allBlank line = false) := by
  have hdivides := segments_divides number ls
  -- What is left of the division where a segment stands tells about that segment.
  have hfrom : ∀ {before after}, segments number ls = before ++ after →
      ∃ below, Divides (number + (before.flatMap Segment.lines).length) below after := by
    intro before after hsplit
    rw [hsplit] at hdivides
    exact hdivides.of_append hls
  refine ⟨hdivides.flatMap_lines hls, ?_, ?_, ?_, ?_⟩
  · intro before s after hsplit
    obtain ⟨below, hbelow⟩ := hfrom hsplit
    cases hbelow with
    | markdown => rfl
    | call hcall => exact (blockCall?_line hcall).2.1
  · intro ms n hmem
    obtain ⟨before, after, hsplit⟩ := List.append_of_mem hmem
    obtain ⟨below, hbelow⟩ := hfrom hsplit
    cases hbelow with
    | markdown hne => exact hne
  · intro before ms n ns m after hsplit
    obtain ⟨below, hbelow⟩ := hfrom hsplit
    cases hbelow with
    | markdown hne hnext => exact absurd (hnext _ rfl) (by simp [Segment.isMarkdown])
  · intro c hmem
    obtain ⟨before, after, -, hcall⟩ := segments_standAt hmem
    rw [(blockCall?_line hcall).2.2.1]
    constructor
    · intro line hline
      exact blank_or_indented (continuesBody_of_mem_indentedLines hline)
    · exact getLast?_indentedLines after

/-- A call with a body between two stretches of Markdown, the first of which ends in a blank line
and the second of which starts with one and holds a fence. -/
theorem segments_account_for_lines_body :
    (segments 3 (["a", "", ".row {x}", "", "  b", "", "~~~", ".x {y}", "~~~"].map String.toList)).flatMap
        Segment.lines =
      ["a", "", ".row {x}", "", "  b", "", "~~~", ".x {y}", "~~~"].map String.toList ∧
    ∀ before s after,
      segments 3 (["a", "", ".row {x}", "", "  b", "", "~~~", ".x {y}", "~~~"].map String.toList) =
        before ++ s :: after →
      s.number = 3 + (before.flatMap Segment.lines).length := by
  have h := segments_account_for_lines 3
    (["a", "", ".row {x}", "", "  b", "", "~~~", ".x {y}", "~~~"].map String.toList) (by decide)
  exact ⟨h.1, h.2.1⟩

end Livedoc.Document
