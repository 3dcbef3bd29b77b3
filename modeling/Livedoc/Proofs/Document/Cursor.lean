import Livedoc.Proofs.Call.Head
import Livedoc.Proofs.Document.Excerpt
import Livedoc.Proofs.Document.Names
import Livedoc.Proofs.Text.Lines

/-!
# Where a search finds a head

A cursor that starts at the first of some lines always stands in one of them, and the number of
this line and the column tell where (`Cursor.Within`).  So what is found stands at the place that
its span starts with.  The head of a call starts with a dot and its name, which hold no newline;
the place where it is found is therefore one where the dot and the name stand within a single
line of the whole text (`Stretch.findsHeads`).
-/

namespace Livedoc.Document

open Livedoc.Call Livedoc.Source Livedoc.Text Livedoc.Tree.Node

variable {index : LineIndex} {number indent : Nat} {ls : List (List Char)} {c : Cursor}
variable {line part : List Char} {j x : Nat}

namespace Cursor

/-- The cursor stands before character `x` of line `j`; the first line has the given number, and
`indent` columns were taken from each line. -/
structure At (index : LineIndex) (number indent : Nat) (ls : List (List Char)) (j x : Nat)
    (c : Cursor) : Prop where
  index_eq : c.index = index
  indent_eq : c.indent = indent
  line_eq : c.line = number + j
  column_eq : c.column = x + 1
  rest_eq : c.rest = (unlines (ls.drop j)).drop x
  exists_line : ∃ line, ls[j]? = some line ∧ x ≤ line.length

/-- The cursor stands in one of the lines. -/
def Within (index : LineIndex) (number indent : Nat) (ls : List (List Char)) (c : Cursor) : Prop :=
  ∃ j x, c.At index number indent ls j x

/-! ## Moving on -/

/-- The text from a line on is the line and, if it is not the last one, a newline and the text from
the next line on. -/
private theorem unlines_drop (hline : ls[j]? = some line) :
    unlines (ls.drop j) = line ∨
      ∃ next, ls[j + 1]? = some next ∧
        unlines (ls.drop j) = line ++ '\n' :: unlines (ls.drop (j + 1)) := by
  obtain ⟨hlt, hget⟩ := List.getElem?_eq_some_iff.mp hline
  rw [List.drop_eq_getElem_cons hlt, hget]
  cases hrest : ls.drop (j + 1) with
  | nil => exact .inl rfl
  | cons next rest =>
      refine .inr ⟨next, ?_, rfl⟩
      have hhead := congrArg List.head? hrest
      rwa [List.head?_drop] at hhead

/-- **A step leads to the next character of the line or to the next line.** -/
theorem Within.next (h : c.Within index number indent ls) (hls : ∀ line ∈ ls, '\n' ∉ line) :
    c.next.Within index number indent ls := by
  obtain ⟨j, x, hat⟩ := h
  obtain ⟨text, hline, hx⟩ := hat.exists_line
  have hrest := hat.rest_eq
  rcases Nat.lt_or_eq_of_le hx with hlt | rfl
  · -- within the line
    have hchar : text[x] ≠ '\n' := fun heq =>
      hls text (List.mem_of_getElem? hline) (heq ▸ List.getElem_mem hlt)
    have hcons : c.rest = text[x] :: (unlines (ls.drop j)).drop (x + 1) := by
      rcases unlines_drop hline with htext | ⟨next, -, htext⟩
      · rw [hrest, htext, List.drop_eq_getElem_cons hlt]
      · have hlt' : x < (text ++ '\n' :: unlines (ls.drop (j + 1))).length := by
          rw [List.length_append]
          omega
        rw [hrest, htext, List.drop_eq_getElem_cons hlt', List.getElem_append_left hlt]
    refine ⟨j, x + 1, ?_⟩
    unfold Cursor.next
    rw [hcons]
    split
    · next heq => cases heq
    · next heq => exact absurd (List.cons.inj heq).1 hchar
    · next heq =>
        rw [← (List.cons.inj heq).2]
        exact ⟨hat.index_eq, hat.indent_eq, hat.line_eq, congrArg (· + 1) hat.column_eq, rfl,
          text, hline, hlt⟩
  · -- at the end of the line
    rcases unlines_drop hline with htext | ⟨next, hnext, htext⟩
    · rw [htext, List.drop_length] at hrest
      refine ⟨j, text.length, ?_⟩
      unfold Cursor.next
      rw [hrest]
      exact hat
    · rw [htext, List.drop_left] at hrest
      refine ⟨j + 1, 0, ?_⟩
      unfold Cursor.next
      rw [hrest]
      exact ⟨hat.index_eq, hat.indent_eq, congrArg (· + 1) hat.line_eq, rfl, rfl, next, hnext,
        Nat.zero_le _⟩

theorem Within.advance (hls : ∀ line ∈ ls, '\n' ∉ line) :
    ∀ (n : Nat) {c : Cursor}, c.Within index number indent ls →
      (c.advance n).Within index number indent ls
  | 0, _, h => h
  | n + 1, _, h => Within.advance hls n (h.next hls)

theorem next_rest (c : Cursor) : c.next.rest = c.rest.drop 1 := by
  unfold next
  split <;> simp_all

theorem advance_rest (n : Nat) (c : Cursor) : (c.advance n).rest = c.rest.drop n := by
  induction n generalizing c with
  | zero => rfl
  | succ n ih => rw [advance, ih, next_rest, List.drop_drop, Nat.add_comm]

/-- What is found stands after as many characters. -/
theorem find?_eq_some {cs : List Char} {n : Nat} (h : find? part cs = some n) :
    part <+: cs.drop n := by
  induction cs generalizing n with
  | nil =>
      unfold find? at h
      split at h
      · next hempty =>
          rw [List.isEmpty_iff.mp hempty]
          exact List.nil_prefix
      · cases h
  | cons ch cs ih =>
      unfold find? at h
      split at h
      · next hfront =>
          cases h
          exact List.isPrefixOf_iff_prefix.mp hfront
      · obtain ⟨m, hm, rfl⟩ := Option.map_eq_some_iff.mp h
        exact ih hm

/-! ## Looking for a text -/

/-- A cursor starts at the first line. -/
theorem ofText_within (index : LineIndex) (number indent : Nat) (hls : ls ≠ []) :
    (ofText index (unlines ls) number indent).Within index number indent ls := by
  obtain ⟨line, rest, rfl⟩ := List.exists_cons_of_ne_nil hls
  exact ⟨0, 0, rfl, rfl, rfl, rfl, rfl, line, rfl, Nat.zero_le _⟩

/-- Wherever the search for a text ends, it is within the lines. -/
theorem Within.locate (h : c.Within index number indent ls) (hls : ∀ line ∈ ls, '\n' ∉ line)
    (part : List Char) : (c.locate part).2.Within index number indent ls := by
  unfold Cursor.locate
  split
  · exact h
  · exact Within.advance hls _ (Within.advance hls _ h)

/-- A part without newlines that stands at a place of the text stands in its line. -/
private theorem prefix_of_newline_not_mem (hpart : '\n' ∉ part) (hline : ls[j]? = some line)
    (hx : x ≤ line.length) (h : part <+: (unlines (ls.drop j)).drop x) : part <+: line.drop x := by
  rcases unlines_drop hline with htext | ⟨next, -, htext⟩
  · rwa [htext] at h
  · rw [htext, List.drop_append_of_le_length hx] at h
    by_contra hnot
    have hlong : line.drop x ++ ['\n'] <+: part := by
      refine List.prefix_of_prefix_length_le ⟨unlines (ls.drop (j + 1)), by simp⟩ h ?_
      rw [List.length_append, List.length_singleton, Nat.succ_le_iff]
      refine Nat.lt_of_not_le fun hle => hnot ?_
      exact List.prefix_of_prefix_length_le h (List.prefix_append _ _) hle
    exact hpart (hlong.subset (by simp))

/-- **What is found stands within a line, at the place that its span starts with.** -/
theorem Within.locate_start (h : c.Within index number indent ls)
    (hls : ∀ line ∈ ls, '\n' ∉ line) (part : List Char) :
    ∃ j x line, ls[j]? = some line ∧ x ≤ line.length ∧
      (c.locate part).1.start =
        ⟨number + j, x + 1 + indent, index.lineStart ((number + j : Nat) : Int) + (x + indent)⟩ ∧
      ((c.locate part).1.start ≠ (c.locate part).1.stop →
        ∀ first, first <+: part → '\n' ∉ first → first <+: line.drop x) := by
  have hposition : ∀ {c : Cursor} {j x : Nat}, c.At index number indent ls j x → c.position =
      ⟨number + j, x + 1 + indent, index.lineStart ((number + j : Nat) : Int) + (x + indent)⟩ := by
    intro c j x hat
    rw [position, hat.index_eq, hat.indent_eq, hat.line_eq, hat.column_eq]
    simp only [Position.mk.injEq, true_and]
    omega
  unfold Cursor.locate
  split
  · obtain ⟨j, x, hat⟩ := h
    obtain ⟨line, hline, hx⟩ := hat.exists_line
    exact ⟨j, x, line, hline, hx, hposition hat, fun hne => absurd rfl hne⟩
  · next before hfound =>
      obtain ⟨j, x, hat⟩ := Within.advance hls before h
      obtain ⟨line, hline, hx⟩ := hat.exists_line
      refine ⟨j, x, line, hline, hx, hposition hat, fun _ first hfirst hnewline => ?_⟩
      have hfind : find? part c.rest = some before := by
        split at hfound
        · cases hfound
        · exact hfound
      have hpart := find?_eq_some hfind
      rw [← advance_rest, hat.rest_eq] at hpart
      exact prefix_of_newline_not_mem hnewline hline hx (hfirst.trans hpart)

end Cursor

/-! ## Heads in a whole text -/

/-- The lines are starts of what is left of lines of a whole text without their first `indent`
columns; the first of them has the given number. -/
structure Stretch (whole : List (List Char)) (number indent : Nat) (ls : List (List Char)) :
    Prop where
  number_pos : 0 < number
  nonempty : ls ≠ []
  newline : ∀ line ∈ ls, '\n' ∉ line
  line : ∀ {i line}, ls[i]? = some line → ∃ full, whole[number - 1 + i]? = some full ∧
    line <+: full.drop indent

/-- The span is known, and unless it is empty, it starts within a line at which the name stands
after a dot. -/
structure Located (whole : List (List Char)) (index : LineIndex) (name : String) (span : Span) :
    Prop where
  known : span.isKnown = true
  found : span.start ≠ span.stop → ∃ line, whole[span.start.line - 1]? = some line ∧
    '.' :: name.toList <+: line.drop (span.start.column - 1) ∧
      span.start.offset =
        index.lineStart (span.start.line : Int) + (span.start.column - 1)

/-- What stands within a line of a stretch stands in the whole text, `indent` columns further on. -/
theorem Stretch.located {whole : List (List Char)} (h : Stretch whole number indent ls)
    {j x : Nat} {line : List Char} (hline : ls[j]? = some line) (hx : x ≤ line.length)
    {name : String} {span : Span}
    (hstart : span.start = ⟨number + j, x + 1 + indent,
      index.lineStart ((number + j : Nat) : Int) + (x + indent)⟩)
    (hname : span.start ≠ span.stop → '.' :: name.toList <+: line.drop x) :
    Located whole index name span := by
  have hpos := h.number_pos
  refine ⟨?_, fun hne => ?_⟩
  · rw [Span.isKnown, hstart]
    exact decide_eq_true (Nat.add_pos_left hpos j)
  · obtain ⟨full, hfull, hfront⟩ := h.line hline
    have hdrop : line.drop x <+: full.drop (indent + x) := by
      obtain ⟨after, hafter⟩ := hfront
      rw [← List.drop_drop, ← hafter, List.drop_append_of_le_length hx]
      exact List.prefix_append _ _
    have hcolumn : x + 1 + indent - 1 = x + indent := by omega
    rw [hstart]
    refine ⟨full, ?_, ?_, ?_⟩
    · show whole[number + j - 1]? = some full
      rw [← hfull, Nat.sub_add_comm hpos]
    · show _ <+: full.drop (x + 1 + indent - 1)
      rw [hcolumn, Nat.add_comm x]
      exact (hname hne).trans hdrop
    · show _ = index.lineStart _ + (x + 1 + indent - 1)
      rw [hcolumn]

/-- **A search among lines of a whole text finds heads where their names stand.** -/
theorem Stretch.findsHeads {whole : List (List Char)} (h : Stretch whole number indent ls)
    (source : List Char) :
    FindsHeads (fun s => s.cursor.Within index number indent ls) (DrawnFrom source)
      (InLine (Located whole index)) where
  part := .of_isInfix
  locate part s hs := ⟨trivial, hs.locate h.newline part⟩
  report _ _ s hs := ⟨trivial, hs⟩
  head := by
    intro rest head _ hhead _ s hs
    refine ⟨inLine_ofHead ?_, hs.locate h.newline _⟩
    obtain ⟨j, x, line, hline, hx, hstart, hfound⟩ :=
      hs.locate_start h.newline (rest.take head.stop)
    refine h.located hline hx hstart fun hne => ?_
    exact hfound hne _ (dot_name_prefix_take hhead) (newline_not_mem_dot_name hhead)

end Livedoc.Document
