import Livedoc.Proofs.Text.Lines
import Livedoc.Source.LineIndex

/-!
# The index of a text and its lines

The index of a text knows where its lines start.  A line starts behind the lines before it and
their newlines (`lineOffset`), so a place within a line has the number of the line, a column
and an offset that differ by where the line starts (`position_lineOffset`), and what stands in
the text between two such places is what stands in the line (`slice_lineOffset`).

The position of an offset and the index of the text tell the offset again: the line is counted by
the newlines before the offset, and the column leads from the start of the line to the offset
(`position_tells`).  So positions are in the order of their offsets (`position_lt`), and a line
starts where its first column is (`position_lineStart`).  Outside the text, an offset has the
position of the nearer end, and a line starts where the first or the last line does.
-/

namespace Livedoc.Source

open Livedoc.Text

variable {cs line : List Char} {ls : List (List Char)} {k x : Nat}

/-- The characters before a line, the newlines between lines included; `k` lines stand before
it. -/
def lineOffset : List (List Char) → Nat → Nat
  | line :: ls, k + 1 => line.length + 1 + lineOffset ls k
  | _, _ => 0

theorem lineOffset_zero (ls : List (List Char)) : lineOffset ls 0 = 0 := by
  cases ls <;> rfl

theorem lineOffset_cons_succ (line : List Char) (ls : List (List Char)) (k : Nat) :
    lineOffset (line :: ls) (k + 1) = line.length + 1 + lineOffset ls k := rfl

/-- An offset is a place within a line. -/
theorem exists_lineOffset (hne : ls ≠ []) {a : Nat} (ha : a ≤ (unlines ls).length) :
    ∃ k line x, ls[k]? = some line ∧ x ≤ line.length ∧ a = lineOffset ls k + x := by
  induction ls generalizing a with
  | nil => exact absurd rfl hne
  | cons line ls ih =>
      by_cases hline : a ≤ line.length
      · exact ⟨0, line, a, rfl, hline, by rw [lineOffset_zero, Nat.zero_add]⟩
      · cases ls with
        | nil => exact absurd ha hline
        | cons next ls =>
            rw [unlines_cons_cons, List.length_append, List.length_cons] at ha
            obtain ⟨k, l, x, hl, hx, heq⟩ := ih (by simp) (a := a - (line.length + 1)) (by omega)
            exact ⟨k + 1, l, x, hl, hx, by rw [lineOffset_cons_succ]; omega⟩

/-- **As many newlines stand before a place as lines before its line.** -/
theorem count_take_lineOffset (hls : ∀ l ∈ ls, '\n' ∉ l) (hk : ls[k]? = some line)
    (hx : x ≤ line.length) : ((unlines ls).take (lineOffset ls k + x)).count '\n' = k := by
  induction ls generalizing k with
  | nil => cases hk
  | cons first ls ih =>
      have hfirst := hls first (by simp)
      cases k with
      | zero =>
          obtain rfl : first = line := by simpa using hk
          have htake : (unlines (first :: ls)).take x = first.take x := by
            cases ls with
            | nil => rfl
            | cons next ls => rw [unlines_cons_cons, List.take_append_of_le_length hx]
          rw [lineOffset_zero, Nat.zero_add, htake]
          exact List.count_eq_zero.mpr fun h => hfirst (List.mem_of_mem_take h)
      | succ k =>
          cases ls with
          | nil => cases hk
          | cons next ls =>
              have hcount := ih (fun l hl => hls l (by simp [hl])) (k := k) (by simpa using hk)
              have hplace : lineOffset (first :: next :: ls) (k + 1) + x =
                  first.length + (lineOffset (next :: ls) k + x + 1) := by
                rw [lineOffset_cons_succ]
                omega
              rw [hplace, unlines_cons_cons, List.take_length_add_append, List.take_succ_cons,
                List.count_append, List.count_eq_zero.mpr hfirst, List.count_cons_self, hcount,
                Nat.zero_add]

namespace LineIndex

/-! ## Lines with newlines between them -/

/-- A line has no breaks. -/
private theorem breaksFrom_append (hline : '\n' ∉ line) (offset : Nat) (rest : List Char) :
    breaksFrom offset (line ++ rest) = breaksFrom (offset + line.length) rest := by
  induction line generalizing offset with
  | nil => rfl
  | cons c line ih =>
      rw [List.mem_cons, not_or] at hline
      rw [List.cons_append, breaksFrom, if_neg (Ne.symm hline.1), ih hline.2, List.length_cons,
        Nat.add_assoc, Nat.add_comm 1]

private theorem breaksFrom_singleton (hline : '\n' ∉ line) (offset : Nat) :
    breaksFrom offset (unlines [line]) = [] := by
  have hbreaks := breaksFrom_append hline offset []
  rw [List.append_nil] at hbreaks
  exact hbreaks

private theorem breaksFrom_cons_cons (hline : '\n' ∉ line) (offset : Nat) (next : List Char)
    (ls : List (List Char)) :
    breaksFrom offset (unlines (line :: next :: ls)) =
      (offset + line.length + 1) ::
        breaksFrom (offset + line.length + 1) (unlines (next :: ls)) := by
  rw [unlines_cons_cons, breaksFrom_append hline, breaksFrom, if_pos rfl]

private theorem length_breaksFrom (hls : ∀ l ∈ ls, '\n' ∉ l) (hne : ls ≠ []) (offset : Nat) :
    (breaksFrom offset (unlines ls)).length + 1 = ls.length := by
  induction ls generalizing offset with
  | nil => exact absurd rfl hne
  | cons line ls ih =>
      have hline := hls line (by simp)
      cases ls with
      | nil => rw [breaksFrom_singleton hline]; rfl
      | cons next ls =>
          rw [breaksFrom_cons_cons hline, List.length_cons,
            ih (fun l hl => hls l (by simp [hl])) (by simp)]
          rfl

/-- **Lines start behind the lines before them.** -/
private theorem getD_breaksFrom (hls : ∀ l ∈ ls, '\n' ∉ l) (hk : k < ls.length) (offset : Nat) :
    (offset :: breaksFrom offset (unlines ls)).getD k 0 = offset + lineOffset ls k := by
  induction ls generalizing offset k with
  | nil => cases hk
  | cons line ls ih =>
      have hline := hls line (by simp)
      cases k with
      | zero => rfl
      | succ k =>
          cases ls with
          | nil => exact absurd (Nat.lt_of_succ_lt_succ hk) (Nat.not_lt_zero k)
          | cons next ls =>
              rw [breaksFrom_cons_cons hline, List.getD_cons_succ,
                ih (fun l hl => hls l (by simp [hl])) (Nat.lt_of_succ_lt_succ hk),
                lineOffset_cons_succ]
              omega

/-- **A place within a line is located in this line.** -/
private theorem locate_breaksFrom (hls : ∀ l ∈ ls, '\n' ∉ l) (hk : ls[k]? = some line)
    (hx : x ≤ line.length) (offset number : Nat) :
    locate (offset + lineOffset ls k + x) number offset (breaksFrom offset (unlines ls)) =
      (number + k, offset + lineOffset ls k) := by
  induction ls generalizing offset number k with
  | nil => cases hk
  | cons first ls ih =>
      have hfirst := hls first (by simp)
      cases k with
      | zero =>
          obtain rfl : first = line := by simpa using hk
          cases ls with
          | nil => rw [breaksFrom_singleton hfirst]; rfl
          | cons next ls =>
              rw [breaksFrom_cons_cons hfirst, locate, lineOffset_zero, if_neg (by omega)]
              rfl
      | succ k =>
          cases ls with
          | nil => cases hk
          | cons next ls =>
              have hrest := ih (fun l hl => hls l (by simp [hl])) (by simpa using hk)
                (offset + first.length + 1) (number + 1)
              rw [breaksFrom_cons_cons hfirst, lineOffset_cons_succ, locate, if_pos (by omega)]
              have hplace : offset + (first.length + 1 + lineOffset (next :: ls) k) =
                  offset + first.length + 1 + lineOffset (next :: ls) k := by omega
              rw [hplace, hrest, Nat.add_right_comm, Nat.add_assoc number]

/-- A line stands behind the lines before it. -/
private theorem exists_unlines_eq (hk : ls[k]? = some line) :
    ∃ before after, unlines ls = before ++ line ++ after ∧ before.length = lineOffset ls k := by
  induction ls generalizing k with
  | nil => cases hk
  | cons first ls ih =>
      cases k with
      | zero =>
          obtain rfl : first = line := by simpa using hk
          cases ls with
          | nil => exact ⟨[], [], (List.append_nil _).symm, rfl⟩
          | cons next ls => exact ⟨[], '\n' :: unlines (next :: ls), rfl, rfl⟩
      | succ k =>
          cases ls with
          | nil => cases hk
          | cons next ls =>
              obtain ⟨before, after, hunlines, hlength⟩ := ih (k := k) (by simpa using hk)
              refine ⟨first ++ '\n' :: before, after, ?_, ?_⟩
              · rw [unlines_cons_cons, hunlines]
                simp
              · rw [lineOffset_cons_succ, ← hlength]
                simp only [List.length_append, List.length_cons]
                omega

/-! ## The index of a text -/

/-- A text is what stands before a line, the line, and what stands after it. -/
theorem exists_eq_append_line (hk : (lines cs)[k]? = some line) :
    ∃ before after, cs = before ++ line ++ after ∧ before.length = lineOffset (lines cs) k := by
  have hunlines := exists_unlines_eq hk
  rwa [unlines_lines] at hunlines

theorem lineCount_ofText (cs : List Char) : (ofText cs).lineCount = (lines cs).length := by
  have hcount := length_breaksFrom (fun _ hl => newline_not_mem_of_mem_lines hl) (lines_ne_nil cs) 0
  rwa [unlines_lines] at hcount

/-- **A line starts behind the lines before it.** -/
theorem lineStart_ofText (hk : k < (lines cs).length) :
    (ofText cs).lineStart ((k + 1 : Nat) : Int) = lineOffset (lines cs) k := by
  have hstart := getD_breaksFrom (fun _ hl => newline_not_mem_of_mem_lines hl) hk 0
  rw [unlines_lines, Nat.zero_add] at hstart
  rw [lineStart, lineCount_ofText, Int.toNat_natCast, Nat.min_eq_left hk]
  exact hstart

/-- **A place within a line has the number of the line**, and its column and its offset differ
by where the line starts. -/
theorem position_lineOffset (hk : (lines cs)[k]? = some line) (hx : x ≤ line.length) :
    (ofText cs).position ((lineOffset (lines cs) k + x : Nat) : Int) =
      ⟨k + 1, x + 1, lineOffset (lines cs) k + x⟩ := by
  obtain ⟨before, after, hcs, hbefore⟩ := exists_eq_append_line hk
  have hsize : lineOffset (lines cs) k + x ≤ cs.length := by
    have hlength := congrArg List.length hcs
    simp only [List.length_append] at hlength
    omega
  have hlocate := locate_breaksFrom (fun _ hl => newline_not_mem_of_mem_lines hl) hk hx 0 1
  rw [unlines_lines, Nat.zero_add] at hlocate
  have hmin : min ((lineOffset (lines cs) k + x : Nat) : Int).toNat (ofText cs).size =
      lineOffset (lines cs) k + x := by
    rw [Int.toNat_natCast]
    exact Nat.min_eq_left hsize
  rw [position, hmin]
  show Position.mk _ _ _ = _
  rw [show (ofText cs).breaks = breaksFrom 0 cs from rfl, hlocate, Nat.add_comm 1,
    Nat.add_sub_cancel_left]

/-- **What stands in the text between two places within a line** is what stands in the line
there. -/
theorem slice_lineOffset (hk : (lines cs)[k]? = some line) (first : Nat) {last : Nat}
    (hlast : last ≤ line.length) :
    (cs.take (lineOffset (lines cs) k + last)).drop (lineOffset (lines cs) k + first) =
      (line.take last).drop first := by
  obtain ⟨before, after, hcs, hbefore⟩ := exists_eq_append_line hk
  have htake : cs.take (before.length + last) = before ++ line.take last := by
    refine (congrArg (List.take (before.length + last)) hcs).trans ?_
    rw [List.append_assoc, List.take_length_add_append, List.take_append_of_le_length hlast]
  rw [← hbefore, htake, List.drop_length_add_append]

/-! ## Offsets and positions -/

variable {a b o : Nat}

/-- A position says at which offset of a text it is, on which line, counted by the newlines before
it, and how far from the start of this line. -/
structure Tells (cs : List Char) (o : Nat) (p : Position) : Prop where
  offset : p.offset = o
  line : p.line = (cs.take o).count '\n' + 1
  column : 1 ≤ p.column
  start : (ofText cs).lineStart p.line + p.column - 1 = o
  sameLine : '\n' ∉ (cs.take o).drop ((ofText cs).lineStart p.line)

/-- **The position of an offset tells the offset.** -/
theorem position_tells (ho : o ≤ cs.length) : Tells cs o ((ofText cs).position o) := by
  have hlines : ∀ l ∈ lines cs, '\n' ∉ l := fun l hl => newline_not_mem_of_mem_lines hl
  obtain ⟨k, line, x, hk, hx, rfl⟩ :=
    exists_lineOffset (lines_ne_nil cs) (a := o) (by rwa [unlines_lines])
  have hcount := count_take_lineOffset hlines hk hx
  rw [unlines_lines] at hcount
  have hstart := lineStart_ofText (List.getElem?_eq_some_iff.mp hk).1
  have hslice := slice_lineOffset hk 0 hx
  rw [Nat.add_zero, List.drop_zero] at hslice
  rw [position_lineOffset hk hx]
  exact {
    offset := rfl
    line := by rw [hcount]
    column := Nat.le_add_left 1 x
    start := by rw [hstart]; rfl
    sameLine := by
      rw [hstart, hslice]
      exact fun h => hlines line (List.mem_of_getElem? hk) (List.mem_of_mem_take h) }

/-- **Positions are in the order of their offsets.** -/
theorem position_lt (hab : a < b) (hb : b ≤ cs.length) :
    ((ofText cs).position a).line < ((ofText cs).position b).line ∨
      ((ofText cs).position a).line = ((ofText cs).position b).line ∧
        ((ofText cs).position a).column < ((ofText cs).position b).column := by
  have hfirst := position_tells (show a ≤ cs.length by omega)
  have hsecond := position_tells hb
  have hcount : (cs.take a).count '\n' ≤ (cs.take b).count '\n' :=
    (List.take_sublist_take_left (by omega)).count_le '\n'
  rw [← Nat.add_le_add_iff_right (n := 1), ← hfirst.line, ← hsecond.line] at hcount
  rcases Nat.lt_or_eq_of_le hcount with hlt | heq
  · exact .inl hlt
  · -- Within a line the start is the same, so the columns differ as the offsets do.
    have hstart := hfirst.start
    have hstart' := hsecond.start
    rw [heq] at hstart
    have hcolumn := hfirst.column
    exact .inr ⟨heq, by omega⟩

/-- An offset outside the text has the position of the nearer end. -/
theorem position_clamp (cs : List Char) (o : Int) :
    (ofText cs).position o = (ofText cs).position (max 0 (min o cs.length)) := by
  have hmin : min o.toNat cs.length = min (max 0 (min o cs.length)).toNat cs.length := by omega
  simp only [position, ofText, hmin]

/-- A line that the text does not have starts where the nearest one does. -/
theorem lineStart_clamp (index : LineIndex) (l : Int) :
    index.lineStart l = index.lineStart (max 1 (min l index.lineCount)) := by
  have hcount : 1 ≤ index.lineCount := Nat.le_add_left 1 _
  have hmin : min l.toNat index.lineCount - 1 =
      min (max 1 (min l index.lineCount)).toNat index.lineCount - 1 := by omega
  simp only [lineStart, hmin]

/-- **A line starts at its first column.** -/
theorem position_lineStart (hk : k < (ofText cs).lineCount) :
    (ofText cs).position ((ofText cs).lineStart (k + 1 : Nat)) =
      ⟨k + 1, 1, (ofText cs).lineStart (k + 1 : Nat)⟩ := by
  rw [lineCount_ofText] at hk
  rw [lineStart_ofText hk]
  exact position_lineOffset (List.getElem?_eq_getElem hk) (Nat.zero_le _)

/-- **Offsets and positions determine each other.**  The position of an offset tells it, positions
are in the order of their offsets, every line starts at its first column, and what is outside the
text is taken for the nearest place in it. -/
theorem position_inverts (source : String) :
    (∀ o : Nat, o ≤ source.toList.length → Tells source.toList o ((of source).position o)) ∧
    (∀ a b : Nat, a < b → b ≤ source.toList.length →
      ((of source).position a).line < ((of source).position b).line ∨
        ((of source).position a).line = ((of source).position b).line ∧
          ((of source).position a).column < ((of source).position b).column) ∧
    (∀ k : Nat, k < (of source).lineCount →
      (of source).position ((of source).lineStart (k + 1 : Nat)) =
        ⟨k + 1, 1, (of source).lineStart (k + 1 : Nat)⟩) ∧
    (of source).lineCount = source.toList.count '\n' + 1 ∧
    (∀ o : Int, (of source).position o =
      (of source).position (max 0 (min o source.toList.length))) ∧
    ∀ l : Int, (of source).lineStart l =
      (of source).lineStart (max 1 (min l (of source).lineCount)) := by
  refine ⟨fun o ho => position_tells ho, fun a b hab hb => position_lt hab hb,
    fun k hk => position_lineStart hk, ?_, position_clamp source.toList,
    lineStart_clamp (of source)⟩
  exact (lineCount_ofText source.toList).trans (length_lines source.toList)

/-- An empty line and a newline at the end. -/
theorem position_inverts_newlines :
    (1 < 2 ∧ 2 ≤ "a\n\n".toList.length) ∧ 2 < (of "a\n\n").lineCount ∧
      Tells "a\n\n".toList 2 ((of "a\n\n").position 2) ∧
      (of "a\n\n").position 2 = ⟨2, 1, 2⟩ ∧
      ((of "a\n\n").position 1).line < ((of "a\n\n").position 2).line ∧
      (of "a\n\n").position ((of "a\n\n").lineStart 3) = ⟨3, 1, 3⟩ ∧
      (of "a\n\n").position 7 = ⟨3, 1, 3⟩ := by
  obtain ⟨htells, horder, hlines, -, hclamp, -⟩ := position_inverts "a\n\n"
  have horder := horder 1 2 (by decide) (by decide)
  refine ⟨by decide, by decide, htells 2 (by decide), by decide, ?_, hlines 2 (by decide), ?_⟩
  · exact horder.resolve_right (by decide)
  · exact hclamp 7

end LineIndex

end Livedoc.Source
