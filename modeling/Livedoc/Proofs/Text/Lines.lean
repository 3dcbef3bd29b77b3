import Livedoc.Text.Lines

/-!
# Dividing a text into lines

A text is divided where a newline stands (`lines_append`), so the lines of a text hold no
newline (`newline_not_mem_of_mem_lines`), and lines without newlines are what the text that
joins them is divided into (`lines_unlines`).
-/

namespace Livedoc.Text

variable {cs line : List Char} {ls : List (List Char)}

theorem lines_newline_cons (cs : List Char) : lines ('\n' :: cs) = [] :: lines cs := by
  simp [lines, splitAt]

/-- A character that is no newline belongs to the first line. -/
theorem lines_cons {c : Char} (hc : c ≠ '\n') {first : List Char}
    (h : lines cs = first :: ls) : lines (c :: cs) = (c :: first) :: ls := by
  unfold lines at h ⊢
  rw [splitAt, if_neg hc, h]

theorem exists_lines_eq_cons (cs : List Char) : ∃ first ls, lines cs = first :: ls :=
  List.exists_cons_of_ne_nil (lines_ne_nil cs)

/-- **A newline divides the lines of a text.** -/
theorem lines_append (cs ds : List Char) : lines (cs ++ '\n' :: ds) = lines cs ++ lines ds := by
  induction cs with
  | nil => exact lines_newline_cons ds
  | cons c cs ih =>
      by_cases hc : c = '\n'
      · subst hc
        rw [List.cons_append, lines_newline_cons, lines_newline_cons, ih, List.cons_append]
      · obtain ⟨first, ls, hls⟩ := exists_lines_eq_cons cs
        rw [hls, List.cons_append] at ih
        rw [List.cons_append, lines_cons hc ih, lines_cons hc hls, List.cons_append]

/-- A text without a newline is a single line. -/
theorem lines_of_newline_not_mem (h : '\n' ∉ cs) : lines cs = [cs] := by
  induction cs with
  | nil => rfl
  | cons c cs ih =>
      rw [List.mem_cons, not_or] at h
      exact lines_cons (Ne.symm h.1) (ih h.2)

/-- What comes up to a newline begins with any line. -/
theorem takeWhile_line (hline : '\n' ∉ line) (rest : List Char) :
    (line ++ rest).takeWhile (· != '\n') = line ++ rest.takeWhile (· != '\n') := by
  refine List.takeWhile_append_of_pos fun c hc => bne_iff_ne.mpr ?_
  rintro rfl
  exact hline hc

/-- No line holds a newline. -/
theorem newline_not_mem_of_mem_lines (h : line ∈ lines cs) : '\n' ∉ line := by
  induction cs generalizing line with
  | nil =>
      rw [List.mem_singleton.mp h]
      exact List.not_mem_nil
  | cons c cs ih =>
      by_cases hc : c = '\n'
      · subst hc
        rw [lines_newline_cons, List.mem_cons] at h
        rcases h with rfl | h
        · exact List.not_mem_nil
        · exact ih h
      · obtain ⟨first, ls, hls⟩ := exists_lines_eq_cons cs
        rw [lines_cons hc hls, List.mem_cons] at h
        rw [hls] at ih
        rcases h with rfl | h
        · rw [List.mem_cons, not_or]
          exact ⟨Ne.symm hc, ih (by simp)⟩
        · exact ih (by simp [h])

/-- A text has one line more than newlines. -/
theorem length_lines (cs : List Char) : (lines cs).length = cs.count '\n' + 1 := by
  induction cs with
  | nil => rfl
  | cons c cs ih =>
      by_cases hc : c = '\n'
      · subst hc
        rw [lines_newline_cons, List.length_cons, ih, List.count_cons_self]
      · obtain ⟨first, ls, hls⟩ := exists_lines_eq_cons cs
        rw [hls, List.length_cons] at ih
        rw [lines_cons hc hls, List.length_cons, ih, List.count_cons_of_ne hc]

theorem unlines_cons_cons (line next : List Char) (ls : List (List Char)) :
    unlines (line :: next :: ls) = line ++ '\n' :: unlines (next :: ls) := rfl

/-- **Lines without newlines are the lines of the text that joins them.** -/
theorem lines_unlines (hne : ls ≠ []) (h : ∀ line ∈ ls, '\n' ∉ line) :
    lines (unlines ls) = ls := by
  induction ls with
  | nil => exact absurd rfl hne
  | cons line rest ih =>
      have hline := lines_of_newline_not_mem (h line (by simp))
      cases rest with
      | nil => exact hline
      | cons next rest =>
          rw [unlines_cons_cons, lines_append, hline,
            ih (by simp) fun l hl => h l (by simp [hl])]
          rfl

/-- What stands in joined lines stands in one of them, newlines apart. -/
theorem mem_of_mem_unlines {c : Char} (h : c ∈ unlines ls) (hc : c ≠ '\n') :
    ∃ line ∈ ls, c ∈ line := by
  induction ls with
  | nil => cases h
  | cons line rest ih =>
      cases rest with
      | nil => exact ⟨line, by simp, h⟩
      | cons next rest =>
          rw [unlines_cons_cons, List.mem_append, List.mem_cons] at h
          rcases h with h | h | h
          · exact ⟨line, by simp, h⟩
          · exact absurd h hc
          · obtain ⟨l, hl, hmem⟩ := ih h
            exact ⟨l, List.mem_cons_of_mem line hl, hmem⟩

theorem mem_unlines_of_mem {c : Char} (hline : line ∈ ls) (hc : c ∈ line) : c ∈ unlines ls := by
  induction ls with
  | nil => cases hline
  | cons first rest ih =>
      cases rest with
      | nil => exact List.mem_singleton.mp hline ▸ hc
      | cons next rest =>
          rw [unlines_cons_cons, List.mem_append, List.mem_cons]
          rcases List.mem_cons.mp hline with rfl | hline
          · exact .inl hc
          · exact .inr (.inr (ih hline))

/-- What stands in a line stands in the text. -/
theorem mem_of_mem_lines {c : Char} (hline : line ∈ lines cs) (hc : c ∈ line) : c ∈ cs := by
  have := mem_unlines_of_mem hline hc
  rwa [unlines_lines] at this

/-- A text without carriage returns has its line breaks as they should be. -/
theorem normalizeBreaks_of_not_mem (h : '\r' ∉ cs) : normalizeBreaks cs = cs := by
  induction cs with
  | nil => rfl
  | cons c cs ih =>
      rw [List.mem_cons, not_or] at h
      rw [normalizeBreaks, if_neg (Ne.symm h.1), ih h.2]
      rintro rest rfl
      exact absurd rfl h.1

end Livedoc.Text

/-!
## Dividing a text into lines as shown

A text without breaks is at most one line.  Where a break follows it, it makes a line with this
break, and the other lines are those of what follows; a carriage return and a newline behind it
are one break.
-/

namespace Livedoc.Text

variable {u : List Char} {c : Char}

/-- A text that is shown on one line. -/
def Unbroken (cs : List Char) : Prop := ∀ c ∈ cs, isVisualBreak c = false

instance (cs : List Char) : Decidable (Unbroken cs) :=
  decidable_of_iff (cs.all fun c => !isVisualBreak c) (by simp [Unbroken])

theorem Unbroken.not_mem (hu : Unbroken u) (hc : isVisualBreak c = true) : c ∉ u := fun hmem =>
  Bool.false_ne_true ((hu c hmem).symm.trans hc)

/-- A text that breaks does so first at some character. -/
theorem exists_break (h : ¬Unbroken u) :
    ∃ before c after, u = before ++ c :: after ∧ Unbroken before ∧ isVisualBreak c = true := by
  induction u with
  | nil => exact absurd (fun c hc => absurd hc List.not_mem_nil) h
  | cons c u ih =>
      by_cases hc : isVisualBreak c = true
      · exact ⟨[], c, u, rfl, fun x hx => absurd hx List.not_mem_nil, hc⟩
      · have hu : ¬Unbroken u := fun hu => h fun x hx =>
          (List.mem_cons.mp hx).elim (fun hx => hx ▸ eq_false_of_ne_true hc) (hu x)
        obtain ⟨before, d, after, rfl, hbefore, hd⟩ := ih hu
        refine ⟨c :: before, d, after, rfl, fun x hx => ?_, hd⟩
        rcases List.mem_cons.mp hx with rfl | hx
        · exact eq_false_of_ne_true hc
        · exact hbefore x hx

/-- A character that is no break joins the current line. -/
private theorem visualLinesFrom_cons_of_unbroken (hc : isVisualBreak c = false)
    (rest line : List Char) :
    visualLinesFrom (c :: rest) line = visualLinesFrom rest (c :: line) := by
  rw [visualLinesFrom, if_neg (by simp [hc])]
  rintro rest rfl
  exact absurd hc (by decide)

/-- A break ends the current line, but for a carriage return with a newline behind it. -/
private theorem visualLinesFrom_cons_of_break (hc : isVisualBreak c = true) {rest : List Char}
    (hreturn : c = '\r' → rest.head? ≠ some '\n') (line : List Char) :
    visualLinesFrom (c :: rest) line = (c :: line).reverse :: visualLines rest := by
  rw [visualLinesFrom, if_pos hc]
  · rfl
  · rintro after rfl rfl
    exact absurd rfl (hreturn rfl)

/-- What is no break joins the current line. -/
private theorem visualLinesFrom_append (hu : Unbroken u) (rest line : List Char) :
    visualLinesFrom (u ++ rest) line = visualLinesFrom rest (u.reverse ++ line) := by
  induction u generalizing line with
  | nil => rfl
  | cons c u ih =>
      rw [List.cons_append, visualLinesFrom_cons_of_unbroken (hu c (by simp)),
        ih (fun x hx => hu x (by simp [hx])), List.reverse_cons, List.append_assoc]
      rfl

/-- A text without breaks is a line, if it is not empty. -/
theorem visualLines_of_unbroken (hu : Unbroken u) :
    visualLines u = if u.isEmpty then [] else [u] := by
  have h := visualLinesFrom_append hu [] []
  rw [List.append_nil, List.append_nil] at h
  rw [visualLines, h, visualLinesFrom, List.isEmpty_reverse, List.reverse_reverse]

/-- **A break ends a line.** -/
theorem visualLines_append_break (hu : Unbroken u) (hc : isVisualBreak c = true)
    {rest : List Char} (hreturn : c = '\r' → rest.head? ≠ some '\n') :
    visualLines (u ++ c :: rest) = (u ++ [c]) :: visualLines rest := by
  rw [visualLines, visualLinesFrom_append hu, visualLinesFrom_cons_of_break hc hreturn,
    List.append_nil, List.reverse_cons, List.reverse_reverse]

/-- **A carriage return and a newline end a line together.** -/
theorem visualLines_append_return_newline (hu : Unbroken u) (rest : List Char) :
    visualLines (u ++ '\r' :: '\n' :: rest) = (u ++ ['\r', '\n']) :: visualLines rest := by
  rw [visualLines, visualLinesFrom_append hu, visualLinesFrom, List.append_nil,
    List.reverse_cons, List.reverse_cons, List.reverse_reverse, List.append_assoc]
  rfl

end Livedoc.Text
