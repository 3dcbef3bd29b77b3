import Livedoc.Problem.Context
import Livedoc.Proofs.Source.LineIndex
import Livedoc.Proofs.Text.Blank
import Livedoc.Proofs.Text.Lines

/-!
# The line a message quotes

The number and the columns of a message count newlines, and the line it quotes is taken from the
lines as shown.  So the carets always stand where the characters of the span stand in their line,
and the quoted line is this line as long as no other break was met: **the lines up to a given one
are quoted right exactly if none of them is shown on several lines** (`context_quotes_iff`), but
for a break at the very end of the last line that is not empty.
-/

namespace Livedoc.Problem

open Livedoc.Source Livedoc.Text

variable {cs line text u w : List Char} {ls texts : List (List Char)} {c : Char}

/-! ## Lines and messages -/

/-- The characters before an offset that stand in the same line. -/
def lineHead (cs : List Char) (offset : Nat) : List Char :=
  ((cs.take offset).reverse.takeWhile (· != '\n')).reverse

/-- The characters from an offset on that stand in the same line. -/
def lineTail (cs : List Char) (offset : Nat) : List Char :=
  (cs.drop offset).takeWhile (· != '\n')

/-- A line without the carriage return at its end. -/
def withoutReturn (line : List Char) : List Char :=
  if line.getLast? = some '\r' then line.dropLast else line

/-- The text of the line that contains an offset. -/
def lineText (cs : List Char) (offset : Nat) : List Char :=
  withoutReturn (lineHead cs offset ++ lineTail cs offset)

/-- The number of the line that contains an offset, from zero. -/
def linesBefore (cs : List Char) (offset : Nat) : Nat := (cs.take offset).count '\n'

/-- A message ends with a source line behind its number, and a line with carets under it,
behind so many columns. -/
def Shows (message : String) (number : Nat) (line : List Char) (column carets : Nat) : Prop :=
  ∃ above, lines message.toList = above ++
    [(toString number ++ " | ").toList ++ line,
      List.replicate ((toString number).length + 1) ' ' ++ ['|', ' '] ++
        List.replicate column ' ' ++ List.replicate carets '^']

/-- A line that is shown on several lines breaks only behind its last character, which is no
carriage return, and no line after it holds anything. -/
def BreaksAtEnd (texts : List (List Char)) : Prop :=
  ∀ before text after, texts = before ++ text :: after → ¬Unbroken text →
    (∃ u c, text = u ++ [c] ∧ Unbroken u ∧ c ≠ '\r') ∧ ∀ later ∈ after, later = []

/-- A message shows one line. -/
theorem Shows.line_eq {message : String} {number column column' carets carets' : Nat}
    {line' : List Char} (h : Shows message number line column carets)
    (h' : Shows message number line' column' carets') : line = line' := by
  obtain ⟨above, habove⟩ := h
  obtain ⟨above', habove'⟩ := h'
  have hends := List.append_inj_right' (habove.symm.trans habove') rfl
  exact List.append_cancel_left (List.cons_eq_cons.mp hends).1

/-! ## A break in the lines of a source -/

theorem breaksAtEnd_nil : BreaksAtEnd [] := fun before _ _ h =>
  absurd h.symm (by simp)

/-- A line that is shown as one does not matter. -/
theorem breaksAtEnd_cons_of_unbroken (htext : Unbroken text) :
    BreaksAtEnd (text :: texts) ↔ BreaksAtEnd texts := by
  constructor
  · rintro h before later after rfl
    exact h (text :: before) later after rfl
  · intro h before later after heq hbroken
    cases before with
    | nil =>
        obtain ⟨rfl, rfl⟩ := List.cons_eq_cons.mp heq
        exact absurd htext hbroken
    | cons first before => exact h before later after (List.cons_eq_cons.mp heq).2 hbroken

/-- Where a line breaks, it has to be the last one with anything in it. -/
theorem breaksAtEnd_cons_of_break (hu : Unbroken u) (hc : isVisualBreak c = true) :
    BreaksAtEnd ((u ++ c :: w) :: texts) ↔
      c ≠ '\r' ∧ w = [] ∧ ∀ later ∈ texts, later = [] := by
  have hbroken : ¬Unbroken (u ++ c :: w) := fun h => h.not_mem hc (by simp)
  constructor
  · intro h
    obtain ⟨⟨v, d, hv, hunbroken, hd⟩, hlater⟩ := h [] _ _ rfl hbroken
    rcases List.eq_nil_or_concat w with rfl | ⟨w, x, rfl⟩
    · rw [List.append_inj_right' hv rfl |> List.singleton_inj.mp]
      exact ⟨hd, rfl, hlater⟩
    · rw [List.concat_eq_append, ← List.cons_append, ← List.append_assoc] at hv
      have hu : u ++ c :: w = v := List.append_inj_left' hv rfl
      exact absurd (by simp [← hu]) (hunbroken.not_mem hc)
  · rintro ⟨hreturn, rfl, hlater⟩ before later after heq hlaterBroken
    cases before with
    | nil =>
        obtain ⟨rfl, rfl⟩ := List.cons_eq_cons.mp heq
        exact ⟨⟨u, c, rfl, hu, hreturn⟩, hlater⟩
    | cons first before =>
        have hnil := hlater later (by simp [(List.cons_eq_cons.mp heq).2])
        exact absurd (hnil ▸ fun x hx => absurd hx List.not_mem_nil) hlaterBroken

/-! ## The lines as shown -/

/-- A line as shown, without its newline or carriage returns. -/
def quotedText (shown : List Char) : List Char :=
  dropEndWhile (· == '\r') (dropEndWhile (· == '\n') shown)

/-- The line as shown that stands behind so many others. -/
def quoted (cs : List Char) (k : Nat) : List Char := quotedText ((visualLines cs).getD k [])

/-- A character that is to stay at the end keeps the text. -/
private theorem dropEndWhile_append_of_ne {d : Char} (hd : c ≠ d) :
    dropEndWhile (· == d) (u ++ [c]) = u ++ [c] :=
  dropEndWhile_append_cons (p := (· == d)) (beq_false_of_ne hd) u []

private theorem dropEndWhile_of_unbroken (hu : Unbroken u) {d : Char}
    (hd : isVisualBreak d = true) : dropEndWhile (· == d) u = u := by
  rcases List.eq_nil_or_concat u with rfl | ⟨v, x, rfl⟩
  · rfl
  · rw [List.concat_eq_append]
    exact dropEndWhile_append_of_ne fun h => hu.not_mem hd (by simp [h])

private theorem quotedText_of_unbroken (hu : Unbroken u) : quotedText u = u := by
  rw [quotedText, dropEndWhile_of_unbroken hu (by decide), dropEndWhile_of_unbroken hu (by decide)]

private theorem quotedText_newline (shown : List Char) :
    quotedText (shown ++ ['\n']) = quotedText shown := by
  rw [quotedText, dropEndWhile_append_singleton (by decide)]
  rfl

private theorem quotedText_return (hu : Unbroken u) : quotedText (u ++ ['\r']) = u := by
  rw [quotedText, dropEndWhile_append_cons (by decide),
    show dropEndWhile (· == '\n') [] = [] from rfl, dropEndWhile_append_singleton (by decide),
    dropEndWhile_of_unbroken hu (by decide)]

private theorem quotedText_break (hnewline : c ≠ '\n') (hreturn : c ≠ '\r') :
    quotedText (u ++ [c]) = u ++ [c] := by
  rw [quotedText, dropEndWhile_append_of_ne hnewline, dropEndWhile_append_of_ne hreturn]

/-- A line as shown is quoted up to its break. -/
private theorem quoted_append_break (hu : Unbroken u) (hc : isVisualBreak c = true)
    (rest : List Char) (hreturn : c = '\r' → rest.head? ≠ some '\n') :
    quoted (u ++ c :: rest) 0 = quotedText (u ++ [c]) ∧
      ∀ k, quoted (u ++ c :: rest) (k + 1) = quoted rest k := by
  constructor
  · rw [quoted, visualLines_append_break hu hc hreturn, List.getD_cons_zero]
  · intro k
    rw [quoted, visualLines_append_break hu hc hreturn, List.getD_cons_succ]
    rfl

private theorem quoted_append_return_newline (hu : Unbroken u) (rest : List Char) :
    quoted (u ++ '\r' :: '\n' :: rest) 0 = u ∧
      ∀ k, quoted (u ++ '\r' :: '\n' :: rest) (k + 1) = quoted rest k := by
  constructor
  · rw [quoted, visualLines_append_return_newline hu, List.getD_cons_zero,
      show u ++ ['\r', '\n'] = u ++ ['\r'] ++ ['\n'] by simp, quotedText_newline,
      quotedText_return hu]
  · intro k
    rw [quoted, visualLines_append_return_newline hu, List.getD_cons_succ]
    rfl

/-- A text without breaks is quoted whole. -/
private theorem quoted_of_unbroken (hu : Unbroken u) : quoted u 0 = u := by
  rw [quoted, visualLines_of_unbroken hu]
  split
  · next h => rw [List.isEmpty_iff.mp h]; rfl
  · exact quotedText_of_unbroken hu

/-- Whatever follows, a text is quoted up to a carriage return. -/
private theorem quoted_append_return (hu : Unbroken u) (rest : List Char) :
    quoted (u ++ '\r' :: rest) 0 = u := by
  by_cases hnewline : rest.head? = some '\n'
  · obtain ⟨rest, rfl⟩ := List.head?_eq_some_iff.mp hnewline
    exact (quoted_append_return_newline hu rest).1
  · rw [(quoted_append_break hu (by decide) rest fun _ => hnewline).1, quotedText_return hu]

/-! ## The lines of a source as they are quoted -/

theorem withoutReturn_eq_or (line : List Char) :
    line = withoutReturn line ∨ line = withoutReturn line ++ ['\r'] := by
  unfold withoutReturn
  split
  · next h =>
      obtain ⟨text, rfl⟩ := List.getLast?_eq_some_iff.mp h
      exact .inr (by rw [List.dropLast_concat])
  · exact .inl rfl

/-- **A line that is shown as one is quoted right**, and does not disturb those after it. -/
private theorem quoted_line (htext : Unbroken (withoutReturn line)) (rest : List Char) :
    quoted (line ++ '\n' :: rest) 0 = withoutReturn line ∧
      ∀ k, quoted (line ++ '\n' :: rest) (k + 1) = quoted rest k := by
  rcases withoutReturn_eq_or line with hline | hline
  · have hbreak := quoted_append_break htext (show isVisualBreak '\n' = true by decide) rest
      (fun h => absurd h (by decide))
    rw [quotedText_newline, quotedText_of_unbroken htext] at hbreak
    rwa [← hline] at hbreak ⊢
  · have hbreak := quoted_append_return_newline htext rest
    have heq : withoutReturn line ++ '\r' :: '\n' :: rest = line ++ '\n' :: rest := by
      rw [congrArg (· ++ '\n' :: rest) hline]
      simp
    rwa [heq] at hbreak

private theorem quoted_last_line (htext : Unbroken (withoutReturn line)) :
    quoted line 0 = withoutReturn line := by
  rcases withoutReturn_eq_or line with hline | hline
  · exact (congrArg (quoted · 0) hline).trans (quoted_of_unbroken htext)
  · exact (congrArg (quoted · 0) hline).trans (quoted_append_return htext [])

/-- Where a line breaks, it is quoted up to there. -/
private theorem quoted_broken_line (hu : Unbroken u) (hc : isVisualBreak c = true)
    (hnewline : c ≠ '\n') (w after : List Char) :
    quoted (u ++ c :: after) 0 = u ++ c :: w ↔ c ≠ '\r' ∧ w = [] := by
  by_cases hreturn : c = '\r'
  · subst hreturn
    rw [quoted_append_return hu]
    simp
  · rw [(quoted_append_break hu hc after fun h => absurd h hreturn).1,
      quotedText_break hnewline hreturn, List.append_cancel_left_eq, List.cons_eq_cons]
    exact ⟨fun h => ⟨hreturn, h.2.symm⟩, fun h => ⟨rfl, h.2.symm⟩⟩

/-- The first so many lines of a source are quoted right. -/
def QuotedRight (ls : List (List Char)) (cs : List Char) (n : Nat) : Prop :=
  ∀ k line, k < n → ls[k]? = some line → quoted cs k = withoutReturn line

private theorem quotedRight_cons_succ {n : Nat} :
    QuotedRight (line :: ls) cs (n + 1) ↔ quoted cs 0 = withoutReturn line ∧
      ∀ k later, k < n → ls[k]? = some later → quoted cs (k + 1) = withoutReturn later := by
  constructor
  · intro h
    exact ⟨h 0 line (by omega) rfl, fun k later hk hlater => h (k + 1) later (by omega) hlater⟩
  · rintro ⟨hfirst, hlater⟩ k l hk hl
    cases k with
    | zero => exact List.getElem?_cons_zero.symm.trans hl |> Option.some.inj |> (· ▸ hfirst)
    | succ k => exact hlater k l (by omega) hl

/-- So many lines with nothing in them. -/
private theorem forall_mem_take_eq_nil {n : Nat} :
    (∀ later ∈ (ls.map withoutReturn).take n, later = []) ↔
      ∀ k line, k < n → ls[k]? = some line → withoutReturn line = [] := by
  constructor
  · intro h k line hk hline
    refine h _ (List.mem_iff_getElem?.mpr ⟨k, ?_⟩)
    rw [List.getElem?_take_of_lt hk, List.getElem?_map, hline]
    rfl
  · intro h later hlater
    obtain ⟨k, hget⟩ := List.mem_iff_getElem?.mp hlater
    rw [List.getElem?_take, List.getElem?_map] at hget
    split at hget
    · next hk =>
        obtain ⟨line, hline, rfl⟩ := Option.map_eq_some_iff.mp hget
        exact h k line hk hline
    · cases hget

/-- Behind a line with nothing in it, further such lines are quoted so. -/
private theorem quoted_behind_empty {n : Nat} (hfirst : withoutReturn line = [])
    (hright : QuotedRight ls (unlines ls) n)
    (hempty : ∀ k l, k < n → ls[k]? = some l → withoutReturn l = []) {k : Nat} (hk : k ≤ n)
    (hlength : k ≤ ls.length) : quoted (line ++ '\n' :: unlines ls) k = [] := by
  have hunbroken : Unbroken (withoutReturn line) := by
    rw [hfirst]
    exact fun c hc => absurd hc List.not_mem_nil
  obtain ⟨hzero, hsucc⟩ := quoted_line hunbroken (unlines ls)
  cases k with
  | zero => exact hzero.trans hfirst
  | succ k =>
      have hl : ls[k]? = some ls[k] := List.getElem?_eq_getElem (by omega)
      rw [hsucc, hright k _ (by omega) hl, hempty k _ (by omega) hl]

/-- **Behind a break too many, lines are quoted right exactly if nothing stands in them.** -/
private theorem quotedRight_behind_empty (hfirst : withoutReturn line = [])
    (hiff : ∀ n, QuotedRight ls (unlines ls) n ↔ BreaksAtEnd ((ls.map withoutReturn).take n))
    (n : Nat) :
    QuotedRight ls (line ++ '\n' :: unlines ls) n ↔
      ∀ k l, k < n → ls[k]? = some l → withoutReturn l = [] := by
  -- Lines with nothing in them do not break, and are quoted right in their own place.
  have hright {n : Nat} (hempty : ∀ k l, k < n → ls[k]? = some l → withoutReturn l = []) :
      QuotedRight ls (unlines ls) n := by
    rw [hiff]
    rintro before text after heq hbroken
    have hnil : text = [] := forall_mem_take_eq_nil.mpr hempty text (by simp [heq])
    exact absurd (hnil ▸ fun c hc => absurd hc List.not_mem_nil) hbroken
  constructor
  · intro h
    induction n with
    | zero => exact fun k _ hk => absurd hk (Nat.not_lt_zero k)
    | succ n ih =>
        have hempty := ih fun k l hk => h k l (by omega)
        intro k l hk hl
        rw [← h k l hk hl]
        exact quoted_behind_empty hfirst (hright hempty) hempty (by omega)
          (Nat.le_of_lt (List.getElem?_eq_some_iff.mp hl).1)
  · intro hempty k l hk hl
    rw [hempty k l hk hl]
    exact quoted_behind_empty hfirst (hright hempty) hempty (by omega)
      (Nat.le_of_lt (List.getElem?_eq_some_iff.mp hl).1)

/-- What the first break leaves of a line. -/
private theorem exists_rest_of_break (hline : withoutReturn line = u ++ c :: w) :
    ∃ rest, line = u ++ c :: (w ++ rest) ∧ withoutReturn rest = [] := by
  rcases withoutReturn_eq_or line with h | h
  · exact ⟨[], by rw [h, hline]; simp, rfl⟩
  · exact ⟨['\r'], by rw [h, hline]; simp, rfl⟩

/-- **The first lines of a source are quoted right exactly if they break at the end only.** -/
theorem quotedRight_iff (hls : ∀ l ∈ ls, '\n' ∉ l) (n : Nat) :
    QuotedRight ls (unlines ls) n ↔ BreaksAtEnd ((ls.map withoutReturn).take n) := by
  induction ls generalizing n with
  | nil =>
      rw [List.map_nil, List.take_nil]
      exact iff_of_true (fun _ _ _ h => absurd h (by simp)) breaksAtEnd_nil
  | cons line ls ih =>
      have ih := ih fun l hl => hls l (by simp [hl])
      cases n with
      | zero =>
          rw [List.take_zero]
          exact iff_of_true (fun _ _ h => absurd h (by simp)) breaksAtEnd_nil
      | succ n =>
          rw [quotedRight_cons_succ, List.map_cons, List.take_succ_cons]
          by_cases htext : Unbroken (withoutReturn line)
          · rw [breaksAtEnd_cons_of_unbroken htext, ← ih]
            cases ls with
            | nil => exact iff_of_true ⟨quoted_last_line htext, by simp⟩ fun _ _ _ h => by simp at h
            | cons next ls =>
                obtain ⟨hzero, hsucc⟩ := quoted_line htext (unlines (next :: ls))
                rw [unlines_cons_cons, and_iff_right hzero]
                simp only [hsucc]
                rfl
          · obtain ⟨u, c, w, hline, hu, hc⟩ := exists_break htext
            obtain ⟨rest, rfl, hrest⟩ := exists_rest_of_break hline
            have hnewline : c ≠ '\n' := by
              rintro rfl
              exact hls _ List.mem_cons_self (by simp)
            rw [hline, breaksAtEnd_cons_of_break hu hc, forall_mem_take_eq_nil, ← and_assoc]
            cases ls with
            | nil =>
                rw [show unlines [u ++ c :: (w ++ rest)] = u ++ c :: (w ++ rest) from rfl,
                  quoted_broken_line hu hc hnewline]
                simp
            | cons next ls =>
                rw [unlines_cons_cons, List.append_assoc, List.cons_append,
                  quoted_broken_line hu hc hnewline]
                refine and_congr_right fun ⟨hreturn, hw⟩ => ?_
                have hnext := (quoted_append_break hu hc
                  (rest ++ '\n' :: unlines (next :: ls)) fun h => absurd h hreturn).2
                subst hw
                simp only [List.nil_append, hnext]
                exact quotedRight_behind_empty hrest ih n

/-! ## Offsets and lines -/

/-- What stands before a newline ends at the same newline. -/
private theorem takeWhile_append_newline (cs rest : List Char) :
    (cs ++ '\n' :: rest).takeWhile (· != '\n') = cs.takeWhile (· != '\n') := by
  induction cs with
  | nil => rfl
  | cons c cs ih => rw [List.cons_append, List.takeWhile_cons, List.takeWhile_cons, ih]

/-- **What stands around an offset** is what stands around it in its line. -/
private theorem around_lineOffset (hls : ∀ l ∈ ls, '\n' ∉ l) {k x : Nat}
    (hk : ls[k]? = some line) (hx : x ≤ line.length) :
    lineHead (unlines ls) (lineOffset ls k + x) = line.take x ∧
      lineTail (unlines ls) (lineOffset ls k + x) = line.drop x := by
  unfold lineHead lineTail
  induction ls generalizing k with
  | nil => cases hk
  | cons first ls ih =>
      have hfirst := hls first (by simp)
      cases k with
      | zero =>
          obtain rfl : first = line := by simpa using hk
          have htake : '\n' ∉ first.take x := fun h => hfirst (List.mem_of_mem_take h)
          have hdrop : '\n' ∉ first.drop x := fun h => hfirst (List.mem_of_mem_drop h)
          have hhead : (unlines (first :: ls)).take x = first.take x := by
            cases ls with
            | nil => rfl
            | cons next ls => rw [unlines_cons_cons, List.take_append_of_le_length hx]
          rw [lineOffset_zero, Nat.zero_add, hhead]
          constructor
          · have hreverse : '\n' ∉ (first.take x).reverse := by simpa using htake
            have htext := takeWhile_line hreverse []
            rw [List.append_nil] at htext
            rw [htext, List.takeWhile_nil, List.append_nil, List.reverse_reverse]
          · cases ls with
            | nil =>
                have htext := takeWhile_line hdrop []
                rwa [List.append_nil, List.takeWhile_nil, List.append_nil] at htext
            | cons next ls =>
                rw [unlines_cons_cons, List.drop_append_of_le_length hx, takeWhile_line hdrop]
                simp
      | succ k =>
          cases ls with
          | nil => cases hk
          | cons next ls =>
              obtain ⟨hhead, htail⟩ := ih (fun l hl => hls l (by simp [hl]))
                (k := k) (by simpa using hk)
              have hoffset : lineOffset (first :: next :: ls) (k + 1) + x =
                  first.length + (lineOffset (next :: ls) k + x + 1) := by
                rw [lineOffset_cons_succ]
                omega
              rw [hoffset, unlines_cons_cons, List.take_length_add_append,
                List.drop_length_add_append, List.take_succ_cons, List.drop_succ_cons]
              refine ⟨?_, htail⟩
              rw [← hhead, List.reverse_append, List.reverse_cons, List.append_assoc,
                List.singleton_append, takeWhile_append_newline]

/-! ## The message -/

/-- No line as shown goes on behind a newline. -/
private theorem newline_not_mem_dropLast (cs line : List Char) (hline : '\n' ∉ line) :
    ∀ shown ∈ visualLinesFrom cs line, '\n' ∉ shown.dropLast := by
  induction cs, line using visualLinesFrom.induct with
  | case1 line hempty =>
      rw [visualLinesFrom, if_pos hempty]
      simp
  | case2 line hempty =>
      rw [visualLinesFrom, if_neg hempty]
      intro shown hshown hmem
      rw [List.mem_singleton.mp hshown] at hmem
      exact hline (List.mem_reverse.mp (List.dropLast_subset _ hmem))
  | case3 line rest ih =>
      rw [visualLinesFrom]
      intro shown hshown
      rcases List.mem_cons.mp hshown with rfl | hshown
      · rw [List.reverse_cons, List.dropLast_concat]
        simpa using hline
      · exact ih List.not_mem_nil shown hshown
  | case4 line c rest hreturn hbreak ih =>
      rw [visualLinesFrom, if_pos hbreak]
      · intro shown hshown
        rcases List.mem_cons.mp hshown with rfl | hshown
        · rw [List.reverse_cons, List.dropLast_concat]
          simpa using hline
        · exact ih List.not_mem_nil shown hshown
      · exact hreturn
  | case5 line c rest hreturn hbreak ih =>
      rw [visualLinesFrom, if_neg hbreak]
      · refine ih ?_
        rw [List.mem_cons, not_or]
        refine ⟨?_, hline⟩
        rintro rfl
        exact hbreak (by decide)
      · exact hreturn

/-- What is quoted is a single line. -/
private theorem newline_not_mem_quoted (cs : List Char) (k : Nat) : '\n' ∉ quoted cs k := by
  have hshown : '\n' ∉ ((visualLines cs).getD k []).dropLast := by
    rw [List.getD_eq_getElem?_getD]
    cases hk : (visualLines cs)[k]? with
    | none => simp
    | some shown =>
        exact newline_not_mem_dropLast cs [] List.not_mem_nil shown (List.mem_of_getElem? hk)
  intro hmem
  have hstripped := (prefix_dropEndWhile _ _).subset hmem
  rcases List.eq_nil_or_concat ((visualLines cs).getD k []) with hnil | ⟨text, c, hconcat⟩
  · rw [hnil] at hstripped
    cases hstripped
  · rw [hconcat, List.concat_eq_append] at hshown hstripped
    rw [List.dropLast_concat] at hshown
    by_cases hc : c = '\n'
    · rw [hc, dropEndWhile_append_singleton (by decide)] at hstripped
      exact hshown ((prefix_dropEndWhile _ _).subset hstripped)
    · rw [dropEndWhile_append_of_ne hc] at hstripped
      rcases List.mem_append.mp hstripped with hmem | hmem
      · exact hshown hmem
      · exact hc (List.mem_singleton.mp hmem).symm

/-- A number is written on one line. -/
private theorem newline_not_mem_toString (n : Nat) : '\n' ∉ (toString n).toList := by
  intro h
  have hdigit : '\n'.isDigit = true :=
    Nat.isDigit_of_mem_toDigits (b := 10) (n := n) (by decide) (by decide) (by simpa using h)
  exact absurd hdigit (by decide)

/-- **A message shows a line of its source**, and carets under it. -/
private theorem context_shows (message source filename severity : String) (span : Span)
    (hknown : span.isKnown = true) :
    Shows (context message span source filename severity) span.start.line
      (quoted source.toList (span.start.line - 1)) (span.start.column - 1)
      (caretCount span (quoted source.toList (span.start.line - 1)).length) := by
  let number := toString span.start.line
  let gutter := repeated ' ' (number.length + 1)
  let above := severity ++ ": " ++ message ++ "\n" ++ gutter ++ "--> " ++ filename ++ ":" ++
    number ++ ":" ++ toString span.start.column ++ "\n" ++ gutter ++ "|"
  let line := quoted source.toList (span.start.line - 1)
  let carets := List.replicate (number.length + 1) ' ' ++ ['|', ' '] ++
    List.replicate (span.start.column - 1) ' ' ++ List.replicate (caretCount span line.length) '^'
  have hcontext : (context message span source filename severity).toList =
      above.toList ++ '\n' :: (((number ++ " | ").toList ++ line) ++ '\n' :: carets) := by
    rw [context, if_neg (by simp [hknown])]
    simp [above, gutter, carets, repeated, number, line, String.toList_append, quoted, quotedText,
      sourceLine]
  have hquoted : lines ((number ++ " | ").toList ++ line) = [(number ++ " | ").toList ++ line] := by
    refine lines_of_newline_not_mem ?_
    have hnumber := newline_not_mem_toString span.start.line
    have hline := newline_not_mem_quoted source.toList (span.start.line - 1)
    rw [String.toList_append, List.mem_append, List.mem_append, not_or, not_or]
    exact ⟨⟨hnumber, by decide⟩, hline⟩
  have hcarets : lines carets = [carets] := lines_of_newline_not_mem (by simp [carets])
  refine ⟨lines above.toList, ?_⟩
  rw [hcontext, lines_append, lines_append, hquoted, hcarets]
  rfl

/-- Where an offset stands, in numbers. -/
private theorem exists_place (cs : List Char) {a : Nat} (ha : a ≤ cs.length) :
    ∃ line, (lines cs)[linesBefore cs a]? = some line ∧
      lineText cs a = withoutReturn line ∧
      (LineIndex.ofText cs).position (a : Int) =
        ⟨linesBefore cs a + 1, (lineHead cs a).length + 1, a⟩ ∧
      a = lineOffset (lines cs) (linesBefore cs a) + (lineHead cs a).length := by
  obtain ⟨k, line, x, hk, hx, rfl⟩ :=
    exists_lineOffset (lines_ne_nil cs) (a := a) (by rwa [unlines_lines])
  have hlines : ∀ l ∈ lines cs, '\n' ∉ l := fun l hl => newline_not_mem_of_mem_lines hl
  obtain ⟨hhead, htail⟩ := around_lineOffset hlines hk hx
  have hbefore : linesBefore _ _ = k := count_take_lineOffset hlines hk hx
  rw [unlines_lines] at hhead htail hbefore
  have hposition := LineIndex.position_lineOffset hk hx
  rw [lineText, hhead, htail, hbefore, List.take_append_drop, List.length_take_of_le hx]
  exact ⟨line, hk, rfl, hposition, rfl⟩

/-- Offsets without a newline between them stand in one line. -/
private theorem linesBefore_eq {a b : Nat} (hab : a ≤ b) (h : '\n' ∉ (cs.take b).drop a) :
    linesBefore cs b = linesBefore cs a := by
  have htake : cs.take b = cs.take a ++ (cs.take b).drop a := by
    have hsplit := (List.take_append_drop a (cs.take b)).symm
    rwa [List.take_take, Nat.min_eq_left hab] at hsplit
  unfold linesBefore
  rw [htake, List.count_append, List.count_eq_zero.mpr h, Nat.add_zero]

/-- Every line is the line of an offset. -/
private theorem exists_offset {k : Nat} (hk : (lines cs)[k]? = some line) :
    ∃ a ≤ cs.length, linesBefore cs a = k ∧ lineText cs a = withoutReturn line := by
  obtain ⟨before, after, hcs, hbefore⟩ := LineIndex.exists_eq_append_line hk
  have hlines : ∀ l ∈ lines cs, '\n' ∉ l := fun l hl => newline_not_mem_of_mem_lines hl
  obtain ⟨hhead, htail⟩ := around_lineOffset hlines hk (Nat.zero_le _)
  have hcount : linesBefore _ _ = k := count_take_lineOffset hlines hk (Nat.zero_le _)
  rw [unlines_lines] at hhead htail hcount
  refine ⟨lineOffset (lines cs) k + 0, ?_, hcount, ?_⟩
  · have hlength := congrArg List.length hcs
    simp only [List.length_append] at hlength
    omega
  · rw [lineText, hhead, htail, List.take_append_drop]

section Message

variable (source message filename severity : String) {a b : Nat}

/-- **A message about a span shows a line under the number of its first line**, with carets from
the column of its start on. -/
private theorem context_span_shows (b : Nat) (ha : a ≤ source.toList.length) :
    Shows (context message ((LineIndex.of source).span a b) source filename severity)
      (linesBefore source.toList a + 1)
      (quoted source.toList (linesBefore source.toList a)) (lineHead source.toList a).length
      (caretCount ((LineIndex.of source).span a b)
        (quoted source.toList (linesBefore source.toList a)).length) := by
  obtain ⟨_, _, _, hposition, _⟩ := exists_place source.toList ha
  have hstart : ((LineIndex.of source).span a b).start = _ := hposition
  have hshows := context_shows message source filename severity ((LineIndex.of source).span a b)
    (by rw [Span.isKnown, hstart]; simp)
  rwa [hstart] at hshows

/-- **A span within a line has as many carets as characters.** -/
private theorem caretCount_span (hab : a < b) (hb : b ≤ source.toList.length)
    (hline : '\n' ∉ (source.toList.take b).drop a) (width : Nat) :
    caretCount ((LineIndex.of source).span a b) width = b - a := by
  obtain ⟨_, _, _, hstart, ha⟩ := exists_place source.toList (a := a) (by omega)
  obtain ⟨_, _, _, hstop, hb⟩ := exists_place source.toList hb
  rw [linesBefore_eq (by omega) hline] at hstop hb
  have hspan : (LineIndex.of source).span a b = ⟨_, _⟩ := congr (congrArg Span.mk hstart) hstop
  rw [caretCount, hspan, if_pos rfl]
  show max 1 (_ + 1 - (_ + 1)) = b - a
  omega

/-- **The lines up to a given one are quoted right exactly if none of them breaks before its
end.**  The carets stand in any case under the columns of the span. -/
theorem context_quotes_iff :
    (∀ a b, a < b → b ≤ source.toList.length → '\n' ∉ (source.toList.take b).drop a →
      ∃ line, Shows (context message ((LineIndex.of source).span a b) source filename severity)
        (linesBefore source.toList a + 1) line (lineHead source.toList a).length (b - a)) ∧
    ∀ n,
      (∀ a b, a ≤ b → b ≤ source.toList.length → linesBefore source.toList a < n →
        ∃ carets,
          Shows (context message ((LineIndex.of source).span a b) source filename severity)
            (linesBefore source.toList a + 1) (lineText source.toList a)
            (lineHead source.toList a).length carets) ↔
      BreaksAtEnd (((lines source.toList).map withoutReturn).take n) := by
  refine ⟨fun a b hab hb hline => ⟨quoted source.toList (linesBefore source.toList a), ?_⟩,
    fun n => ?_⟩
  · have hshows := context_span_shows source message filename severity b (a := a) (by omega)
    rwa [caretCount_span source hab hb hline] at hshows
  · rw [← quotedRight_iff (fun _ => newline_not_mem_of_mem_lines), unlines_lines]
    constructor
    · intro hshows k line hk hline
      obtain ⟨a, ha, rfl, htext⟩ := exists_offset hline
      obtain ⟨carets, hcarets⟩ := hshows a a (by omega) ha hk
      rw [← htext]
      exact (context_span_shows source message filename severity a ha).line_eq hcarets
    · intro hquoted a b hab hb hn
      obtain ⟨line, hline, htext, _, _⟩ := exists_place source.toList (a := a) (by omega)
      have hshows := context_span_shows source message filename severity b (a := a) (by omega)
      rw [hquoted _ _ hn hline, ← htext] at hshows
      exact ⟨_, hshows⟩

end Message

/-- A form feed at the end of the text, behind a line that ends with a carriage return. -/
theorem context_quotes_line_before_break :
    ∃ carets, Shows (context "m" ((LineIndex.of "one\r\ntwo\x0c\n").span 5 8)
      "one\r\ntwo\x0c\n" "f.dd" "error") 2 ['t', 'w', 'o', '\x0c'] 0 carets := by
  refine ((context_quotes_iff "one\r\ntwo\x0c\n" "m" "f.dd" "error").2 3).mpr ?_ 5 8
    (by decide) (by decide) (by decide)
  show BreaksAtEnd [['o', 'n', 'e'], ['t', 'w', 'o'] ++ ['\x0c'], []]
  rw [breaksAtEnd_cons_of_unbroken (by decide +kernel),
    breaksAtEnd_cons_of_break (by decide +kernel) (by decide)]
  decide

/-- Behind a form feed within a line, the next line is not what is quoted. -/
theorem context_quotes_behind_break :
    ¬∀ (source : String) (a b : Nat), a ≤ b → b ≤ source.toList.length →
      ∃ carets, Shows (context "m" ((LineIndex.of source).span a b) source "f.dd" "error")
        (linesBefore source.toList a + 1) (lineText source.toList a)
        (lineHead source.toList a).length carets := by
  intro h
  obtain ⟨carets, hcarets⟩ := h "a\x0cb\nc" 4 5 (by decide) (by decide)
  have hshows := context_span_shows "a\x0cb\nc" "m" "f.dd" "error" 5 (a := 4) (by decide)
  exact absurd (hshows.line_eq hcarets) (by decide)

end Livedoc.Problem
