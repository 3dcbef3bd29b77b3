import Livedoc.Proofs.Document.Fence
import Livedoc.Proofs.Document.Placeless
import Livedoc.Proofs.Document.Reading
import Livedoc.Proofs.Markdown.FirstLine

/-!
# Sources that are one quotation

A text all of whose lines carry the mark of a quotation is one quotation, whose blocks are those of
the lines without their marks (`readBlocks_quoted`).  White space after a mark may be written out as
spaces; what follows it stays (`dropWhile_quotedLine`).

Where every line of a source carries the mark, no line starts a call and only the first one can
carry a label, so the source is read as one quotation, whose lines are those without their marks
(`bareAll_read_quotedLines`).
-/

namespace Livedoc.Markdown

open Livedoc.Text

/-! ## Lines without their marks -/

/-- A quoted line without its mark, given what follows the mark. -/
def quotedLine (cs : List Char) : Line := { chars := expandSecondTab (quotedContent cs) }

theorem dropWhile_spaces_append (n : Nat) (cs : List Char) :
    (spaces n ++ cs).dropWhile isGap = cs.dropWhile isGap := by
  refine List.dropWhile_append_of_pos fun c hc => ?_
  rw [List.eq_of_mem_replicate hc]
  rfl

/-- What stands after the spaces and tabs at the start stays when a tab becomes spaces. -/
private theorem dropWhile_tab {cs rest : List Char} {indent : Nat}
    (h : dropIndent? 3 cs = some (indent, '\t' :: rest)) (n : Nat) :
    (spaces n ++ rest).dropWhile isGap = cs.dropWhile isGap := by
  rw [(dropIndent?_eq_some h).2, dropWhile_spaces_append]
  exact (dropWhile_spaces_append indent ('\t' :: rest)).symm

theorem dropWhile_expandLeadingTab (width : Nat) (cs : List Char) :
    (expandLeadingTab width cs).dropWhile isGap = cs.dropWhile isGap := by
  unfold expandLeadingTab
  split
  · next h => exact dropWhile_tab h _
  · rfl

theorem dropWhile_expandSecondTab (cs : List Char) :
    (expandSecondTab cs).dropWhile isGap = cs.dropWhile isGap := by
  unfold expandSecondTab
  split
  · next h => exact dropWhile_tab h _
  · rfl

theorem dropWhile_dropSpaces (most : Nat) (cs : List Char) :
    (dropSpaces most cs).dropWhile isGap = cs.dropWhile isGap := by
  induction most generalizing cs with
  | zero => cases cs <;> rfl
  | succ most ih =>
      cases cs with
      | nil => rfl
      | cons c rest =>
          by_cases hc : c = ' '
          · subst hc
            exact ih rest
          · rw [dropSpaces]
            rintro more n - heq
            exact absurd (List.cons.inj heq).1 hc

/-- **A line without its mark goes on as it is written**, after spaces and tabs. -/
theorem dropWhile_quotedLine (cs : List Char) :
    (quotedLine cs).chars.dropWhile isGap = cs.dropWhile isGap := by
  rw [quotedLine, dropWhile_expandSecondTab, quotedContent, dropWhile_dropSpaces,
    dropWhile_expandLeadingTab]

/-- A line is blank if it is so after spaces and tabs. -/
theorem isBlankLine_dropWhile (cs : List Char) :
    isBlankLine (cs.dropWhile isGap) = isBlankLine cs := by
  induction cs with
  | nil => rfl
  | cons c cs ih =>
      cases hc : isGap c with
      | true =>
          rw [List.dropWhile_cons_of_pos hc, ih]
          simp [isBlankLine, isLineGap, hc]
      | false => rw [List.dropWhile_cons_of_neg (by simp [hc])]

theorem isBlankLine_quotedLine (cs : List Char) :
    isBlankLine (quotedLine cs).chars = isBlankLine cs := by
  rw [← isBlankLine_dropWhile, dropWhile_quotedLine, isBlankLine_dropWhile]

/-! ## Quotations -/

/-- Lines with marks in front. -/
def quotedLines (ls : List (List Char)) : List (List Char) := ls.map ('>' :: ·)

theorem afterQuoteMark?_mark (cs : List Char) : afterQuoteMark? ('>' :: cs) = some cs := by
  rw [afterQuoteMark?, dropIndent?_cons (by decide)]
  rfl

/-- Lines that carry the mark belong to the quotation before them. -/
theorem quoteLines_quotedLines (ls : List (List Char)) (lazyAllowed afterBlank : Bool) :
    quoteLines lazyAllowed afterBlank (plainLines (quotedLines ls)) = ls.map quotedLine := by
  induction ls generalizing afterBlank with
  | nil => rfl
  | cons cs ls ih =>
      show quoteLines lazyAllowed afterBlank
        (({ chars := '>' :: cs } : Line) :: plainLines (quotedLines ls)) = _
      rw [quoteLines, afterQuoteMark?_mark]
      exact congrArg (_ :: ·) (ih _)

theorem quote?_quotedLines (cs : List Char) (ls : List (List Char)) :
    quote? (plainLines (quotedLines (cs :: ls))) = some ((cs :: ls).map quotedLine) := by
  show quote? (({ chars := '>' :: cs } : Line) :: plainLines (quotedLines ls)) = _
  rw [quote?, afterQuoteMark?_mark]
  exact congrArg (fun rest => some (_ :: rest)) (quoteLines_quotedLines ls _ _)

/-- A line that carries the mark starts a quotation. -/
theorem stepBlock_quotedLines {rules : Rules} {nested : Nested} (hnested : rules.nested = some nested)
    (cs : List Char) (ls : List (List Char)) (r : Reading) :
    stepBlock rules { chars := '>' :: cs } (plainLines (quotedLines ls)) r =
      stepQuote nested ((cs :: ls).map quotedLine) r := by
  have hindent (most : Nat) : dropIndent? most ('>' :: cs) = some (0, '>' :: cs) :=
    dropIndent?_cons (by decide) most cs
  have hfence : fence? 3 ('>' :: cs) = none := by
    rw [fence?, hindent]
    rfl
  have hcode : isIndentedCode ('>' :: cs) = false := by simp [isIndentedCode, indentOf]
  have hheading : markedHeading? ('>' :: cs) = none := by
    rw [markedHeading?, hindent]
    simp
  have hunderline : underline? ('>' :: cs) = none := by
    rw [underline?, hindent]
    simp [dropEndWhile_cons, show isGap '>' = false by decide]
  have hrule : isThematicBreak 3 ('>' :: cs) = false := by
    rw [isThematicBreak, hindent]
    rfl
  have hquote : (rules.nested.bind fun nested =>
      (quote? (({ chars := '>' :: cs } : Line) :: plainLines (quotedLines ls))).map
        fun q => (nested, q)) = some (nested, (cs :: ls).map quotedLine) := by
    rw [hnested, Option.bind_some]
    exact congrArg (Option.map _) (quote?_quotedLines cs ls)
  simp only [stepBlock, hfence, hcode, hheading, hunderline, hrule, hquote, Bool.false_eq_true,
    if_false]

/-- The blocks of the lines of a quotation without their marks, and the references defined there. -/
def readQuoted (ls : List (List Char)) : List Block × References :=
  readNested false 19 (ls.map quotedLine) []

/-- **A text all of whose lines carry the mark is one quotation.** -/
theorem readBlocks_quoted (cs : List Char) (ls : List (List Char))
    (h : ∀ l ∈ cs :: ls, '\n' ∉ l) :
    readBlocks (unlines (quotedLines (cs :: ls))) =
      ([.quote (readQuoted (cs :: ls)).1], (readQuoted (cs :: ls)).2) := by
  have hlines : linesOf (unlines (quotedLines (cs :: ls))) = plainLines (quotedLines (cs :: ls)) := by
    obtain ⟨before, last, hsplit⟩ :
        ∃ before last, quotedLines (cs :: ls) = before ++ ['>' :: last] := by
      have hne : cs :: ls ≠ [] := List.cons_ne_nil cs ls
      refine ⟨quotedLines (cs :: ls).dropLast, (cs :: ls).getLast hne, ?_⟩
      exact (congrArg quotedLines (List.dropLast_concat_getLast hne)).symm.trans List.map_append
    rw [hsplit]
    refine linesOf_unlines (List.cons_ne_nil '>' last) fun l hl => ?_
    rw [← hsplit] at hl
    obtain ⟨line, hline, rfl⟩ := List.mem_map.mp hl
    simpa using h line hline
  have htaken : ((cs :: ls).map quotedLine).length - 1 = ls.length := by simp
  rw [readBlocks, hlines]
  show (fun r : Reading => (r.blocks.reverse, r.references)) (readLines
    ⟨true, some (readNested false 19)⟩ 0
    (({ chars := '>' :: cs } : Line) :: plainLines (quotedLines ls)) ⟨[], []⟩) = _
  rw [readLines_cons, stepBlock_quotedLines rfl]
  simp only [stepQuote, htaken]
  rw [List.drop_eq_nil_of_le (by simp [plainLines, quotedLines])]
  rfl

end Livedoc.Markdown

namespace Livedoc.Document

open Livedoc.Source Livedoc.Text Livedoc.Tree Livedoc.Tree.Node Livedoc.Markdown

/-! ## Segments -/

theorem openedFence?_mark (cs : List Char) : openedFence? ('>' :: cs) = none := by
  simp [openedFence?]

/-- Lines that carry the mark are Markdown. -/
theorem segmentsFrom_quotedLines (pending : List (List Char)) (number : Nat)
    (ls : List (List Char)) :
    segmentsFrom none pending number 0 (quotedLines ls) =
      markdownBefore ((quotedLines ls).reverse ++ pending) (number + ls.length) := by
  induction ls generalizing pending number with
  | nil => rfl
  | cons cs ls ih =>
      have hmark : ('>' :: cs).head? ≠ some '.' := by simp
      have hcall := blockCall?_of_head?_ne hmark number (quotedLines ls)
      show segmentsFrom none pending number 0 (('>' :: cs) :: quotedLines ls) = _
      rw [segmentsFrom, openedFence?_mark, hcall]
      dsimp only
      rw [ih, List.length_cons, Nat.add_right_comm]
      simp [quotedLines]
      rfl

theorem segments_quotedLines (number : Nat) (cs : List Char) (ls : List (List Char)) :
    segments number (quotedLines (cs :: ls)) = [.markdown (quotedLines (cs :: ls)) number] := by
  rw [segments, segmentsFrom_quotedLines, List.append_nil, markdownBefore, if_neg (by simp [quotedLines]),
    List.reverse_reverse, List.length_reverse]
  simp [quotedLines]

/-! ## Labels -/

/-- A line after a quoted one carries no label. -/
theorem markLabels_quotedLines (ls : List (List Char)) :
    markLabels true (quotedLines ls) = quotedLines ls := by
  induction ls with
  | nil => rfl
  | cons cs ls ih => exact congrArg (('>' :: cs) :: ·) ih

/-- Of quoted lines only the first can carry a label. -/
theorem markLabels_quotedLines_cons {cs marked : List Char}
    (hmarked : (markLabel? ('>' :: cs)).getD ('>' :: cs) = '>' :: marked) (ls : List (List Char)) :
    markLabels false (quotedLines (cs :: ls)) = quotedLines (marked :: ls) := by
  show (markLabel? ('>' :: cs)).getD ('>' :: cs) :: markLabels true (quotedLines ls) = _
  rw [hmarked, markLabels_quotedLines]
  rfl

/-! ## Sources -/

/-- **A source all of whose lines carry the mark is one quotation**, spans apart. -/
theorem bareAll_read_quotedLines {cs marked : List Char} {ls : List (List Char)}
    (hlines : ∀ l ∈ cs :: ls, '\n' ∉ l ∧ '\r' ∉ l)
    (hmarked : (markLabel? ('>' :: cs)).getD ('>' :: cs) = '>' :: marked) {source : String}
    (hsource : source.toList = unlines (quotedLines (cs :: ls))) :
    bareAll (read source).result.children =
      bareBlock (readQuoted (marked :: ls)).2 (.quote (readQuoted (marked :: ls)).1) := by
  have hnewline : ∀ l ∈ quotedLines (cs :: ls), '\n' ∉ l := by
    intro l hl
    obtain ⟨line, hline, rfl⟩ := List.mem_map.mp hl
    simpa using (hlines line hline).1
  have hbreaks : '\r' ∉ source.toList := by
    rw [hsource]
    intro hmem
    obtain ⟨l, hl, hmem⟩ := mem_of_mem_unlines hmem (by decide)
    obtain ⟨line, hline, rfl⟩ := List.mem_map.mp hl
    exact (hlines line hline).2 (by simpa using hmem)
  have hdivided : lines source.toList = quotedLines (cs :: ls) := by
    rw [hsource]
    exact lines_unlines (List.cons_ne_nil _ _) hnewline
  have hlabels := markLabels_quotedLines_cons hmarked ls
  have hinside : ∀ l ∈ marked :: ls, '\n' ∉ l := by
    intro l hl hmem
    have hquoted : '>' :: l ∈ markLabels false (quotedLines (cs :: ls)) := by
      rw [hlabels]
      exact List.mem_map_of_mem hl
    exact newline_not_mem_markLabels hnewline false _ hquoted (List.mem_cons_of_mem _ hmem)
  have hchildren : (read source).result.children = (read source).content.result := rfl
  have hblank : allBlank (unlines (quotedLines (marked :: ls))) = false := by
    have hmark : '>' ∈ unlines (quotedLines (marked :: ls)) :=
      mem_unlines_of_mem List.mem_cons_self List.mem_cons_self
    rw [allBlank, List.all_eq_false]
    exact ⟨'>', hmark, by decide⟩
  rw [hchildren, read_content hbreaks, hdivided, hlabels, readParts_eq, segments_quotedLines]
  show bareAll ((readMarkdown _ _ _ _).result ++ []) = _
  rw [List.append_nil, readMarkdown]
  simp only [hblank, Bool.false_eq_true, if_false]
  show bareAll (markdownNodes (unlines (quotedLines (marked :: ls))) _).1 = _
  rw [markdownNodes, readBlocks_quoted marked ls hinside]
  dsimp only
  rw [bareAll_blockListNodes, List.flatMap_cons, List.flatMap_nil, List.append_nil]

end Livedoc.Document
