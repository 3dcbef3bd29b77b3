import Livedoc.Proofs.Document.Reading

/-!
# The body of a block call

The body of a block call is divided and read like a document (`read_row`): taking its common
indentation away undoes indenting it, and what is left reads as it would on its own, spans
apart.  The labels of typed quotations are the exception.  They are rewritten once, in the
source as it stands, where a line indented by four spaces is no quotation; so an indented
document reads as the document itself exactly where that rewriting has nothing to do, and
a typed quotation loses its type (`read_row_ne`).
-/

namespace Livedoc.Document

open Livedoc.Call Livedoc.Source Livedoc.Text Livedoc.Tree Livedoc.Tree.Node

/-! ## Indenting -/

/-- A line indented by four spaces, if it holds anything. -/
def indentLine (line : List Char) : List Char :=
  if line.isEmpty then [] else List.replicate 4 ' ' ++ line

theorem drop_indentLine (line : List Char) : (indentLine line).drop 4 = line := by
  cases line with
  | nil => rfl
  | cons c cs => rfl

theorem takeQuoteMark?_indentLine (line : List Char) : takeQuoteMark? (indentLine line) = none := by
  cases line with
  | nil => rfl
  | cons c cs => exact takeQuoteMark?_indented (c :: cs)

theorem allBlank_indentLine (line : List Char) : allBlank (indentLine line) = allBlank line := by
  cases line with
  | nil => rfl
  | cons c cs =>
      have hspace : isBlank ' ' = true := by decide
      simp [indentLine, allBlank, hspace]

theorem continuesBody_indentLine (line : List Char) : continuesBody (indentLine line) = true := by
  cases line with
  | nil => rfl
  | cons c cs => simp [indentLine, continuesBody, List.replicate, isGap]

/-- The white space at the start of an indented line. -/
private theorem takeWhile_indentLine {line : List Char} (h : line ≠ []) :
    ((indentLine line).takeWhile isGap).length = 4 + (line.takeWhile isGap).length := by
  have hspaces : ∀ c ∈ List.replicate 4 ' ', isGap c = true := fun c hc => by
    rw [List.eq_of_mem_replicate hc]
    rfl
  rw [indentLine, if_neg (by simpa using h), List.takeWhile_append_of_pos hspaces,
    List.length_append, List.length_replicate]

/-- **Four columns are common to indented lines**, if one of the lines starts with no blank. -/
theorem commonIndent_indentLine {ls : List (List Char)}
    (hflush : ∃ line ∈ ls, allBlank line = false ∧ line.head?.any isGap = false) :
    commonIndent (ls.map indentLine) = 4 := by
  obtain ⟨flush, hmem, hblank, hgap⟩ := hflush
  have hne : ∀ {line : List Char}, allBlank line = false → line ≠ [] := by
    rintro _ h rfl
    cases h
  have hmin : (((ls.map indentLine).filter fun l => !allBlank l).map
      fun l => (l.takeWhile isGap).length).min? = some 4 := by
    rw [List.min?_eq_some_iff]
    constructor
    · rw [List.mem_map]
      refine ⟨indentLine flush, ?_, ?_⟩
      · simp only [List.mem_filter, List.mem_map, allBlank_indentLine, hblank]
        exact ⟨⟨flush, hmem, rfl⟩, rfl⟩
      · have hstart : flush.takeWhile isGap = [] := by
          cases flush with
          | nil => rfl
          | cons c cs => exact List.takeWhile_cons_of_neg (by simpa using hgap)
        rw [takeWhile_indentLine (hne hblank), hstart]
        rfl
    · intro width hwidth
      obtain ⟨line, hline, rfl⟩ := List.mem_map.mp hwidth
      obtain ⟨hline, hnot⟩ := List.mem_filter.mp hline
      obtain ⟨line, -, rfl⟩ := List.mem_map.mp hline
      rw [allBlank_indentLine] at hnot
      rw [takeWhile_indentLine (hne (by simpa using hnot))]
      exact Nat.le_add_right 4 _
  rw [commonIndent, hmin]
  rfl

/-! ## Calls with a body -/

/-- Lines that all belong to a body are no segments of their own. -/
theorem segmentsFrom_body (number : Nat) (ls : List (List Char)) :
    segmentsFrom none [] number ls.length ls = [] := by
  induction ls generalizing number with
  | nil => rfl
  | cons line rest ih => exact ih _

/-- The call `.row {}`, as a line. -/
def rowLine : List Char := ".row \x7b\x7d".toList

/-- A source that holds a text, indented, as the body of a call. -/
def rowAround (d : String) : String :=
  String.ofList (unlines (rowLine :: (lines d.toList).map indentLine))

/-- The head of the call is that of a call without further text on its line. -/
private theorem headAt?_rowLine :
    headAt? 0 rowLine = some
      { name := "row", groups := [{ key := none, value := "", start := 5, stop := 7 }], start := 0
        stop := rowLine.length, unterminated := false } := by
  decide

theorem mem_of_mem_indentLine {c : Char} {line : List Char} (h : c ∈ indentLine line)
    (hc : c ≠ ' ') : c ∈ line := by
  unfold indentLine at h
  split at h
  · cases h
  · simpa [hc] using h

/-- What holds the text as a body is the call and the indented lines. -/
private theorem readParts_rowAround {d : String} (hreturn : '\r' ∉ d.toList) :
    (read (rowAround d)).content = readParts (.ofText (rowAround d).toList) 1 0
      (rowLine :: (lines d.toList).map indentLine) := by
  have hlines : ∀ c, c ∉ rowLine → c ≠ ' ' → c ∉ d.toList ∨ c = '\n' →
      ∀ line ∈ rowLine :: (lines d.toList).map indentLine, c ∉ line := by
    intro c hrow hspace hnot line hline hmem
    rcases List.mem_cons.mp hline with rfl | hline
    · exact hrow hmem
    · obtain ⟨inner, hinner, rfl⟩ := List.mem_map.mp hline
      have hmem := mem_of_mem_indentLine hmem hspace
      rcases hnot with hnot | rfl
      · exact hnot (mem_of_mem_lines hinner hmem)
      · exact newline_not_mem_of_mem_lines hinner hmem
  have hno : '\r' ∉ (rowAround d).toList := by
    rw [rowAround, String.toList_ofList]
    intro h
    obtain ⟨line, hline, hmem⟩ := mem_of_mem_unlines h (by decide)
    exact hlines '\r' (by decide) (by decide) (.inl hreturn) line hline hmem
  have hunquoted : ∀ line ∈ rowLine :: (lines d.toList).map indentLine,
      takeQuoteMark? line = none := by
    intro line hline
    rcases List.mem_cons.mp hline with rfl | hline
    · exact takeQuoteMark?_cons (by decide) (by decide) _
    · obtain ⟨line, -, rfl⟩ := List.mem_map.mp hline
      exact takeQuoteMark?_indentLine line
  have hmarked : markLabels false (lines (rowAround d).toList) =
      rowLine :: (lines d.toList).map indentLine := by
    rw [rowAround, String.toList_ofList,
      lines_unlines (by simp) (hlines '\n' (by decide) (by decide) (.inr rfl)),
      markLabels_of_unquoted hunquoted]
  rw [read_content hno, hmarked]

/-- **The body of a call reads as its lines do without their indentation.** -/
private theorem read_rowAround {d : String} (hreturn : '\r' ∉ d.toList)
    (hlast : ∀ line ∈ (lines d.toList).getLast?, allBlank line = false)
    (hflush : ∃ line ∈ lines d.toList, allBlank line = false ∧ line.head?.any isGap = false) :
    ∃ argument body span,
      (read (rowAround d)).result.children = [.call "row" [argument] [] body span] ∧
        argument.content = "" ∧
        SameNodes body (readParts (.ofText d.toList) 1 0 (lines d.toList)).result := by
  have hbody : indentedLines ((lines d.toList).map indentLine) = (lines d.toList).map indentLine := by
    refine indentedLines_eq_self (fun line hline => ?_) fun line hline => ?_
    · obtain ⟨line, -, rfl⟩ := List.mem_map.mp hline
      exact continuesBody_indentLine line
    · rw [List.getLast?_map, Option.mem_def, Option.map_eq_some_iff] at hline
      obtain ⟨inner, hinner, rfl⟩ := hline
      rw [allBlank_indentLine]
      exact hlast inner hinner
  have hsegments := segmentsFrom_append_call [] ((lines d.toList).map indentLine) headAt?_rowLine rfl
    none [] 1 0 rfl (Nat.le_refl 0)
  rw [hbody, segmentsFrom_body] at hsegments
  have hdrop : ((lines d.toList).map indentLine).map (List.drop 4) = lines d.toList := by
    rw [List.map_map]
    exact (List.map_congr_left fun line _ => drop_indentLine line).trans (List.map_id _)
  have hcontent := readParts_rowAround hreturn
  rw [readParts_eq, segments, ← List.nil_append (rowLine :: _), hsegments] at hcontent
  have hchildren := congrArg Parsed.result hcontent
  refine ⟨_, _, _, hchildren, rfl, ?_⟩
  show SameNodes (readParts _ _ _ _).result _
  rw [commonIndent_indentLine hflush, hdrop]
  exact (readParts_same _ _ _ _ _ _ _).nodes

/-- **A body is read as a document is, but for the labels of its quotations**: around a
document that is indented, a call has the nodes that the lines of the document have without the
rewriting of labels, and these are the nodes of the document if no label is to be rewritten. -/
theorem read_row {d : String} (hreturn : '\r' ∉ d.toList)
    (hlast : ∀ line ∈ (lines d.toList).getLast?, allBlank line = false)
    (hflush : ∃ line ∈ lines d.toList, allBlank line = false ∧ line.head?.any isGap = false) :
    ∃ argument body span,
      (read (rowAround d)).result.children = [.call "row" [argument] [] body span] ∧
        argument.content = "" ∧
        sameAll body (readParts (.ofText d.toList) 1 0 (lines d.toList)).result = true ∧
        (normalizeQuotes d.toList = d.toList → sameAll body (read d).result.children = true) := by
  obtain ⟨argument, body, span, hchildren, hargument, hsame⟩ := read_rowAround hreturn hlast hflush
  refine ⟨argument, body, span, hchildren, hargument, (sameAll_iff _ _).mpr hsame, fun hlabels => ?_⟩
  have hread := read_content hreturn
  rw [← lines_normalizeQuotes, hlabels] at hread
  rw [← hread] at hsame
  exact (sameAll_iff _ _).mpr hsame

/-- A body with a list, a call that has a body of its own, and a fence. -/
theorem read_row_nested :
    ∃ argument body span,
      (read (rowAround "- a\n\n.box \x7bt\x7d\n  b\n```\n.c \x7bd\x7d\n```")).result.children =
          [.call "row" [argument] [] body span] ∧
        sameAll body (read "- a\n\n.box \x7bt\x7d\n  b\n```\n.c \x7bd\x7d\n```").result.children = true := by
  obtain ⟨argument, body, span, hchildren, -, -, hsame⟩ :=
    read_row (d := "- a\n\n.box \x7bt\x7d\n  b\n```\n.c \x7bd\x7d\n```") (by decide) (by decide)
      ⟨"- a".toList, by decide, by decide, by decide⟩
  exact ⟨argument, body, span, hchildren, hsame (by decide)⟩

/-- A label of a quotation changes what a document is read as. -/
private theorem readParts_note_ne :
    sameAll (readParts (.ofText "> Note: hi".toList) 1 0 ["> Note: hi".toList]).result
      (readParts (.ofText "> Note: hi".toList) 1 0 ["> [!NOTE] hi".toList]).result = false := by
  rw [readParts_eq, readParts_eq]
  decide +kernel

/-- **A typed quotation loses its type in a body**: its label is recognised where the document
stands alone, and not where it is indented. -/
theorem read_row_ne :
    ∃ argument body span,
      (read (rowAround "> Note: hi")).result.children = [.call "row" [argument] [] body span] ∧
        sameAll body (read "> Note: hi").result.children = false := by
  have hreturn : '\r' ∉ "> Note: hi".toList := by decide
  obtain ⟨argument, body, span, hchildren, -, hbody⟩ :=
    read_rowAround hreturn (by decide) ⟨"> Note: hi".toList, by decide⟩
  refine ⟨argument, body, span, hchildren, Bool.eq_false_iff.mpr fun hsame => ?_⟩
  have hread : (read "> Note: hi").content =
      readParts (.ofText "> Note: hi".toList) 1 0 ["> [!NOTE] hi".toList] := by
    rw [read_content hreturn]
    rfl
  have hboth := hbody.symm.trans ((sameAll_iff _ _).mp hsame)
  change SameNodes _ (read "> Note: hi").content.result at hboth
  rw [hread, SameNodes, ← sameAll_iff] at hboth
  exact Bool.false_ne_true (readParts_note_ne.symm.trans hboth)

end Livedoc.Document
