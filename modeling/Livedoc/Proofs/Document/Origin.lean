import Livedoc.Proofs.Document.BlockCall
import Livedoc.Proofs.Document.Cursor

/-!
# Where calls and references come from

A call or a reference in a document is the node of a block call, or it stands within a line of
Markdown, or within the text after the head of a block call (`read_allDynamic`).  In the first
case its span is exact.  In the other cases it was looked for in a stretch of the lines with their
labels rewritten, and its span starts at its name there unless the search found nothing.  In all
cases the name stands in the source after a dot, and so do the names in its arguments.

The text of an argument is a part of a text that was read, but for backslashes, and Markdown makes
its texts of lines of the source, each of which goes into a text once.  So an argument has no more
lines than the source, at every depth (`read_fits`).
-/

namespace Livedoc.Document

open Livedoc.Call Livedoc.Markdown Livedoc.Source Livedoc.Text Livedoc.Tree Livedoc.Tree.Node

variable {whole ls : List (List Char)} {number indent : Nat} {index : LineIndex}
variable {source : List Char}

/-! ## Stretches -/

/-- Lines without newlines that have no names but those of the source. -/
structure SourceLines (source : List Char) (whole : List (List Char)) : Prop where
  newline : ∀ line ∈ whole, '\n' ∉ line
  drawn : ∀ line ∈ whole, DrawnFrom source line

/-- The lines of a text. -/
theorem SourceLines.lines (cs : List Char) : SourceLines cs (lines cs) where
  newline _ := newline_not_mem_of_mem_lines
  drawn _ := (DrawnFrom.refl cs).line

/-- The lines of a text with their labels rewritten. -/
theorem SourceLines.markLabels (h : SourceLines source whole) :
    SourceLines source (markLabels false whole) where
  newline := newline_not_mem_markLabels h.newline false
  drawn := markLabels_drawn h.drawn false

/-- Lines of a whole text without their first columns are a stretch of it. -/
theorem Excerpt.stretch (h : Excerpt whole number indent ls) (hwhole : ∀ line ∈ whole, '\n' ∉ line)
    (hls : ls ≠ []) : Stretch whole number indent ls where
  number_pos := h.number_pos
  nonempty := hls
  newline := by
    intro line hline hmem
    obtain ⟨i, hi⟩ := List.mem_iff_getElem?.mp hline
    obtain ⟨full, hfull, rfl, -⟩ := h.line hi
    exact hwhole full (List.mem_of_getElem? hfull) (List.mem_of_mem_drop hmem)
  line := by
    intro i line hi
    obtain ⟨full, hfull, rfl, -⟩ := h.line hi
    exact ⟨full, hfull, List.prefix_refl _⟩

/-- A stretch has no names but those of the whole text. -/
theorem Stretch.drawn (h : Stretch whole number indent ls) (hwhole : SourceLines source whole) :
    ∀ line ∈ ls, DrawnFrom source line := by
  intro line hline
  obtain ⟨i, hi⟩ := List.mem_iff_getElem?.mp hline
  obtain ⟨full, hfull, hfront⟩ := h.line hi
  have hdrawn := hwhole.drawn full (List.mem_of_getElem? hfull)
  exact (hdrawn.of_isSuffix (List.drop_suffix _ _)).of_isPrefix hfront

/-- The calls and references of a stretch of Markdown stand within its lines. -/
theorem readMarkdown_allDynamic (index : LineIndex) (hwhole : SourceLines source whole)
    (h : ls ≠ [] → Stretch whole number indent ls) :
    AllDynamic (fun m => m.InLine (Located whole index) ∧ m.Spelt source)
      (readMarkdown index ls number indent).result := by
  unfold readMarkdown
  dsimp only
  split
  · exact .nil
  · next hblank =>
      have hls : ls ≠ [] := by
        rintro rfl
        exact hblank rfl
      have hdrawn := DrawnFrom.unlines ((h hls).drawn hwhole)
      have hstart := Cursor.ofText_within index number indent hls
      exact (markdownNodes_allDynamic (n := ls.length) (lasting_drawnFrom source)
        ((h hls).findsHeads source).spelt hdrawn _ hstart).1

/-- What is left of a line is a stretch. -/
theorem Stretch.single {full text : List Char} (hwhole : ∀ line ∈ whole, '\n' ∉ line)
    (hnumber : 0 < number) (hfull : whole[number - 1]? = some full)
    (htext : text <+: full.drop indent) : Stretch whole number indent [text] where
  number_pos := hnumber
  nonempty := by simp
  newline := by
    intro line hline hmem
    rw [List.mem_singleton.mp hline] at hmem
    exact hwhole full (List.mem_of_getElem? hfull) (List.mem_of_mem_drop (htext.subset hmem))
  line := by
    intro i line hi
    cases i with
    | zero =>
        cases hi
        exact ⟨full, hfull, htext⟩
    | succ i => cases hi

/-- What trimming leaves stands behind the white space at the start. -/
theorem trim_prefix (cs : List Char) :
    trim cs <+: cs.drop (cs.length - (trimStart cs).length) := by
  have hstart : cs.drop (cs.length - (trimStart cs).length) = trimStart cs := by
    have hsplit := congrArg List.length (List.takeWhile_append_dropWhile (p := isBlank) (l := cs))
    rw [List.length_append] at hsplit
    rw [trimStart, ← hsplit, Nat.add_sub_cancel, drop_length_takeWhile]
  rw [hstart]
  exact prefix_dropEndWhile _ _

/-- The calls and references after the head of a block call stand within its line. -/
theorem readCallLine_allDynamic (index : LineIndex) {c : BlockCall} {full : List Char}
    (hwhole : SourceLines source whole) (hnumber : 0 < c.number)
    (hfull : whole[c.number - 1]? = some full) (hline : c.line = full.drop indent) :
    AllDynamic (fun m => m.InLine (Located whole index) ∧ m.Spelt source)
      (readCallLine index c indent).result := by
  unfold readCallLine
  dsimp only
  split
  · exact .nil
  · have hfront := trim_prefix (c.line.drop c.head.stop)
    rw [hline, List.drop_drop, List.drop_drop] at hfront
    have hstretch := Stretch.single hwhole.newline hnumber hfull hfront
    rw [hline, List.drop_drop]
    exact (inlineNodes_allDynamic (hstretch.findsHeads source).spelt []
      (hstretch.drawn hwhole _ (by simp)) _
      (Cursor.ofText_within index c.number _ hstretch.nonempty)).1

/-- The dynamic nodes of parts together are those of each. -/
theorem AllDynamic.join {D : Node → Prop} {ps : List (Parsed (List Node))}
    (h : ∀ p ∈ ps, AllDynamic D p.result) : AllDynamic D (Parsed.join ps).result := by
  intro m hm
  obtain ⟨n, hn, hm⟩ := mem_walkAll.mp hm
  obtain ⟨p, hp, hn⟩ := List.mem_flatMap.mp hn
  exact h p hp m (mem_walkAll.mpr ⟨n, hn, hm⟩)

/-- The dynamic nodes of a block call are itself and those on its line and in its body. -/
theorem callNode_allDynamic {D : Node → Prop} {c : BlockCall} {onLine below : List Node}
    (hself : D (callNode index c indent onLine below)) (honLine : AllDynamic D onLine)
    (hbelow : AllDynamic D below) : AllDynamic D [callNode index c indent onLine below] := by
  refine .call hself (allDynamic_append.mpr ⟨?_, hbelow⟩)
  split
  · exact honLine
  · exact .container (by rw [walk]) rfl honLine

theorem hasHead_callNode (index : LineIndex) (c : BlockCall) (indent : Nat)
    (onLine below : List Node) : (callNode index c indent onLine below).HasHead c.head := by
  refine hasHead_call ?_ ?_ _ _
  · rw [List.map_map]
    rfl
  · rw [List.map_map]
    rfl

/-! ## Documents -/

/-- A node of a block call of lines, or a call or reference within one of their lines. -/
def Originates (whole : List (List Char)) (index : LineIndex) (number indent : Nat)
    (ls : List (List Char)) (m : Node) : Prop :=
  (∃ c k, HoldsCall number indent ls c k ∧ m = blockCallNode index c k) ∨
    m.InLine (Located whole index)

/-- **What is read from lines of a whole text comes from block calls and heads in these lines**, and
has no names but those of the source. -/
theorem readParts_allDynamic (index : LineIndex) (hwhole : SourceLines source whole)
    (h : Excerpt whole number indent ls) :
    AllDynamic (fun m => Originates whole index number indent ls m ∧ m.Spelt source)
      (readParts index number indent ls).result := by
  -- By induction on the number of lines: the body of a call has fewer.
  induction hlength : ls.length using Nat.strong_induction_on generalizing number indent ls with
  | _ n ih =>
    subst hlength
    rw [readParts_eq]
    refine AllDynamic.join fun p hp => ?_
    obtain ⟨s, hs, rfl⟩ := List.mem_map.mp hp
    cases s with
    | markdown ms number' =>
        obtain ⟨before, after, rfl, rfl⟩ := segments_standAt hs
        have hmarkdown := readMarkdown_allDynamic index hwhole
          (h.middle.stretch hwhole.newline)
        exact hmarkdown.mono fun _ h => h.imp_left .inr
    | call c =>
        have hbelow := ih (c.body.map (List.drop (commonIndent c.body))).length
          (by simpa using body_length_lt hs) (h.body hs) rfl
        have hcall : HoldsCall number indent ls c indent := .here hs
        obtain ⟨hnumber, hhead, hclosed, full, hfull, hline, -⟩ := hcall.excerpt h
        have hdrawn : DrawnFrom source c.line := by
          rw [hline]
          exact (hwhole.drawn full (List.mem_of_getElem? hfull)).of_isSuffix (List.drop_suffix _ _)
        have hself := fun onLine below =>
          (hasHead_callNode index c indent onLine below).spelt hdrawn hhead hclosed
        have honLine := readCallLine_allDynamic index hwhole hnumber hfull hline
        refine callNode_allDynamic
          (D := fun m => Originates whole index number indent ls m ∧ m.Spelt source)
          ⟨.inl ⟨c, indent, hcall, rfl⟩, hself _ _⟩ ?_ ?_
        · exact honLine.mono fun _ h => h.imp_left .inr
        · refine hbelow.mono ?_
          rintro m ⟨⟨inner, k, hinner, rfl⟩ | hline, hspelt⟩
          · exact ⟨.inl ⟨inner, k, .inBody hs hinner, rfl⟩, hspelt⟩
          · exact ⟨.inr hline, hspelt⟩

/-- **The calls and references of a document** are its block calls, and the heads that were found in
its lines with their labels rewritten. -/
theorem read_allDynamic {source : String} (hreturn : '\r' ∉ source.toList) :
    AllDynamic (fun m =>
        ((∃ c k, HasBlockCall source c k ∧ m = blockCallNode (LineIndex.of source) c k) ∨
          m.InLine (Located (markLabels false (lines source.toList)) (LineIndex.of source))) ∧
        m.Spelt source.toList)
      (read source).result.children := by
  have hread := readParts_allDynamic (LineIndex.of source)
    (SourceLines.lines source.toList).markLabels (.refl _)
  have hcontent : (read source).result.children = (readParts (LineIndex.of source) 1 0
      (markLabels false (lines source.toList))).result :=
    congrArg Parsed.result (read_content hreturn)
  rw [← hcontent] at hread
  refine AllDynamic.mono hread ?_
  rintro m ⟨⟨c, k, hc, rfl⟩ | hline, hspelt⟩
  · refine ⟨.inl ⟨c, k, ?_, rfl⟩, hspelt⟩
    rwa [HasBlockCall, normalizeBreaks_of_not_mem hreturn, lines_normalizeQuotes]
  · exact ⟨.inr hline, hspelt⟩

/-- **The calls and references of a text** are the heads that were found in it. -/
theorem readLine_allDynamic (text : String) :
    AllDynamic (fun m => m.InLine (Located (lines text.toList) (LineIndex.of text)) ∧
      m.Spelt text.toList) (readLine text) := by
  have hlines := SourceLines.lines text.toList
  have hstretch : Stretch (lines text.toList) 1 0 (lines text.toList) :=
    (Excerpt.refl _).stretch hlines.newline (lines_ne_nil _)
  have hstart := Cursor.ofText_within (LineIndex.of text) 1 0 hstretch.nonempty
  rw [unlines_lines] at hstart
  exact (inlineNodes_allDynamic (hstretch.findsHeads text.toList).spelt [] (.refl _) _ hstart).1

/-- The dynamic nodes of a document are calls and references, however its lines end. -/
theorem read_isName (source : String) :
    AllDynamic (fun n => n.isName = true) (read source).result.children := by
  have hlines := (SourceLines.lines (normalizeBreaks source.toList)).markLabels
  have hparts := readParts_allDynamic (LineIndex.ofText source.toList) hlines (.refl _)
  rw [← lines_normalizeQuotes] at hparts
  refine AllDynamic.mono hparts ?_
  rintro m ⟨⟨c, k, -, rfl⟩ | hline, -⟩
  · rfl
  · exact hline.isName

theorem readLine_isName (text : String) : AllDynamic (fun n => n.isName = true) (readLine text) :=
  (readLine_allDynamic text).mono fun _ h => h.1.isName

/-! ## The lines of arguments -/

end Livedoc.Document
