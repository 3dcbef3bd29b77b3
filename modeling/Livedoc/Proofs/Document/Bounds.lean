import Livedoc.Proofs.Document.Division
import Livedoc.Proofs.Document.Origin
import Livedoc.Proofs.Document.Places

/-!
# Where spans can be

The position of an offset is on a line of the source (`LineIndex.position_at`).  A search is in the
lines of Markdown, whose labels are rewritten and which may be indented: its positions are on the
lines as they are read, the columns that were taken away included.  Where a line is blank it may be
shorter than these columns, but then they are the indentation of another line.  So all spans that
are read from a source are near its lines (`read_at`), and those that are read from the text of an
argument are on the lines of this text (`readLine_at`).
-/

namespace Livedoc.Source

open Livedoc.Text

/-- A character of a line, both counted from zero, has the property. -/
def Position.At (S : Nat → Nat → Prop) (p : Position) : Prop :=
  ∃ k x, p.line = k + 1 ∧ p.column = x + 1 ∧ S k x

theorem Position.At.mono {S T : Nat → Nat → Prop} {p : Position} (h : p.At S)
    (hST : ∀ k x, S k x → T k x) : p.At T := by
  obtain ⟨k, x, hline, hcolumn, hS⟩ := h
  exact ⟨k, x, hline, hcolumn, hST k x hS⟩

/-- There is such a line, and so many characters stand before the place in it. -/
def OnLine (ls : List (List Char)) (k x : Nat) : Prop :=
  ∃ line, ls[k]? = some line ∧ x ≤ line.length

/-- **The position of an offset is on a line of the text.** -/
theorem LineIndex.position_at (cs : List Char) (offset : Int) :
    ((ofText cs).position offset).At (OnLine (lines cs)) := by
  have hle : min offset.toNat cs.length ≤ (unlines (lines cs)).length := by
    rw [unlines_lines]
    exact Nat.min_le_right _ _
  obtain ⟨k, line, x, hline, hx, hoffset⟩ := exists_lineOffset (lines_ne_nil cs) hle
  have hposition := position_lineOffset hline hx
  rw [← hoffset] at hposition
  have hmin : min ((min offset.toNat cs.length : Nat) : Int).toNat (ofText cs).size =
      min offset.toNat cs.length := by
    rw [Int.toNat_natCast]
    exact Nat.min_eq_left (Nat.min_le_right _ _)
  have hsame : (ofText cs).position offset =
      (ofText cs).position ((min offset.toNat cs.length : Nat) : Int) := by
    unfold position
    rw [hmin]
    rfl
  rw [hsame, hposition]
  exact ⟨k, x, rfl, rfl, line, hline, hx⟩

end Livedoc.Source

namespace Livedoc.Document

open Livedoc.Call Livedoc.Source Livedoc.Text Livedoc.Tree Livedoc.Tree.Node

variable {whole ls : List (List Char)} {number indent : Nat} {index : LineIndex} {c : Cursor}
variable {W : Position → Prop}

/-! ## Searches within lines -/

/-- A cursor within lines stays in their places. -/
theorem Cursor.Within.staysIn (h : c.Within index number indent ls)
    (hls : ∀ line ∈ ls, '\n' ∉ line)
    (hW : ∀ {j x line}, ls[j]? = some line → x ≤ line.length →
      0 < number + j ∧ ∀ offset, W ⟨number + j, x + 1 + indent, offset⟩) : c.StaysIn W := by
  refine .of_next (I := fun c => c.Within index number indent ls) (fun c hc => hc.next hls) ?_ h
  rintro c ⟨j, x, hat⟩
  obtain ⟨line, hline, hx⟩ := hat.exists_line
  obtain ⟨hpos, hW⟩ := hW hline hx
  have hposition : c.position = ⟨number + j, x + 1 + indent, c.position.offset⟩ := by
    simp only [position, hat.line_eq, hat.column_eq, hat.indent_eq]
  rw [hposition]
  exact ⟨hpos, hW _⟩

/-! ## Indentation -/

/-- The characters of white space that a line starts with. -/
def gapWidth (line : List Char) : Nat := (line.takeWhile isGap).length

/-- Lines of a whole text without their first columns, which are the indentation of some line. What
is left of a line is blank only if the line is. -/
structure Indented (whole : List (List Char)) (number indent : Nat) (ls : List (List Char)) : Prop
    extends Excerpt whole number indent ls where
  blank : ∀ {i line full}, ls[i]? = some line → whole[number - 1 + i]? = some full →
    allBlank line = true → allBlank full = true
  indent_le : ls ≠ [] → ∃ full ∈ whole, indent ≤ gapWidth full

namespace Indented

theorem refl (whole : List (List Char)) : Indented whole 1 0 whole where
  toExcerpt := .refl whole
  blank := by
    intro i line full hline hfull hblank
    rw [Nat.sub_self, Nat.zero_add, hline] at hfull
    cases hfull
    exact hblank
  indent_le h := by
    obtain ⟨full, rest, rfl⟩ := List.exists_cons_of_ne_nil h
    exact ⟨full, by simp, Nat.zero_le _⟩

/-- A stretch of the lines. -/
theorem middle {before ms after : List (List Char)}
    (h : Indented whole number indent (before ++ ms ++ after)) :
    Indented whole (number + before.length) indent ms where
  toExcerpt := h.toExcerpt.middle
  blank := by
    intro i line full hline hfull hblank
    have hlt : i < ms.length := (List.getElem?_eq_some_iff.mp hline).1
    have hall : (before ++ ms ++ after)[before.length + i]? = some line := by
      rw [List.append_assoc, List.getElem?_append_right (Nat.le_add_right _ _),
        Nat.add_sub_cancel_left, List.getElem?_append_left hlt, hline]
    have hpos := h.number_pos
    have hindex : number + before.length - 1 + i = number - 1 + (before.length + i) := by omega
    exact h.blank hall (hindex ▸ hfull) hblank
  indent_le hms := h.indent_le (by simp [hms])

/-- A line that starts with white space and is not blank is not blank without it, either. -/
private theorem allBlank_drop {line : List Char} {n : Nat}
    (h : allBlank line = false → n ≤ (line.takeWhile isGap).length)
    (hdrop : allBlank (line.drop n) = true) : allBlank line = true := by
  by_contra hblank
  rw [Bool.not_eq_true] at hblank
  have hgap := take_isGap (h hblank)
  rw [← List.take_append_drop n line] at hblank
  rw [allBlank, List.all_append, Bool.and_eq_false_iff] at hblank
  rcases hblank with htake | hrest
  · rw [List.all_eq_false] at htake
    obtain ⟨ch, hch, hnot⟩ := htake
    exact hnot (isBlank_of_isGap (hgap ch hch))
  · exact absurd hdrop (by rw [allBlank, hrest]; exact Bool.false_ne_true)

/-- Columns that are common to the lines can be taken away as well, if a line holds anything. -/
theorem dedent (h : Indented whole number indent ls)
    (hls : ls ≠ [] → ∃ line ∈ ls, allBlank line = false) :
    Indented whole number (indent + commonIndent ls) (ls.map (List.drop (commonIndent ls))) where
  toExcerpt := h.toExcerpt.dedent
  blank := by
    intro i line full hline hfull hblank
    rw [List.getElem?_map, Option.map_eq_some_iff] at hline
    obtain ⟨outer, houter, rfl⟩ := hline
    refine h.blank houter hfull (allBlank_drop (fun hnot => ?_) hblank)
    exact commonIndent_le (List.mem_of_getElem? houter) hnot
  indent_le hne := by
    obtain ⟨line, hline, hnot⟩ := hls (by simpa using hne)
    obtain ⟨i, hi⟩ := List.mem_iff_getElem?.mp hline
    have hcommon := commonIndent_le hline hnot
    have hleft : allBlank (line.drop (commonIndent ls)) = false := by
      rw [← Bool.not_eq_true]
      intro hblank
      have hall := allBlank_drop (fun _ => hcommon) hblank
      rw [hnot] at hall
      cases hall
    have hmap : (ls.map (List.drop (commonIndent ls)))[i]? =
        some (line.drop (commonIndent ls)) := by
      rw [List.getElem?_map, hi]
      rfl
    obtain ⟨full, hfull, hdrop, hgap⟩ := h.toExcerpt.dedent.line hmap
    refine ⟨full, List.mem_of_getElem? hfull, ?_⟩
    -- the line is longer than what is taken away, since something is left of it
    have hlength : indent + commonIndent ls ≤ full.length := by
      by_contra hlt
      rw [List.drop_eq_nil_of_le (Nat.le_of_not_le hlt)] at hdrop
      rw [hdrop] at hleft
      cases hleft
    have htake : full.take (indent + commonIndent ls) <+: full.takeWhile isGap := by
      have hsplit := List.take_append_drop (indent + commonIndent ls) full
      refine ⟨(full.drop (indent + commonIndent ls)).takeWhile isGap, ?_⟩
      rw [← List.takeWhile_append_of_pos (hgap hleft), hsplit]
    have hle := htake.length_le
    rwa [List.length_take_of_le hlength] at hle

/-- The lines of a body, as they are read. -/
theorem body (h : Indented whole number indent ls) {c : BlockCall}
    (hc : .call c ∈ segments number ls) :
    Indented whole (c.number + 1) (indent + commonIndent c.body)
      (c.body.map (List.drop (commonIndent c.body))) := by
  obtain ⟨before, after, rfl, hcall⟩ := segments_standAt hc
  obtain ⟨-, hnumber, hbody, -, -⟩ := blockCall?_line hcall
  have hlast : c.body ≠ [] → ∃ line ∈ c.body, allBlank line = false := by
    intro hne
    refine ⟨c.body.getLast hne, List.getLast_mem hne, ?_⟩
    apply getLast?_indentedLines after
    rw [← hbody, List.getLast?_eq_some_getLast hne]
    rfl
  obtain ⟨tail, htail⟩ := indentedLines_prefix after
  rw [← hbody] at htail
  subst htail
  have hsplit : before ++ c.line :: (c.body ++ tail) = (before ++ [c.line]) ++ c.body ++ tail := by
    simp
  rw [hsplit] at h
  have hbelow := h.middle.dedent hlast
  rwa [List.length_append, List.length_singleton, ← Nat.add_assoc, ← hnumber] at hbelow

end Indented

/-- A search among indented lines is on the lines as they are, or within the indentation of another
line where its line is blank. -/
theorem Indented.staysIn (h : Indented whole number indent ls) (hwhole : ∀ line ∈ whole, '\n' ∉ line)
    (hls : ls ≠ [])
    (hW : ∀ {k x full}, whole[k]? = some full →
      (x ≤ full.length ∨ allBlank full = true ∧ ∃ other ∈ whole, x ≤ gapWidth other) →
        ∀ offset, W ⟨k + 1, x + 1, offset⟩) :
    (Cursor.ofText index (unlines ls) number indent).StaysIn W := by
  have hpos := h.number_pos
  refine (Cursor.ofText_within index number indent hls).staysIn (h.stretch hwhole hls).newline ?_
  intro j x line hline hx
  obtain ⟨full, hfull, hdrop, -⟩ := h.line hline
  have hnumber : number + j = number - 1 + j + 1 := by omega
  have hcolumn : x + 1 + indent = x + indent + 1 := by omega
  rw [hnumber, hcolumn]
  refine ⟨Nat.succ_pos _, hW hfull ?_⟩
  rw [hdrop, List.length_drop] at hx
  by_cases hlength : indent ≤ full.length
  · exact .inl (by omega)
  · -- nothing is left of the line
    have hnil : line = [] := by rw [hdrop, List.drop_eq_nil_of_le (Nat.le_of_not_le hlength)]
    obtain ⟨other, hother, hgap⟩ := h.indent_le hls
    refine .inr ⟨h.blank hline hfull (by rw [hnil]; rfl), other, hother, ?_⟩
    omega

/-- A search in what is left of a line is on this line. -/
theorem staysIn_single {full text : List Char} (hwhole : ∀ line ∈ whole, '\n' ∉ line)
    (hnumber : 0 < number) (hfull : whole[number - 1]? = some full)
    (htext : text <+: full.drop indent) (hne : text ≠ [])
    (hW : ∀ {x}, x ≤ full.length → ∀ offset, W ⟨number, x + 1, offset⟩) :
    (Cursor.ofText index text number indent).StaysIn W := by
  have hstretch := Stretch.single hwhole hnumber hfull htext
  refine (Cursor.ofText_within index number indent hstretch.nonempty).staysIn hstretch.newline ?_
  intro j x line hline hx
  cases j with
  | succ j => cases hline
  | zero =>
      cases hline
      have hlength := htext.length_le
      rw [List.length_drop] at hlength
      have htextLength : 0 < text.length := List.length_pos_iff.mpr hne
      rw [show x + 1 + indent = x + indent + 1 by omega]
      exact ⟨hnumber, hW (by omega)⟩

/-! ## Documents -/

/-- There is such a line in the text, and the character is not behind the end of the line, or of the
line with its label rewritten, or of the indentation of another line if the line is blank. -/
def NearLine (cs : List Char) (k x : Nat) : Prop :=
  ∃ line, (lines cs)[k]? = some line ∧
    (x ≤ line.length ∨
      (∃ marked, (markLabels false (lines cs))[k]? = some marked ∧
        markLabel? line = some marked ∧ x ≤ marked.length) ∨
      allBlank line = true ∧ ∃ other ∈ lines cs, x ≤ gapWidth other)

/-- A rewritten line has the indentation that it had. -/
theorem gapWidth_markLabel? {line marked : List Char} (h : markLabel? line = some marked) :
    gapWidth marked = gapWidth line := by
  obtain ⟨spaces, hspaces, ⟨more, rfl⟩, more', rfl⟩ := markLabel?_mark h
  have hgap : ∀ c ∈ spaces, isGap c = true := fun c hc => by rw [hspaces c hc]; rfl
  have hmark : isGap '>' = false := by decide
  rw [gapWidth, gapWidth, List.takeWhile_append_of_pos hgap, List.takeWhile_append_of_pos hgap,
    List.takeWhile_cons_of_neg (by simp [hmark]), List.takeWhile_cons_of_neg (by simp [hmark])]

/-- A place on a line as it is read. -/
theorem nearLine_of_read {cs full : List Char} {k x : Nat}
    (hfull : (markLabels false (lines cs))[k]? = some full)
    (hx : x ≤ full.length ∨
      allBlank full = true ∧ ∃ other ∈ markLabels false (lines cs), x ≤ gapWidth other) :
    NearLine cs k x := by
  obtain ⟨line, hline, hmarked⟩ := getElem?_markLabels hfull
  refine ⟨line, hline, ?_⟩
  rcases hx with hx | ⟨hblank, other, hother, hx⟩
  · rcases hmarked with rfl | hmarked
    · exact .inl hx
    · exact .inr (.inl ⟨full, hfull, hmarked, hx⟩)
  · rcases hmarked with rfl | hmarked
    · obtain ⟨i, hi⟩ := List.mem_iff_getElem?.mp hother
      obtain ⟨written, hwritten, rfl | hnew⟩ := getElem?_markLabels hi
      · exact .inr (.inr ⟨hblank, other, List.mem_of_getElem? hwritten, hx⟩)
      · rw [gapWidth_markLabel? hnew] at hx
        exact .inr (.inr ⟨hblank, written, List.mem_of_getElem? hwritten, hx⟩)
    · rw [(markLabel?_start hmarked).2.1] at hblank
      cases hblank

/-- Searches in the lines of a source are near its lines. -/
theorem places_nearLine (cs : List Char) :
    Places (.ofText cs) (Position.At (NearLine cs)) (Indented (markLabels false (lines cs))) := by
  have hwhole : ∀ line ∈ markLabels false (lines cs), '\n' ∉ line :=
    newline_not_mem_markLabels (fun _ => newline_not_mem_of_mem_lines) false
  have hread : ∀ {k x full}, (markLabels false (lines cs))[k]? = some full →
      (x ≤ full.length ∨
        allBlank full = true ∧ ∃ other ∈ markLabels false (lines cs), x ≤ gapWidth other) →
      ∀ offset, (Position.mk (k + 1) (x + 1) offset).At (NearLine cs) := fun hfull hx _ =>
    ⟨_, _, rfl, rfl, nearLine_of_read hfull hx⟩
  refine ⟨fun offset => ?_, ?_, ?_, fun h hs => h.body hs⟩
  · refine (LineIndex.position_at cs offset).mono ?_
    rintro k x ⟨line, hline, hx⟩
    exact ⟨line, hline, .inl hx⟩
  · intro number indent ls ms n h hs hne
    obtain ⟨before, after, rfl, rfl⟩ := segments_standAt hs
    exact h.middle.staysIn hwhole hne hread
  · intro number indent ls c h hs rest hne
    obtain ⟨hnumber, -, -, full, hfull, hline, -⟩ := HoldsCall.excerpt (.here hs) h.toExcerpt
    have hfront := trim_prefix rest
    have hrest : rest = full.drop (indent + c.head.stop) := by
      rw [← List.drop_drop, ← hline]
    rw [hrest, List.drop_drop, ← hrest] at hfront
    refine staysIn_single hwhole hnumber hfull hfront hne fun {x} hx offset => ?_
    have hposition := hread hfull (.inl hx) offset
    rwa [Nat.sub_add_cancel hnumber] at hposition

/-- **The known spans in a source without carriage returns are near its lines**, and so are those of
mistakes. -/
theorem read_at {source : String} (hreturn : '\r' ∉ source.toList) :
    (read source).content.OrderedIn (Position.At (NearLine source.toList)) := by
  rw [read_content hreturn]
  exact readParts_orderedIn (places_nearLine source.toList) (.refl _)

/-- **The known spans in the text of an argument are on its lines.** -/
theorem readLine_at (text : String) :
    SpansIn (Position.At (OnLine (lines text.toList))) (readLine text) := by
  have hwithin := Cursor.ofText_within (LineIndex.of text) 1 0 (lines_ne_nil text.toList)
  rw [unlines_lines] at hwithin
  refine (Locating.from_orderedIn (hwithin.staysIn ?_ ?_) (inlineNodes_follow _)).2.nodes
  · exact fun _ => newline_not_mem_of_mem_lines
  · intro j x line hline hx
    exact ⟨by omega, fun _ => ⟨j, x, Nat.add_comm 1 j, rfl, line, hline, hx⟩⟩

end Livedoc.Document
