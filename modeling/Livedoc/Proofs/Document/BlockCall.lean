import Livedoc.Proofs.Call.Head
import Livedoc.Proofs.Document.Excerpt
import Livedoc.Proofs.Document.Reading
import Livedoc.Proofs.Source.LineIndex
import Livedoc.Proofs.Tree.Walk
import Mathlib.Data.List.Forall2

/-!
# Where block calls stand in the source

The span of a block call is put together from the number of its line, the columns taken from
the start of the line by all the bodies around it, and the offsets within what is left of the
line.  It is exact at every depth (`read_blockCall`): what stands between its ends in the source
is the head that was read, and between the ends of the span of an argument stands the group
that the argument was read from.

Two facts carry this.  The line of a call is a line of the source without its first columns,
since rewriting labels leaves alone every line on which a call can start (`HoldsCall.line`).
And within a line, offsets in the source and offsets in the line differ by a constant
(`cuts_span`).
-/

namespace Livedoc.Document

open Livedoc.Call Livedoc.Source Livedoc.Text Livedoc.Tree Livedoc.Tree.Node

variable {source : String} {c : BlockCall} {number indent k : Nat} {ls : List (List Char)}

/-! ## Block calls at every depth -/

/-- A block call of lines or of one of the bodies in them, and how many columns were taken from
the start of its line in all. The first line has the given number, and `indent` columns were taken
before. -/
inductive HoldsCall : Nat → Nat → List (List Char) → BlockCall → Nat → Prop
  | here {number indent : Nat} {ls : List (List Char)} {c : BlockCall}
      (h : .call c ∈ segments number ls) : HoldsCall number indent ls c indent
  | inBody {number indent k : Nat} {ls : List (List Char)} {outer c : BlockCall}
      (houter : .call outer ∈ segments number ls)
      (h : HoldsCall (outer.number + 1) (indent + commonIndent outer.body)
        (outer.body.map (List.drop (commonIndent outer.body))) c k) :
      HoldsCall number indent ls c k

/-- A block call of a source, or of a body in it. -/
def HasBlockCall (source : String) (c : BlockCall) (k : Nat) : Prop :=
  HoldsCall 1 0 (lines (normalizeQuotes (normalizeBreaks source.toList))) c k

/-- The node that a block call is read as. -/
def blockCallNode (index : LineIndex) (c : BlockCall) (indent : Nat) : Node :=
  callNode index c indent (readCallLine index c indent).result
    (readParts index (c.number + 1) (indent + commonIndent c.body)
      (c.body.map (List.drop (commonIndent c.body)))).result

/-- The node of a segment is one of the nodes that the lines are read as. -/
private theorem blockCallNode_mem (index : LineIndex) (h : .call c ∈ segments number ls) :
    blockCallNode index c indent ∈ (readParts index number indent ls).result := by
  rw [readParts_eq]
  exact List.mem_flatMap.mpr ⟨_, List.mem_map_of_mem h, by simp [readSegment, blockCallNode]⟩

/-- What the lines of a body are read as stands below the call. -/
private theorem walkAll_below_sublist (index : LineIndex) (c : BlockCall) (indent : Nat) :
    (walkAll (readParts index (c.number + 1) (indent + commonIndent c.body)
      (c.body.map (List.drop (commonIndent c.body)))).result).Sublist
        (blockCallNode index c indent).walk := by
  rw [blockCallNode, callNode, walk, walkAll_append, ← List.append_assoc]
  exact (List.sublist_append_right _ _).cons _

/-- **Every block call has its node in the tree.** -/
theorem HoldsCall.node_mem (index : LineIndex) (h : HoldsCall number indent ls c k) :
    blockCallNode index c k ∈ walkAll (readParts index number indent ls).result := by
  induction h with
  | here h => exact mem_walkAll.mpr ⟨_, blockCallNode_mem index h, mem_walk_self _⟩
  | inBody houter _ ih =>
      exact mem_walkAll.mpr
        ⟨_, blockCallNode_mem index houter, (walkAll_below_sublist index _ _).subset ih⟩

/-- **The line of a block call is a line of the whole text without its first columns**, which
hold nothing but spaces and tabs. -/
theorem HoldsCall.excerpt {whole : List (List Char)} (h : HoldsCall number indent ls c k)
    (hls : Excerpt whole number indent ls) :
    0 < c.number ∧ headAt? 0 c.line = some c.head ∧ c.head.unterminated = false ∧
      ∃ full, whole[c.number - 1]? = some full ∧ c.line = full.drop k ∧
        ∀ ch ∈ full.take k, isGap ch = true := by
  induction h with
  | @here number indent ls c h =>
      obtain ⟨before, after, rfl, hcall⟩ := segments_standAt h
      obtain ⟨-, hnumber, -, hhead, hclosed⟩ := blockCall?_line hcall
      have hpos := hls.number_pos
      have hmem : (before ++ c.line :: after)[before.length]? = some c.line := by simp
      obtain ⟨full, hfull, hline, hgap⟩ := hls.line hmem
      obtain ⟨rest, hdot⟩ := headAt?_dot hhead
      have hindex : number - 1 + before.length = c.number - 1 := by omega
      refine ⟨by omega, hhead, hclosed, full, hindex ▸ hfull, hline, hgap ?_⟩
      rw [hdot]
      rfl
  | inBody houter _ ih => exact ih (hls.body houter)

/-- A line whose first character other than spaces and tabs is a dot is no rewritten one. -/
private theorem markLabel?_ne_some {line full rest : List Char}
    (hgap : ∀ ch ∈ full.take k, isGap ch = true) (hdot : full.drop k = '.' :: rest) :
    markLabel? line ≠ some full := by
  intro h
  obtain ⟨indent, hindent, ⟨more, hmore⟩, -⟩ := markLabel?_mark h
  have hspaces : ∀ ch ∈ indent, isGap ch = true := by
    intro ch hch
    rw [hindent ch hch]
    rfl
  -- the first character that is neither a space nor a tab would be both
  have hmark : full.dropWhile isGap = '>' :: more := by
    rw [hmore, List.dropWhile_append_of_pos hspaces]
    rfl
  have hcall : full.dropWhile isGap = '.' :: rest := by
    rw [← List.take_append_drop k full, List.dropWhile_append_of_pos hgap, hdot]
    rfl
  rw [hcall] at hmark
  cases hmark

/-- **The line of a block call is a line of the source without its first columns.** -/
theorem HasBlockCall.line (hreturn : '\r' ∉ source.toList) (h : HasBlockCall source c k) :
    0 < c.number ∧ headAt? 0 c.line = some c.head ∧ c.head.unterminated = false ∧
      ∃ full, (lines source.toList)[c.number - 1]? = some full ∧ c.line = full.drop k := by
  rw [HasBlockCall, normalizeBreaks_of_not_mem hreturn, lines_normalizeQuotes] at h
  obtain ⟨hnumber, hhead, hclosed, full, hfull, hline, hgap⟩ := h.excerpt (.refl _)
  obtain ⟨line, hsource, rfl | hmarked⟩ := getElem?_markLabels hfull
  · exact ⟨hnumber, hhead, hclosed, full, hsource, hline⟩
  · obtain ⟨rest, hdot⟩ := headAt?_dot hhead
    exact absurd hmarked (markLabel?_ne_some hgap (hline ▸ hdot))

/-! ## Spans -/

/-- Between the ends of the span stands the text, and line and column of each end are those that
the index has for its offset. -/
structure Cuts (source : String) (span : Span) (text : List Char) : Prop where
  start : (LineIndex.of source).position span.start.offset = span.start
  stop : (LineIndex.of source).position span.stop.offset = span.stop
  text : (source.toList.take span.stop.offset).drop span.start.offset = text

/-- **Places within the rest of a line tell where it stands in the source.** -/
theorem cuts_span (source : String) (k : Nat) {j first last : Nat} {full : List Char}
    (hfull : (lines source.toList)[j]? = some full) (hfirst : first ≤ last)
    (hlast : k + last ≤ full.length) :
    let start := (LineIndex.of source).lineStart ((j + 1 : Nat) : Int) + k
    let span := (LineIndex.of source).span ((start + first : Nat)) ((start + last : Nat))
    span.start.line = j + 1 ∧ span.start.column = k + first + 1 ∧
      Cuts source span (((full.drop k).take last).drop first) := by
  have hlt : j < (lines source.toList).length := (List.getElem?_eq_some_iff.mp hfull).1
  have hstart := LineIndex.position_lineOffset hfull (x := k + first) (by omega)
  have hstop := LineIndex.position_lineOffset hfull (x := k + last) hlast
  have hcut := LineIndex.slice_lineOffset hfull (k + first) hlast
  simp only [LineIndex.of, LineIndex.span, LineIndex.lineStart_ofText hlt, Nat.add_assoc,
    hstart, hstop]
  refine ⟨trivial, trivial, ⟨?_, ?_, ?_⟩⟩
  · exact hstart
  · exact hstop
  · rw [hcut, List.take_drop, List.drop_drop]

/-- The argument is what the group was read as, and stands where the group does: its span cuts out
the braces with the value, after the key and a colon if there is one. -/
structure ReadFrom (source : String) (g : Group) (a : Argument) : Prop where
  content : a.content = g.value
  written : ∃ text, g.WrittenAs text ∧ Cuts source a.span text

/-- The spans of the node of a block call and of its arguments are exact. -/
structure BlockCall.Placed (source : String) (c : BlockCall) (args : List Argument)
    (named : List NamedArgument) (span : Span) : Prop where
  /-- The span starts on the line of the call, ... -/
  number : span.start.line = c.number
  /-- ... which is a line of the source, after the columns that were taken from it. -/
  line : ∃ full, (lines source.toList)[span.start.line - 1]? = some full ∧
    full.drop (span.start.column - 1) = c.line
  /-- The head of the call is what the scanner reads at the start of this line. -/
  head : headAt? 0 c.line = some c.head
  /-- It starts with a dot and the name, ... -/
  dot : '.' :: c.head.name.toList <+: c.line.take c.head.stop
  /-- ... and ends with the last group, or with the name if there is none. -/
  stop : c.head.stop = (c.head.groups.getLast?.map (·.stop)).getD (c.head.name.toList.length + 1)
  /-- The span cuts out the head. -/
  span : Cuts source span (c.line.take c.head.stop)
  /-- The arguments are the groups without a key, in order. -/
  positional : List.Forall₂ (ReadFrom source) c.head.positional args
  /-- The named arguments are the groups with a key, in order. -/
  named : List.Forall₂ (fun g a => g.key = some a.name ∧ a.span = a.value.span ∧
    ReadFrom source g a.value) c.head.keyed named

/-- The spans of the node of a block call are those between its places in the line. -/
theorem BlockCall.placed {full : List Char} (hnumber : 0 < c.number)
    (hhead : headAt? 0 c.line = some c.head) (hclosed : c.head.unterminated = false)
    (hfull : (lines source.toList)[c.number - 1]? = some full) (hline : c.line = full.drop k)
    {args : List Argument} {named : List NamedArgument} {body : List Node} {span : Span}
    (hnode : blockCallNode (LineIndex.of source) c k = .call c.head.name args named body span) :
    c.Placed source args named span := by
  obtain ⟨hstart, -, hname, hstop, hgroups⟩ := headAt?_written hhead
  have hwritten := hgroups hclosed
  have hline' : (c.number - 1) + 1 = c.number := by omega
  have hcuts : ∀ {first last : Nat}, first ≤ last → last ≤ c.head.stop →
      let start := (LineIndex.of source).lineStart (c.number : Int) + k
      let span := (LineIndex.of source).span ((start + first : Nat)) ((start + last : Nat))
      span.start.line = c.number ∧ span.start.column = k + first + 1 ∧
        Cuts source span ((c.line.take last).drop first) := by
    intro first last hfirst hlast
    have hlength : k + last ≤ full.length := by
      rw [hline, List.length_drop] at hstop
      omega
    have hspan := cuts_span source k hfull hfirst hlength
    rwa [hline', ← hline] at hspan
  have hread : ∀ g ∈ c.head.groups, ReadFrom source g
      ⟨g.value, (LineIndex.of source).span
        (((LineIndex.of source).lineStart (c.number : Int) + k + g.start : Nat))
        (((LineIndex.of source).lineStart (c.number : Int) + k + g.stop : Nat))⟩ := by
    intro g hg
    have hspan := hcuts (hwritten.start_lt_stop hg).le (hwritten.bounds g hg).2
    exact ⟨rfl, _, hwritten.text g hg, hspan.2.2⟩
  obtain ⟨hspanLine, hspanColumn, hspan⟩ := hcuts (Nat.zero_le _) (Nat.le_refl c.head.stop)
  simp only [blockCallNode, callNode, Node.call.injEq, hstart, true_and] at hnode
  obtain ⟨rfl, rfl, -, rfl⟩ := hnode
  refine ⟨hspanLine, ⟨full, ?_, ?_⟩, hhead, ?_, hwritten.last_eq, hspan, ?_, ?_⟩
  · rw [hspanLine]
    exact hfull
  · rw [hspanColumn]
    exact hline.symm
  · exact dot_name_prefix_take hhead
  · rw [List.forall₂_map_right_iff, List.forall₂_same]
    exact fun g hg => hread g (List.mem_of_mem_filter hg)
  · rw [List.forall₂_map_right_iff, List.forall₂_same]
    intro g hg
    obtain ⟨key, hkey⟩ := Option.isSome_iff_exists.mp (List.mem_filter.mp hg).2
    exact ⟨by rw [hkey]; rfl, rfl, hread g (List.mem_of_mem_filter hg)⟩

/-- **The spans of block calls are exact at every depth.** Every block call of a source without
carriage returns has its node in the tree, and the spans of this node and of its arguments cut
out of the source what they were read from. -/
theorem read_blockCall (hreturn : '\r' ∉ source.toList) (h : HasBlockCall source c k) :
    ∃ args named body span,
      blockCallNode (LineIndex.of source) c k = .call c.head.name args named body span ∧
        .call c.head.name args named body span ∈ walkAll (read source).result.children ∧
          c.Placed source args named span := by
  obtain ⟨hnumber, hhead, hclosed, full, hfull, hline⟩ := h.line hreturn
  refine ⟨_, _, _, _, rfl, HoldsCall.node_mem (LineIndex.of source) h, ?_⟩
  exact BlockCall.placed hnumber hhead hclosed hfull hline rfl

/-- A label, and below it a call within the body of a call within the body of a call, indented by
tabs and spaces. -/
def nestedCallSource : String :=
  "> Note: a\n\n.row\n\t .column \x7ba\x7d\n\n\t\t .var \x7bx\x7d k:\x7b\\\x7b\x7d"

/-- The innermost call of this source. -/
def nestedCall : BlockCall where
  head :=
    { name := "var", start := 0, stop := 15, unterminated := false
      groups := [{ key := none, value := "x", start := 5, stop := 8 },
        { key := some "k", value := "\x7b", start := 9, stop := 15 }] }
  line := ".var \x7bx\x7d k:\x7b\\\x7b\x7d".toList
  number := 6
  body := []

private theorem nestedCall_held : HasBlockCall nestedCallSource nestedCall 3 := by
  let middle : BlockCall :=
    { head := ⟨"column", [⟨none, "a", 8, 11⟩], 0, 11, false⟩
      line := ".column \x7ba\x7d".toList, number := 4
      body := [[], " .var \x7bx\x7d k:\x7b\\\x7b\x7d".toList] }
  let outer : BlockCall :=
    { head := ⟨"row", [], 0, 4, false⟩, line := ".row".toList, number := 3
      body := ["\t .column \x7ba\x7d".toList, [], "\t\t .var \x7bx\x7d k:\x7b\\\x7b\x7d".toList] }
  have houter : .call outer ∈ segments 1
      (lines (normalizeQuotes (normalizeBreaks nestedCallSource.toList))) :=
    List.mem_of_getElem? (i := 1) rfl
  have hmiddle : .call middle ∈ segments (outer.number + 1)
      (outer.body.map (List.drop (commonIndent outer.body))) :=
    List.mem_of_getElem? (i := 0) rfl
  exact .inBody houter (.inBody hmiddle (.here (List.mem_of_getElem? (i := 1) rfl)))

/-- The call within two bodies starts on the sixth line, after three columns. -/
theorem read_blockCall_nested :
    '\r' ∉ nestedCallSource.toList ∧ HasBlockCall nestedCallSource nestedCall 3 ∧
      ∃ args named body,
        .call "var" args named body ⟨⟨6, 4, 34⟩, ⟨6, 19, 49⟩⟩ ∈
            walkAll (read nestedCallSource).result.children ∧
          nestedCall.Placed nestedCallSource args named ⟨⟨6, 4, 34⟩, ⟨6, 19, 49⟩⟩ := by
  have hreturn : '\r' ∉ nestedCallSource.toList := by decide
  obtain ⟨args, named, body, span, hnode, hmem, hplaced⟩ :=
    read_blockCall hreturn nestedCall_held
  have hspan : (blockCallNode (LineIndex.of nestedCallSource) nestedCall 3).span =
      ⟨⟨6, 4, 34⟩, ⟨6, 19, 49⟩⟩ := by decide +kernel
  rw [hnode] at hspan
  obtain rfl : span = _ := hspan
  exact ⟨hreturn, nestedCall_held, args, named, body, hmem, hplaced⟩

end Livedoc.Document
