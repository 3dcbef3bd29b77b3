import Livedoc.Proofs.Document.Spans

/-!
# The spans of what is read

A document is read by searches in stretches of its lines, and in what is left of the lines of its
block calls; the calls themselves have the positions of offsets.  If all positions that these
searches can come to have a property, and the positions of all offsets do (`Places`), then the
known spans of what is read are ordered and their ends have the property (`readParts_orderedIn`).

All of this holds for every source: lines and columns count from one however the lines end
(`read_orderedIn`).
-/

namespace Livedoc.Source.LineIndex

/-! ## Positions of offsets -/

private theorem le_locate_line (offset line start : Nat) (breaks : List Nat) :
    line ≤ (locate offset line start breaks).1 := by
  induction breaks generalizing line start with
  | nil => exact Nat.le_refl line
  | cons next rest ih =>
      rw [locate]
      split
      · exact Nat.le_of_succ_le (ih (line + 1) next)
      · exact Nat.le_refl line

/-- A later offset is located in a later line, or in the same one. -/
private theorem locate_mono {offset later : Nat} (h : offset ≤ later) (line start : Nat)
    (breaks : List Nat) :
    (locate offset line start breaks).1 < (locate later line start breaks).1 ∨
      locate offset line start breaks = locate later line start breaks := by
  induction breaks generalizing line start with
  | nil => exact .inr rfl
  | cons next rest ih =>
      rw [locate, locate]
      by_cases hnext : next ≤ offset
      · rw [if_pos hnext, if_pos (Nat.le_trans hnext h)]
        exact ih (line + 1) next
      · rw [if_neg hnext]
        split
        · exact .inl (le_locate_line later (line + 1) next rest)
        · exact .inr rfl

/-- **A later offset has a later position.** -/
theorem position_mono (index : LineIndex) {offset later : Int} (h : offset ≤ later) :
    index.position offset ≤ index.position later := by
  have hmin : min offset.toNat index.size ≤ min later.toNat index.size := by omega
  rcases locate_mono hmin 1 0 index.breaks with hline | heq
  · exact .inl hline
  · refine .inr ⟨congrArg Prod.fst heq, ?_⟩
    show min offset.toNat index.size - (locate _ 1 0 index.breaks).2 + 1 ≤
      min later.toNat index.size - (locate _ 1 0 index.breaks).2 + 1
    rw [heq]
    omega

theorem position_line_pos (index : LineIndex) (offset : Int) : 0 < (index.position offset).line :=
  le_locate_line _ 1 0 index.breaks

/-- The span between two offsets is ordered. -/
theorem span_orderedIn {index : LineIndex} {W : Position → Prop}
    (hW : ∀ offset, W (index.position offset)) {start stop : Int} (h : start ≤ stop) :
    (index.span start stop).OrderedIn W where
  isKnown := decide_eq_true (index.position_line_pos start)
  start := hW start
  stop := hW stop
  le := index.position_mono h

end Livedoc.Source.LineIndex

namespace Livedoc.Document

open Livedoc.Call Livedoc.Problem Livedoc.Source Livedoc.Text Livedoc.Tree Livedoc.Tree.Node

variable {W : Position → Prop} {index : LineIndex} {number indent : Nat} {ls : List (List Char)}

/-! ## Parts -/

/-- The known spans of nodes are ordered, and mistakes are at ordered spans. -/
structure Parsed.OrderedIn (W : Position → Prop) (p : Parsed (List Node)) : Prop where
  nodes : SpansIn W p.result
  mistakes : ∀ e ∈ p.mistakes, e.span.OrderedIn W

theorem Parsed.OrderedIn.nil : Parsed.OrderedIn W ⟨[], []⟩ := ⟨.nil, nofun⟩

theorem Parsed.OrderedIn.join {ps : List (Parsed (List Node))} (h : ∀ p ∈ ps, p.OrderedIn W) :
    (Parsed.join ps).OrderedIn W where
  nodes := by
    intro m hm
    obtain ⟨n, hn, hm⟩ := mem_walkAll.mp hm
    obtain ⟨p, hp, hn⟩ := List.mem_flatMap.mp hn
    exact (h p hp).nodes m (mem_walkAll.mpr ⟨n, hn, hm⟩)
  mistakes := by
    intro e he
    obtain ⟨p, hp, he⟩ := List.mem_flatMap.mp he
    exact (h p hp).mistakes e he

/-- What work gives that moves forward, from where it starts. -/
theorem Locating.from_orderedIn {work : Locating (List Node)} {c : Cursor} (hc : c.StaysIn W)
    (h : Advances W c.position (fun q ns => NodesFollow W c.position ns q) work) :
    NodesFollow W c.position (Locating.from work c).result (work { cursor := c }).2.cursor.position ∧
      (Locating.from work c).OrderedIn W := by
  obtain ⟨hsound, -, hnodes⟩ := h { cursor := c } ⟨hc, nofun⟩ rfl
  exact ⟨hnodes, hnodes.within, hsound.mistakes⟩

/-- Lines of which it is known where searches in them come to; so it is of the bodies in them. -/
structure Places (index : LineIndex) (W : Position → Prop)
    (E : Nat → Nat → List (List Char) → Prop) : Prop where
  offset : ∀ offset, W (index.position offset)
  markdown : ∀ {number indent ls ms n}, E number indent ls → .markdown ms n ∈ segments number ls →
    ms ≠ [] → (Cursor.ofText index (unlines ms) n indent).StaysIn W
  line : ∀ {number indent ls c}, E number indent ls → .call c ∈ segments number ls →
    let rest := c.line.drop c.head.stop
    trim rest ≠ [] → (Cursor.ofText index (trim rest) c.number
      (indent + c.head.stop + (rest.length - (trimStart rest).length))).StaysIn W
  body : ∀ {number indent ls c}, E number indent ls → .call c ∈ segments number ls →
    E (c.number + 1) (indent + commonIndent c.body) (c.body.map (List.drop (commonIndent c.body)))

theorem readMarkdown_orderedIn (ls : List (List Char)) (number indent : Nat)
    (h : ls ≠ [] → (Cursor.ofText index (unlines ls) number indent).StaysIn W) :
    (readMarkdown index ls number indent).OrderedIn W := by
  unfold readMarkdown
  dsimp only
  split
  · exact .nil
  · next hblank =>
      have hls : ls ≠ [] := by
        rintro rfl
        exact hblank rfl
      exact (Locating.from_orderedIn (h hls) (markdownNodes_follow _)).2

/-- The nodes after the head of a block call follow each other, from one position to another. -/
theorem readCallLine_orderedIn (c : BlockCall) (indent : Nat)
    (h : let rest := c.line.drop c.head.stop
      trim rest ≠ [] → (Cursor.ofText index (trim rest) c.number
        (indent + c.head.stop + (rest.length - (trimStart rest).length))).StaysIn W) :
    (∃ p q, NodesFollow W p (readCallLine index c indent).result q) ∧
      (readCallLine index c indent).OrderedIn W := by
  unfold readCallLine
  dsimp only
  split
  · exact ⟨⟨default, default, .nil le_rfl⟩, .nil⟩
  · next hempty =>
      have htext : trim (c.line.drop c.head.stop) ≠ [] := by simpa using hempty
      obtain ⟨hnodes, hordered⟩ := Locating.from_orderedIn (h htext) (inlineNodes_follow _)
      exact ⟨⟨_, _, hnodes⟩, hordered⟩

/-- The node of a block call has its span and its arguments at the places of its groups. -/
theorem callNode_spansIn (hoffset : ∀ offset, W (index.position offset)) {c : BlockCall}
    (hhead : headAt? 0 c.line = some c.head) (hclosed : c.head.unterminated = false)
    (indent : Nat) {onLine below : List Node} {p q : Position} (honLine : NodesFollow W p onLine q)
    (hbelow : SpansIn W below) : SpansIn W [callNode index c indent onLine below] := by
  obtain ⟨hstart, -, -, -, hgroups⟩ := headAt?_written hhead
  have hwritten := hgroups hclosed
  have hplace : ∀ {first last : Nat}, first ≤ last →
      (index.span ((index.lineStart c.number + indent + first : Nat))
        ((index.lineStart c.number + indent + last : Nat))).OrderedIn W := by
    intro first last hle
    exact LineIndex.span_orderedIn hoffset (by omega)
  have hgroup : ∀ g ∈ c.head.groups, g.start ≤ g.stop := fun g hg => (hwritten.start_lt_stop hg).le
  unfold callNode
  refine .call (hplace ?_) ?_ ?_ (spansIn_append.mpr ⟨?_, hbelow⟩)
  · rw [hstart]
    exact Nat.zero_le _
  · intro a ha
    obtain ⟨g, hg, rfl⟩ := List.mem_map.mp ha
    exact hplace (hgroup g ((List.mem_filter.mp hg).1))
  · intro a ha
    obtain ⟨g, hg, rfl⟩ := List.mem_map.mp ha
    have hspan := hplace (hgroup g ((List.mem_filter.mp hg).1))
    exact ⟨hspan, hspan⟩
  · split
    · exact honLine.within
    · exact (spansIn_paragraph (follow_coverNodes honLine).orderedIn).mpr honLine.within

/-- **The known spans of what is read from lines are ordered**, at every depth, and so are the
spans of mistakes. -/
theorem readParts_orderedIn {E : Nat → Nat → List (List Char) → Prop} (hplaces : Places index W E)
    (hls : E number indent ls) : (readParts index number indent ls).OrderedIn W := by
  -- By induction on the number of lines: the body of a call has fewer.
  induction hlength : ls.length using Nat.strong_induction_on generalizing number indent ls with
  | _ n ih =>
    subst hlength
    rw [readParts_eq]
    refine .join fun p hp => ?_
    obtain ⟨s, hs, rfl⟩ := List.mem_map.mp hp
    cases s with
    | markdown ms number' => exact readMarkdown_orderedIn ms number' indent (hplaces.markdown hls hs)
    | call c =>
        have hshort : (c.body.map (List.drop (commonIndent c.body))).length < ls.length := by
          rw [List.length_map]
          exact body_length_lt hs
        have hbelow := ih _ hshort (hplaces.body hls hs) rfl
        obtain ⟨⟨p, q, hnodes⟩, honLine⟩ := readCallLine_orderedIn c indent (hplaces.line hls hs)
        obtain ⟨before, after, -, hcall⟩ := segments_standAt hs
        obtain ⟨-, -, -, hhead, hclosed⟩ := blockCall?_line hcall
        refine ⟨callNode_spansIn hplaces.offset hhead hclosed indent hnodes hbelow.nodes, ?_⟩
        intro e he
        rcases List.mem_append.mp he with he | he
        · exact honLine.mistakes e he
        · exact hbelow.mistakes e he

/-! ## All sources -/

/-- Lines and columns count from one. -/
def FromOne (p : Position) : Prop := 1 ≤ p.line ∧ 1 ≤ p.column

theorem fromOne_position (index : LineIndex) (offset : Int) : FromOne (index.position offset) :=
  ⟨index.position_line_pos offset, Nat.succ_pos _⟩

/-- A search in a text whose first line has a number from one on. -/
theorem Cursor.ofText_fromOne (index : LineIndex) (cs : List Char) (indent : Nat)
    (hnumber : 1 ≤ number) : (Cursor.ofText index cs number indent).StaysIn FromOne := by
  refine .of_next (I := fun c => 1 ≤ c.line ∧ 1 ≤ c.column) ?_ ?_ ⟨hnumber, Nat.le_refl 1⟩
  · rintro c ⟨hline, hcolumn⟩
    unfold next
    split
    · exact ⟨hline, hcolumn⟩
    · exact ⟨Nat.succ_pos _, Nat.le_refl 1⟩
    · exact ⟨hline, Nat.succ_pos _⟩
  · rintro c ⟨hline, hcolumn⟩
    exact ⟨hline, hline, Nat.le_trans hcolumn (Nat.le_add_right _ _)⟩

/-- Lines that are numbered from one on are numbered so in their segments, too. -/
theorem places_fromOne (index : LineIndex) :
    Places index FromOne fun number _ _ => 1 ≤ number where
  offset := fromOne_position index
  markdown := by
    intro number indent ls ms n hnumber hs _
    obtain ⟨before, after, -, rfl⟩ := segments_standAt hs
    exact Cursor.ofText_fromOne index _ indent (Nat.le_trans hnumber (Nat.le_add_right _ _))
  line := by
    intro number indent ls c hnumber hs _ _
    obtain ⟨before, after, -, hcall⟩ := segments_standAt hs
    obtain ⟨-, hline, -⟩ := blockCall?_line hcall
    refine Cursor.ofText_fromOne index _ _ ?_
    rw [hline]
    exact Nat.le_trans hnumber (Nat.le_add_right _ _)
  body _ _ := Nat.succ_pos _

/-- **All known spans in a document are ordered**, and so are the spans of mistakes; lines and
columns count from one. -/
theorem read_orderedIn (source : String) :
    (read source).content.OrderedIn FromOne ∧ (read source).result.span.OrderedIn FromOne :=
  ⟨readParts_orderedIn (places_fromOne _) (Nat.le_refl 1),
    LineIndex.span_orderedIn (fromOne_position _) (by omega)⟩

/-- All known spans in the text of an argument are ordered. -/
theorem readLine_orderedIn (text : String) : SpansIn FromOne (readLine text) :=
  (Locating.from_orderedIn (Cursor.ofText_fromOne _ _ 0 (Nat.le_refl 1))
    (inlineNodes_follow _)).2.nodes

end Livedoc.Document
