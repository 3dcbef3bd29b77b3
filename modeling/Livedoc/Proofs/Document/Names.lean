import Livedoc.Document.Content
import Livedoc.Proofs.Markdown.Heads
import Livedoc.Proofs.Markdown.Texts
import Livedoc.Proofs.Tree.Walk

/-!
# Names within lines

The dynamic nodes of a stretch of Markdown are the calls and references that stand within its
lines; Markdown itself makes none.  Such a node is made of a call head that was read off a text
with no names but those of the stretch, and of the span that was found for it.  What is found
out about one head while the search is in some state (`FindsHeads`) therefore holds of all dynamic
nodes, if each step of the search keeps the state in order (`markdownNodes_allDynamic`).
-/

namespace Livedoc.Tree.Node

open Livedoc.Call Livedoc.Source Livedoc.Text

variable {D : Node → Prop} {ns ms : List Node}

/-- Whether all dynamic nodes among nodes and below them have the property. -/
def AllDynamic (D : Node → Prop) (ns : List Node) : Prop :=
  ∀ m ∈ walkAll ns, m.isDynamic = true → D m

theorem AllDynamic.nil : AllDynamic D [] := nofun

theorem allDynamic_append : AllDynamic D (ns ++ ms) ↔ AllDynamic D ns ∧ AllDynamic D ms := by
  rw [AllDynamic, walkAll_append, List.forall_mem_append]
  rfl

theorem allDynamic_iff : AllDynamic D ns ↔ ∀ n ∈ ns, AllDynamic D [n] := by
  induction ns with
  | nil => exact ⟨fun _ => nofun, fun _ => AllDynamic.nil⟩
  | cons n rest ih => rw [← List.singleton_append, allDynamic_append, ih, List.forall_mem_append,
      List.forall_mem_singleton]

theorem allDynamic_cons {n : Node} :
    AllDynamic D (n :: ns) ↔ AllDynamic D [n] ∧ AllDynamic D ns := by
  rw [← List.singleton_append, allDynamic_append]

theorem AllDynamic.mono {E : Node → Prop} (h : AllDynamic D ns) (hDE : ∀ m, D m → E m) :
    AllDynamic E ns := fun m hm hdynamic => hDE m (h m hm hdynamic)

/-- A node of another kind with nodes below it. -/
theorem AllDynamic.container {n : Node} (hwalk : n.walk = n :: walkAll ns)
    (hn : n.isDynamic = false) (h : AllDynamic D ns) : AllDynamic D [n] := by
  intro m hm hdynamic
  rw [walkAll, walkAll, List.append_nil, hwalk, List.mem_cons] at hm
  rcases hm with rfl | hm
  · rw [hn] at hdynamic
    cases hdynamic
  · exact h m hm hdynamic

theorem AllDynamic.leaf {n : Node} (hleaf : n.isLeaf = true) (hn : n.isDynamic = false) :
    AllDynamic D [n] :=
  .container (by rw [walk_of_isLeaf hleaf, walkAll]) hn AllDynamic.nil

theorem AllDynamic.table {headers : List (List Node)} {rows : List (List (List Node))}
    (alignment : List (Option String)) (s : Span) (hheaders : AllDynamic D headers.flatten)
    (hrows : AllDynamic D rows.flatten.flatten) :
    AllDynamic D [.table headers rows alignment s] := by
  refine .container ?_ rfl (allDynamic_append.mpr ⟨hheaders, hrows⟩)
  rw [walk, walkCells_eq, walkRows_eq, walkAll_append]

/-- What stands below a node of any kind. -/
theorem AllDynamic.children {n : Node} (hwalk : n.walk = n :: walkAll ns)
    (h : AllDynamic D [n]) : AllDynamic D ns := by
  intro m hm
  refine h m ?_
  rw [walkAll, walkAll, List.append_nil, hwalk]
  exact List.mem_cons_of_mem n hm

/-- The dynamic nodes of a paragraph are those in it. -/
theorem allDynamic_paragraph {s : Span} : AllDynamic D [.paragraph ns s] ↔ AllDynamic D ns :=
  ⟨.children (by rw [walk]), .container (by rw [walk]) rfl⟩

theorem allDynamic_flatten {cells : List (List Node)} :
    AllDynamic D cells.flatten ↔ ∀ cell ∈ cells, AllDynamic D cell := by
  induction cells with
  | nil => exact ⟨fun _ => nofun, fun _ => .nil⟩
  | cons cell rest ih => rw [List.flatten_cons, allDynamic_append, ih, List.forall_mem_cons]

/-- The dynamic nodes of a call are the call and those of its body. -/
theorem AllDynamic.call {name : String} {args : List Argument} {named : List NamedArgument}
    {body : List Node} {s : Span} (hself : D (.call name args named body s))
    (hbody : AllDynamic D body) : AllDynamic D [.call name args named body s] := by
  intro m hm hdynamic
  rw [walkAll, walkAll, List.append_nil, walk, List.mem_cons, List.mem_append, List.mem_map] at hm
  rcases hm with rfl | ⟨a, -, rfl⟩ | hm
  · exact hself
  · cases hdynamic
  · exact hbody m hm hdynamic

/-! ## Heads -/

/-- A reference, or a call as it stands within a line, whose name and span have the property. -/
def InLine (P : String → Span → Prop) : Node → Prop
  | reference name span => P name span
  | call name args named body span =>
    P name span ∧ body = [] ∧ (∀ a ∈ args, a.span = span) ∧
      ∀ a ∈ named, a.span = span ∧ a.value.span = span
  | _ => False

/-- Whether a node is a call or a reference. -/
def isName : Node → Bool
  | call .. | reference .. => true
  | _ => false

theorem InLine.isName {P : String → Span → Prop} {n : Node} (h : n.InLine P) :
    n.isName = true := by
  cases n with
  | call | reference => rfl
  | _ => cases h

/-- The texts of the arguments of a call. -/
def argumentTexts : Node → List String
  | call _ args named _ _ => args.map (·.content) ++ named.map (·.value.content)
  | _ => []

/-- The name of a call or a reference. -/
def name? : Node → Option String
  | call name .. | reference name _ => some name
  | _ => none

/-- The name of a call or a reference has the characters of a name and stands in the source after a
dot, and its arguments have no names but those of the source. -/
structure Spelt (source : List Char) (n : Node) : Prop where
  isNameChar : ∀ name ∈ n.name?, ∀ c ∈ name.toList, isNameChar c = true
  name : ∀ name ∈ n.name?, '.' :: name.toList <:+: source
  argument : ∀ text ∈ n.argumentTexts, DrawnFrom source text.toList

theorem Spelt.trans {source cs : List Char} {n : Node} (hcs : DrawnFrom source cs)
    (h : n.Spelt cs) : n.Spelt source where
  isNameChar := h.isNameChar
  name name hname := hcs _ (h.isNameChar name hname) (h.name name hname)
  argument text htext := hcs.trans (h.argument text htext)

/-- The node of a complete head, found at a place within a line. -/
def ofHead (head : Head) (span : Span) : Node :=
  if head.isCall then
    .call head.name (head.positional.map fun g => ⟨g.value, span⟩)
      (head.keyed.map fun g => ⟨g.key.getD "", ⟨g.value, span⟩, span⟩) [] span
  else .reference head.name span

theorem allDynamic_ofHead {head : Head} {span : Span} (h : D (ofHead head span)) :
    AllDynamic D [ofHead head span] := by
  unfold ofHead at h ⊢
  split
  · next hcall =>
      rw [if_pos hcall] at h
      exact .call h .nil
  · next hbare =>
      rw [if_neg hbare] at h
      intro m hm _
      rw [walkAll, walkAll, List.append_nil, walk_of_isLeaf rfl, List.mem_singleton] at hm
      exact hm ▸ h

theorem inLine_ofHead {P : String → Span → Prop} {head : Head} {span : Span}
    (h : P head.name span) : (ofHead head span).InLine P := by
  unfold ofHead
  split
  · refine ⟨h, rfl, ?_, ?_⟩
    · intro a ha
      obtain ⟨g, -, rfl⟩ := List.mem_map.mp ha
      rfl
    · intro a ha
      obtain ⟨g, -, rfl⟩ := List.mem_map.mp ha
      exact ⟨rfl, rfl⟩
  · exact h

/-- A call or a reference with the name of a head, and no arguments but the values of its groups. -/
structure HasHead (head : Head) (n : Node) : Prop where
  name : n.name? = some head.name
  argument : ∀ text ∈ n.argumentTexts, ∃ g ∈ head.groups, g.value = text

theorem hasHead_call {head : Head} {args : List Argument} {named : List NamedArgument}
    (hargs : args.map (·.content) = head.positional.map (·.value))
    (hnamed : named.map (·.value.content) = head.keyed.map (·.value)) (body : List Node)
    (span : Span) : (call head.name args named body span).HasHead head where
  name := rfl
  argument text htext := by
    rw [argumentTexts, hargs, hnamed, ← List.map_append] at htext
    obtain ⟨g, hg, rfl⟩ := List.mem_map.mp htext
    refine ⟨g, ?_, rfl⟩
    rcases List.mem_append.mp hg with hg | hg <;> exact List.mem_of_mem_filter hg

theorem hasHead_ofHead (head : Head) (span : Span) : (ofHead head span).HasHead head := by
  unfold ofHead
  split
  · refine hasHead_call ?_ ?_ [] span
    · rw [List.map_map]
      rfl
    · rw [List.map_map]
      rfl
  · exact ⟨rfl, nofun⟩

variable {head : Head} {cs : List Char} {n : Node}

/-- The names of a head that was read are those of the text. -/
theorem HasHead.spelt {source : List Char} (h : n.HasHead head) (hcs : DrawnFrom source cs)
    (hhead : headAt? 0 cs = some head) (hclosed : head.unterminated = false) : n.Spelt source where
  isNameChar name hname c hc := by
    rw [h.name, Option.mem_some_iff] at hname
    exact isNameChar_of_headAt? hhead (hname ▸ hc)
  name name hname := by
    rw [h.name, Option.mem_some_iff] at hname
    exact hname ▸ hcs.name_isInfix hhead
  argument text htext := by
    obtain ⟨g, hg, rfl⟩ := h.argument text htext
    exact hcs.trans (headAt?_drawn hhead hclosed g hg)

/-- The texts of the arguments have at most so many lines. -/
def Fits (k : Nat) (n : Node) : Prop := ∀ text ∈ n.argumentTexts, (lines text.toList).length ≤ k

theorem Fits.mono {k m : Nat} (h : n.Fits k) (hle : k ≤ m) : n.Fits m :=
  fun text htext => Nat.le_trans (h text htext) hle

/-- The arguments of a head that was read have no more lines than the text. -/
theorem HasHead.fits (h : n.HasHead head) {k : Nat} (hcs : cs.count '\n' < k)
    (hhead : headAt? 0 cs = some head) (hclosed : head.unterminated = false) : n.Fits k := by
  intro text htext
  obtain ⟨g, hg, rfl⟩ := h.argument text htext
  have hvalue := count_newline_value_le hhead hclosed g hg
  rw [length_lines]
  omega

end Livedoc.Tree.Node

namespace Livedoc.Document

open Livedoc.Call Livedoc.Source Livedoc.Text Livedoc.Tree Livedoc.Tree.Node Livedoc.Markdown

variable {D : Node → Prop}

/-! ## Joining texts and taking types off quotations -/

private theorem joinAfter_allDynamic (before : Node) (ns : List Node)
    (h : AllDynamic D (before :: ns)) : AllDynamic D (joinAfter before ns) := by
  fun_induction joinAfter before ns with
  | case1 => exact h
  | case2 rest a s b t ih =>
      have hrest := (allDynamic_cons.mp (allDynamic_cons.mp h).2).2
      exact ih (allDynamic_cons.mpr ⟨.leaf rfl rfl, hrest⟩)
  | case3 before next rest _ ih =>
      rw [allDynamic_cons] at h ⊢
      exact ⟨h.1, ih h.2⟩

theorem joinTextNodes_allDynamic {ns : List Node} (h : AllDynamic D ns) :
    AllDynamic D (joinTextNodes ns) := by
  cases ns with
  | nil => exact h
  | cons n rest => exact joinAfter_allDynamic n rest h

theorem takeQuoteType_allDynamic {ns : List Node} (h : AllDynamic D ns) :
    AllDynamic D (takeQuoteType ns).1 := by
  unfold takeQuoteType
  split
  · next content span more s rest =>
      rw [allDynamic_cons, allDynamic_paragraph, allDynamic_cons] at h
      obtain ⟨⟨htext, hmore⟩, hrest⟩ := h
      split
      · have hparagraph := allDynamic_cons.mpr ⟨htext, hmore⟩
        exact allDynamic_cons.mpr ⟨allDynamic_paragraph.mpr hparagraph, hrest⟩
      · next label after _ =>
          have htyped : ∀ ms, AllDynamic D ms →
              AllDynamic D (if ms.isEmpty then rest else .paragraph ms s :: rest) := by
            intro ms hms
            split
            · exact hrest
            · exact allDynamic_cons.mpr ⟨allDynamic_paragraph.mpr hms, hrest⟩
          refine htyped _ ?_
          have hstripped : AllDynamic D (if (trimStart after).isEmpty then more
              else .text (String.ofList (trimStart after)) span :: more) := by
            split
            · exact hmore
            · exact allDynamic_cons.mpr ⟨.leaf rfl rfl, hmore⟩
          split
          · next content span others hothers =>
              rw [hothers, allDynamic_cons] at hstripped
              dsimp only
              split
              · exact hstripped.2
              · exact allDynamic_cons.mpr ⟨.leaf rfl rfl, hstripped.2⟩
          · exact hstripped
  · exact h

/-! ## Searches -/

/-- Work that keeps a property of the search, and gives something with another one. -/
def Finds {α : Type} (I : Search → Prop) (P : α → Prop) (w : Locating α) : Prop :=
  ∀ s, I s → P (w s).1 ∧ I (w s).2

namespace Finds

variable {α β : Type} {I : Search → Prop} {P : α → Prop} {Q : β → Prop}

theorem pure {a : α} (h : P a) : Finds I P (Pure.pure a) := fun _ hs => ⟨h, hs⟩

theorem bind {w : Locating α} {f : α → Locating β} (hw : Finds I P w)
    (hf : ∀ a, P a → Finds I Q (f a)) : Finds I Q (w >>= f) := by
  intro s hs
  obtain ⟨hP, hI⟩ := hw s hs
  exact hf _ hP _ hI

/-- One search after the other, their nodes put together. -/
theorem append {v w : Locating (List Node)} (hv : Finds I (AllDynamic D) v)
    (hw : Finds I (AllDynamic D) w) :
    Finds I (AllDynamic D) (do let ns ← v; let ms ← w; return ns ++ ms) :=
  bind hv fun _ hns => bind hw fun _ hms => pure (allDynamic_append.mpr ⟨hns, hms⟩)

end Finds

/-- Looking for a text and noting a mistake keep a property of the search, and where a complete
head is looked for, the node that it becomes has a property. -/
structure FindsHeads (I : Search → Prop) (P : List Char → Prop) (D : Node → Prop) : Prop where
  part : ∀ {cs ds}, P cs → ds <:+: cs → P ds
  locate : ∀ part, Finds I (fun _ => True) (Document.locate part)
  report : ∀ message span, Finds I (fun _ => True) (Document.report message span)
  head : ∀ {rest head}, P rest → headAt? 0 rest = some head →
    head.unterminated = false →
      Finds I (fun span => D (ofHead head span)) (Document.locate (rest.take head.stop))

/-- What the nodes of complete heads have wherever they are found. -/
theorem FindsHeads.everywhere {P : List Char → Prop}
    (hpart : ∀ {cs ds}, P cs → ds <:+: cs → P ds)
    (hD : ∀ {rest head}, P rest → headAt? 0 rest = some head → head.unterminated = false →
      ∀ span, D (ofHead head span)) : FindsHeads (fun _ => True) P D where
  part := hpart
  locate _ _ _ := ⟨trivial, trivial⟩
  report _ _ _ _ := ⟨trivial, trivial⟩
  head hrest hhead hclosed _ _ := ⟨hD hrest hhead hclosed _, trivial⟩

/-- What they have there besides. -/
theorem FindsHeads.and {I : Search → Prop} {P : List Char → Prop} {E : Node → Prop}
    (h : FindsHeads I P D) (hE : ∀ {rest head}, P rest → headAt? 0 rest = some head →
      head.unterminated = false → ∀ span, E (ofHead head span)) :
    FindsHeads I P fun n => D n ∧ E n where
  part := h.part
  locate := h.locate
  report := h.report
  head hrest hhead hclosed s hs :=
    have ⟨hD, hI⟩ := h.head hrest hhead hclosed s hs
    ⟨⟨hD, hE hrest hhead hclosed _⟩, hI⟩

/-- Names and arguments have no names but those of the source. -/
theorem FindsHeads.spelt {I : Search → Prop} {source : List Char}
    (h : FindsHeads I (DrawnFrom source) D) :
    FindsHeads I (DrawnFrom source) fun n => D n ∧ n.Spelt source :=
  h.and fun hrest hhead hclosed _ => (hasHead_ofHead _ _).spelt hrest hhead hclosed

/-! ## Markup within a line -/

variable {I : Search → Prop} {P : List Char → Prop}

/-- A leaf over the place of a text. -/
private theorem FindsHeads.leaf (h : FindsHeads I P D) (part : List Char) {f : Span → Node}
    (hf : ∀ s, (f s).isLeaf = true ∧ (f s).isDynamic = false) :
    Finds I (fun n => AllDynamic D [n]) (do return f (← Document.locate part)) :=
  .bind (h.locate part) fun s _ => .pure (.leaf (hf s).1 (hf s).2)

private theorem headNode_allDynamic (h : FindsHeads I P D) {rest : List Char} {head : Head}
    (hrest : P rest) (hhead : headAt? 0 rest = some head) :
    Finds I (fun n => AllDynamic D [n]) (headNode head (rest.take head.stop)) := by
  unfold headNode Head.problem?
  cases hclosed : head.unterminated with
  | true =>
      refine .bind (h.locate _) fun span _ => ?_
      exact .bind (h.report _ span) fun _ _ => .pure (.leaf rfl rfl)
  | false =>
      refine .bind (h.head hrest hhead hclosed) fun span hspan => ?_
      have hnode := allDynamic_ofHead hspan
      unfold ofHead at hnode
      cases hcall : head.isCall with
      | false =>
          rw [hcall] at hnode
          exact .pure hnode
      | true =>
          rw [hcall] at hnode
          exact .pure hnode

mutual

/-- The dynamic nodes of a piece of markup are its heads. -/
theorem inlineNode_allDynamic (h : FindsHeads I P D) :
    ∀ i : Inline, i.Scanned P → Finds I (fun n => AllDynamic D [n]) (inlineNode i)
  | .text raw, _ | .escaped raw, _ | .code raw, _ | .math raw _, _ | .html raw, _ =>
      h.leaf raw fun _ => ⟨rfl, rfl⟩
  | .softBreak, _ | .hardBreak, _ => h.leaf ['\n'] fun _ => ⟨rfl, rfl⟩
  | .sizedImage i, _ => h.leaf i.raw fun _ => ⟨rfl, rfl⟩
  | .call head raw, hscanned => by
      rw [Inline.Scanned] at hscanned
      obtain ⟨rest, hrest, hhead, rfl⟩ := hscanned
      exact headNode_allDynamic h hrest hhead
  | .emphasis strong children, hscanned => by
      rw [Inline.Scanned] at hscanned
      refine .bind (inlineNodeList_allDynamic h children hscanned) fun ns hns => .pure ?_
      exact .container (by rw [walk]) rfl (joinTextNodes_allDynamic hns)
  | .link url title children, hscanned => by
      rw [Inline.Scanned] at hscanned
      refine .bind (inlineNodeList_allDynamic h children hscanned) fun ns hns => .pure ?_
      exact .container (by rw [walk]) rfl (joinTextNodes_allDynamic hns)
  | .image url title children, hscanned => by
      rw [Inline.Scanned] at hscanned
      refine .bind (inlineNodeList_allDynamic h children hscanned) fun ns _ => ?_
      exact .pure (.leaf rfl rfl)

/-- The dynamic nodes of several pieces are their heads. -/
theorem inlineNodeList_allDynamic (h : FindsHeads I P D) :
    ∀ is : List Inline, Inline.AllScanned P is →
      Finds I (AllDynamic D) (inlineNodeList is)
  | [], _ => .pure .nil
  | i :: rest, hscanned => by
      rw [Inline.AllScanned] at hscanned
      refine .bind (inlineNode_allDynamic h i hscanned.1) fun n hn => ?_
      refine .bind (inlineNodeList_allDynamic h rest hscanned.2) fun ns hns => .pure ?_
      exact allDynamic_cons.mpr ⟨hn, hns⟩

end

/-- **The dynamic nodes of a line are its call heads.** -/
theorem inlineNodes_allDynamic (h : FindsHeads I P D) (refs : References) {cs : List Char}
    (hcs : P cs) : Finds I (AllDynamic D) (inlineNodes (readInline refs cs)) := by
  have hscanned := Inline.allScanned_iff.mpr
    (readInline_scanned (fun hcs hds => h.part hcs hds.isInfix) refs hcs)
  refine .bind (inlineNodeList_allDynamic h _ hscanned) fun ns hns => ?_
  exact .pure (joinTextNodes_allDynamic hns)

theorem textNodes_allDynamic (h : FindsHeads I P D) (refs : References) {cs : List Char}
    (hcs : Ended P cs) : Finds I (AllDynamic D) (textNodes refs cs) :=
  inlineNodes_allDynamic h refs (hcs.trimWhile h.part (by decide))

/-! ## Blocks -/

private theorem cellNodes_allDynamic (h : FindsHeads I P D) (refs : References)
    {cells : List (List Char)} (hcells : ∀ cell ∈ cells, P cell) :
    Finds I (fun nss => AllDynamic D nss.flatten) (cellNodes refs cells) := by
  unfold cellNodes
  induction cells with
  | nil => exact .pure .nil
  | cons cell rest ih =>
      rw [List.forall_mem_cons] at hcells
      rw [List.mapM_cons]
      refine .bind (textNodes_allDynamic h refs (.of_holds hcells.1)) fun ns hns => ?_
      refine .bind (ih hcells.2) fun nss hnss => .pure ?_
      exact allDynamic_append.mpr ⟨hns, hnss⟩

private theorem rowNodes_allDynamic (h : FindsHeads I P D) (refs : References)
    {rows : List (List (List Char))}
    (hrows : ∀ row ∈ rows, ∀ cell ∈ row, P cell) :
    Finds I (fun nsss => AllDynamic D nsss.flatten.flatten) (rows.mapM (cellNodes refs)) := by
  induction rows with
  | nil => exact .pure .nil
  | cons cells rest ih =>
      rw [List.forall_mem_cons] at hrows
      rw [List.mapM_cons]
      refine .bind (cellNodes_allDynamic h refs hrows.1) fun nss hnss => ?_
      refine .bind (ih hrows.2) fun nsss hnsss => .pure ?_
      rw [List.flatten_cons, List.flatten_append]
      exact allDynamic_append.mpr ⟨hnss, hnsss⟩

mutual

/-- The dynamic nodes of a block are the heads within its lines. -/
theorem blockNodes_allDynamic (h : FindsHeads I P D) (refs : References) :
    ∀ b : Block, b.Holds P → Finds I (AllDynamic D) (blockNodes refs b)
  | .blank, _ => .pure .nil
  | .paragraph cs, hholds | .tightText cs, hholds | .heading _ cs, hholds => by
      rw [Block.Holds] at hholds
      refine .bind (textNodes_allDynamic h refs hholds) fun ns hns => .pure ?_
      exact .container (by rw [walk]) rfl hns
  | .code raw info, _ => .bind (h.locate _) fun _ _ => .pure (.leaf rfl rfl)
  | .math raw, _ => .bind (h.locate raw) fun _ _ => .pure (.leaf rfl rfl)
  | .thematicBreak, _ => .bind (h.locate []) fun _ _ => .pure (.leaf rfl rfl)
  | .html raw, _ => by
      refine .bind (h.locate raw) fun s _ => .pure ?_
      exact allDynamic_paragraph.mpr (.leaf rfl rfl)
  | .quote children, hholds => by
      rw [Block.Holds] at hholds
      refine .bind (blockListNodes_allDynamic h refs children hholds) fun ns hns => ?_
      have htyped := takeQuoteType_allDynamic hns
      generalize takeQuoteType ns = q at htyped ⊢
      exact .pure (.container (by rw [walk]) rfl htyped)
  | .list _ _ items, hholds => by
      rw [Block.Holds] at hholds
      refine .bind (itemListNodes_allDynamic h refs items hholds) fun ns hns => .pure ?_
      exact .container (by rw [walk]) rfl hns
  | .table headers alignment rows, hholds => by
      rw [Block.Holds] at hholds
      refine .bind (cellNodes_allDynamic h refs hholds.1) fun heads hheads => ?_
      refine .bind (rowNodes_allDynamic h refs hholds.2) fun cells hcells => .pure ?_
      exact .table alignment _ hheads hcells

/-- The dynamic nodes of several blocks are the heads within their lines. -/
theorem blockListNodes_allDynamic (h : FindsHeads I P D) (refs : References) :
    ∀ bs : List Block, Block.AllHold P bs → Finds I (AllDynamic D) (blockListNodes refs bs)
  | [], _ => .pure .nil
  | b :: rest, hholds => by
      rw [Block.AllHold] at hholds
      exact .append (blockNodes_allDynamic h refs b hholds.1)
        (blockListNodes_allDynamic h refs rest hholds.2)

/-- The dynamic nodes of a list item are the heads within its lines. -/
theorem itemNodes_allDynamic (h : FindsHeads I P D) (refs : References) :
    ∀ bs : List Block, Block.AllHold P bs → Finds I (AllDynamic D) (itemNodes refs bs)
  | [], _ => .pure .nil
  | b :: rest, hholds => by
      rw [Block.AllHold] at hholds
      have hrest := itemNodes_allDynamic h refs rest hholds.2
      cases b with
      | tightText cs =>
          have hcs := hholds.1
          rw [Block.Holds] at hcs
          exact .append (textNodes_allDynamic h refs hcs) hrest
      | _ => exact .append (blockNodes_allDynamic h refs _ hholds.1) hrest

/-- The dynamic nodes of list items are the heads within their lines. -/
theorem itemListNodes_allDynamic (h : FindsHeads I P D) (refs : References) :
    ∀ items : List (List Block), Block.ItemsHold P items →
      Finds I (AllDynamic D) (itemListNodes refs items)
  | [], _ => .pure .nil
  | item :: rest, hholds => by
      rw [Block.ItemsHold] at hholds
      refine .bind (itemNodes_allDynamic h refs item hholds.1) fun ns hns => ?_
      refine .bind (itemListNodes_allDynamic h refs rest hholds.2) fun ms hms => .pure ?_
      exact allDynamic_cons.mpr ⟨.container (by rw [walk]) rfl hns, hms⟩

end

/-- **The dynamic nodes of a stretch of Markdown are the call heads within its lines.** -/
theorem markdownNodes_allDynamic {T : Nat → List Char → Prop} (hT : Lasting T) {cs : List Char}
    (h : FindsHeads I (T (lines cs).length) D) {n : Nat} (hcs : T n cs) :
    Finds I (AllDynamic D) (markdownNodes cs) :=
  blockListNodes_allDynamic h _ _ (readBlocks_hold hT hcs)

end Livedoc.Document
