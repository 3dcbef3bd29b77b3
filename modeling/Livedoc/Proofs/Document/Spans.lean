import Livedoc.Proofs.Call.Head
import Livedoc.Proofs.Document.Excerpt
import Livedoc.Proofs.Document.Names
import Livedoc.Proofs.Document.Order
import Livedoc.Proofs.Document.Reading

/-!
# The spans of what is read

Every node is found, or covers nodes that were found one after the other, and every argument stands
where its call was found, or at its place in the line of a block call.  So all known spans are
ordered, and both ends of each are positions that the search has come to, or positions of offsets
(`readParts_orderedIn`).  Nothing is assumed about the Markdown: whatever blocks and pieces of markup
there are, the nodes that are made of them follow each other (`blockNodes_follow`).
-/

namespace Livedoc.Tree.Node

open Livedoc.Source

/-- The spans on a node: its own, and those of the arguments of a call. -/
def spans : Node → List Span
  | call _ args named _ s => s :: (args.map (·.span) ++ named.flatMap fun a => [a.span, a.value.span])
  | n => [n.span]

/-- All known spans on nodes and on what is below them are ordered. -/
def SpansIn (W : Position → Prop) (ns : List Node) : Prop :=
  ∀ m ∈ walkAll ns, ∀ s ∈ m.spans, s.isKnown = true → s.OrderedIn W

variable {W : Position → Prop} {p q r : Position} {n : Node} {ns ms : List Node}

theorem SpansIn.nil : SpansIn W [] := nofun

theorem spansIn_append : SpansIn W (ns ++ ms) ↔ SpansIn W ns ∧ SpansIn W ms := by
  rw [SpansIn, walkAll_append, List.forall_mem_append]
  rfl

theorem spansIn_cons : SpansIn W (n :: ns) ↔ SpansIn W [n] ∧ SpansIn W ns := by
  rw [← List.singleton_append, spansIn_append]

/-- A node with nodes below it. -/
theorem SpansIn.container (hwalk : n.walk = n :: walkAll ns)
    (hself : ∀ s ∈ n.spans, s.isKnown = true → s.OrderedIn W) (h : SpansIn W ns) :
    SpansIn W [n] := by
  intro m hm
  rw [walkAll, walkAll, List.append_nil, hwalk, List.mem_cons] at hm
  rcases hm with rfl | hm
  · exact hself
  · exact h m hm

/-- The spans on a node itself. -/
theorem SpansIn.self (h : SpansIn W [n]) : ∀ s ∈ n.spans, s.isKnown = true → s.OrderedIn W :=
  h n (mem_walkAll.mpr ⟨n, List.mem_singleton_self n, n.mem_walk_self⟩)

theorem SpansIn.children (hwalk : n.walk = n :: walkAll ns) (h : SpansIn W [n]) : SpansIn W ns := by
  intro m hm
  apply h m
  rw [walkAll, walkAll, List.append_nil, hwalk]
  exact List.mem_cons_of_mem n hm

theorem SpansIn.leaf (hleaf : n.isLeaf = true)
    (hself : ∀ s ∈ n.spans, s.isKnown = true → s.OrderedIn W) : SpansIn W [n] :=
  .container (by rw [walk_of_isLeaf hleaf, walkAll]) hself .nil

/-- A text at the place of another one. -/
theorem SpansIn.retext {content content' : String} {s : Span} (h : SpansIn W [.text content s]) :
    SpansIn W [.text content' s] :=
  .leaf rfl h.self

theorem spansIn_paragraph {s : Span} (hs : s.isKnown = true → s.OrderedIn W) :
    SpansIn W [.paragraph ns s] ↔ SpansIn W ns := by
  constructor
  · exact .children (by rw [walk])
  · apply SpansIn.container (by rw [walk])
    simpa [spans, span] using hs

/-- A call whose arguments stand at ordered spans. -/
theorem SpansIn.call {name : String} {args : List Argument} {named : List NamedArgument} {s : Span}
    (hs : s.OrderedIn W) (hargs : ∀ a ∈ args, a.span.OrderedIn W)
    (hnamed : ∀ a ∈ named, a.span.OrderedIn W ∧ a.value.span.OrderedIn W) (h : SpansIn W ns) :
    SpansIn W [.call name args named ns s] := by
  intro m hm t ht _
  rw [walkAll, walkAll, List.append_nil, walk, List.mem_cons, List.mem_append] at hm
  rcases hm with rfl | hm | hm
  · rw [spans, List.mem_cons, List.mem_append] at ht
    rcases ht with rfl | ht | ht
    · exact hs
    · obtain ⟨a, ha, rfl⟩ := List.mem_map.mp ht
      exact hargs a ha
    · obtain ⟨a, ha, ht⟩ := List.mem_flatMap.mp ht
      rw [List.mem_cons, List.mem_singleton] at ht
      rcases ht with rfl | rfl
      · exact (hnamed a ha).1
      · exact (hnamed a ha).2
  · obtain ⟨a, ha, rfl⟩ := List.mem_map.mp hm
    change t ∈ [a.span] at ht
    rw [List.mem_singleton.mp ht]
    exact hargs a ha
  · exact h m hm t ht ‹_›

/-- Nodes that follow each other from one position to another, with ordered spans below them. -/
structure NodesFollow (W : Position → Prop) (p : Position) (ns : List Node) (q : Position) :
    Prop where
  follow : Follow W p (ns.map span) q
  within : SpansIn W ns

namespace NodesFollow

theorem nil (h : p ≤ q) : NodesFollow W p [] q := ⟨.nil h, .nil⟩

theorem append (h : NodesFollow W p ns q) (h' : NodesFollow W q ms r) :
    NodesFollow W p (ns ++ ms) r := by
  constructor
  · rw [List.map_append]
    exact h.follow.append h'.follow
  · exact spansIn_append.mpr ⟨h.within, h'.within⟩

/-- A node with nodes below it, at a span between the positions. -/
theorem container (hwalk : n.walk = n :: walkAll ms) (hspans : n.spans = [n.span])
    (hself : Follow W p [n.span] q) (h : SpansIn W ms) : NodesFollow W p [n] q := by
  constructor
  · exact hself
  · apply SpansIn.container hwalk _ h
    intro s hs
    rw [hspans, List.mem_singleton] at hs
    subst hs
    exact hself.orderedIn

theorem leaf (hleaf : n.isLeaf = true) (hspans : n.spans = [n.span])
    (hself : Follow W p [n.span] q) : NodesFollow W p [n] q :=
  container (by rw [walk_of_isLeaf hleaf, walkAll]) hspans hself .nil

end NodesFollow

end Livedoc.Tree.Node

namespace Livedoc.Document

open Livedoc.Call Livedoc.Markdown Livedoc.Problem Livedoc.Source Livedoc.Text Livedoc.Tree
open Livedoc.Tree.Node

variable {W : Position → Prop} {p q r : Position} {ns ms : List Node}

/-- What covers nodes that follow each other stands where they do. -/
theorem follow_coverNodes (h : NodesFollow W p ns q) : Follow W p [coverNodes ns] q :=
  h.follow.cover

/-! ## Joining texts and taking types off quotations -/

/-- Nodes that follow each other, with a place for every text. -/
structure Pieces (W : Position → Prop) (p : Position) (ns : List Node) (q : Position) : Prop
    extends NodesFollow W p ns q where
  texts : ∀ content s, .text content s ∈ ns → s.isKnown = true

theorem Pieces.append (h : Pieces W p ns q) (h' : Pieces W q ms r) : Pieces W p (ns ++ ms) r where
  toNodesFollow := h.toNodesFollow.append h'.toNodesFollow
  texts content s hmem := by
    rcases List.mem_append.mp hmem with hmem | hmem
    · exact h.texts content s hmem
    · exact h'.texts content s hmem

/-- The first node and the others. -/
theorem Pieces.uncons {n : Node} (h : Pieces W p (n :: ns) q) :
    ∃ r, Pieces W p [n] r ∧ Pieces W r ns q := by
  obtain ⟨r, hfirst, hrest⟩ := h.follow.uncons
  obtain ⟨hn, hns⟩ := spansIn_cons.mp h.within
  refine ⟨r, ⟨⟨hfirst, hn⟩, fun content s hmem => ?_⟩, ⟨⟨hrest, hns⟩, fun content s hmem => ?_⟩⟩
  · rw [List.mem_singleton] at hmem
    exact h.texts content s (hmem ▸ List.mem_cons_self)
  · exact h.texts content s (List.mem_cons_of_mem n hmem)

private theorem joinAfter_follow (before : Node) (ns : List Node) (h : Pieces W p (before :: ns) q) :
    NodesFollow W p (joinAfter before ns) q := by
  fun_induction joinAfter before ns generalizing p with
  | case1 => exact h.toNodesFollow
  | case2 rest a s b t ih =>
      have hs := h.texts a s (by simp)
      have ht := h.texts b t (by simp)
      rw [if_pos hs] at ih ⊢
      have hjoined := h.follow.merge hs ht
      refine ih ⟨⟨hjoined, ?_⟩, ?_⟩
      · have hrest := (spansIn_cons.mp (spansIn_cons.mp h.within).2).2
        refine spansIn_cons.mpr ⟨.leaf rfl fun u hu => ?_, hrest⟩
        rw [List.mem_singleton.mp hu]
        exact hjoined.orderedIn
      · intro content u hmem
        rcases List.mem_cons.mp hmem with heq | hmem
        · cases heq
          exact hs
        · exact h.texts content u (by simp [hmem])
  | case3 before next rest _ ih =>
      obtain ⟨r, hbefore, hrest⟩ := h.uncons
      exact hbefore.toNodesFollow.append (ih hrest)

/-- Texts that are joined stand from the start of the first to the end of the last. -/
theorem joinTextNodes_follow (h : Pieces W p ns q) : NodesFollow W p (joinTextNodes ns) q := by
  cases ns with
  | nil => exact h.toNodesFollow
  | cons n rest => exact joinAfter_follow n rest h

/-- A quotation without its marker has the spans that it had. -/
theorem takeQuoteType_follow (h : NodesFollow W p ns q) :
    NodesFollow W p (takeQuoteType ns).1 q := by
  unfold takeQuoteType
  split
  · next content span more s rest =>
      split
      · exact h
      · next label after _ =>
          obtain ⟨hparagraph, hrest⟩ := spansIn_cons.mp h.within
          obtain ⟨htext, hmore⟩ := spansIn_cons.mp (SpansIn.children (by rw [walk]) hparagraph)
          have htyped : ∀ ms, SpansIn W ms →
              NodesFollow W p (if ms.isEmpty then rest else .paragraph ms s :: rest) q := by
            intro ms hms
            split
            · exact ⟨h.follow.tail, hrest⟩
            · refine ⟨h.follow, spansIn_cons.mpr ⟨?_, hrest⟩⟩
              exact (spansIn_paragraph (hparagraph.self s (by simp [spans, Node.span]))).mpr hms
          refine htyped _ ?_
          have hstripped : SpansIn W (if (trimStart after).isEmpty then more
              else .text (String.ofList (trimStart after)) span :: more) := by
            split
            · exact hmore
            · exact spansIn_cons.mpr ⟨htext.retext, hmore⟩
          split
          · next content span others hothers =>
              rw [hothers, spansIn_cons] at hstripped
              dsimp only
              split
              · exact hstripped.2
              · exact spansIn_cons.mpr ⟨hstripped.1.retext, hstripped.2⟩
          · exact hstripped
  · exact h

/-! ## Markup within a line -/

/-- A node without others below it, which has a span and no other place. -/
structure LeafAt (s : Span) (n : Node) : Prop where
  isLeaf : n.isLeaf = true
  span : n.span = s
  spans : n.spans = [s]

theorem LeafAt.follow {n : Node} {s : Span} (hn : LeafAt s n) (hs : Follow W p [s] q) :
    NodesFollow W p [n] q :=
  .leaf hn.isLeaf (by rw [hn.spans, hn.span]) (by rwa [hn.span])

/-- A leaf over the place of a text. -/
private theorem leaf_pieces (part : List Char) {f : Span → Node} (hf : ∀ s, LeafAt s (f s)) :
    Advances W p (fun q n => Pieces W p [n] q) (do return f (← locate part)) := by
  refine .bind (.locate part) fun q s _ hs => .pure ⟨(hf s).follow hs.2, ?_⟩
  intro content t hmem
  have hspan := (hf s).span
  rw [← List.mem_singleton.mp hmem] at hspan
  change t = s at hspan
  rw [hspan]
  exact hs.1.isKnown

private theorem headNode_pieces (head : Head) (raw : List Char) :
    Advances W p (fun q n => Pieces W p [n] q) (headNode head raw) := by
  unfold headNode
  refine .bind (.locate raw) fun q s _ hs => ?_
  have hknown := hs.1.isKnown
  split
  · next message _ =>
      refine .bind (.report message hs.1) fun r _ _ hr => .pure ?_
      subst hr
      refine ⟨.leaf rfl rfl hs.2, fun content t hmem => ?_⟩
      rw [List.mem_singleton] at hmem
      cases hmem
      exact hknown
  · split
    · refine .pure ⟨⟨hs.2, .call hs.1 ?_ ?_ .nil⟩, by simp⟩
      · intro a ha
        obtain ⟨g, -, rfl⟩ := List.mem_map.mp ha
        exact hs.1
      · intro a ha
        obtain ⟨g, -, rfl⟩ := List.mem_map.mp ha
        exact ⟨hs.1, hs.1⟩
    · exact .pure ⟨.leaf rfl rfl hs.2, by simp⟩

/-- A node around others that follow each other. -/
private theorem around_follow {n : Node} (hns : NodesFollow W p ns q)
    (hwalk : n.walk = n :: walkAll ns) (hspan : n.span = coverNodes ns) (hspans : n.spans = [n.span]) :
    NodesFollow W p [n] q :=
  .container hwalk hspans (hspan ▸ follow_coverNodes hns) hns.within

/-- A node around pieces of a line. -/
private theorem around_pieces {n : Node} (hns : NodesFollow W p ns q) (hwalk : n.walk = n :: walkAll ns)
    (hspan : n.span = coverNodes ns) (hspans : n.spans = [n.span])
    (htext : ∀ content s, n ≠ .text content s) : Pieces W p [n] q where
  toNodesFollow := around_follow hns hwalk hspan hspans
  texts content s hmem := absurd (List.mem_singleton.mp hmem).symm (htext content s)

mutual

/-- A piece of markup stands where the search goes. -/
theorem inlineNode_pieces :
    ∀ (i : Inline) {p : Position}, Advances W p (fun q n => Pieces W p [n] q) (inlineNode i)
  | .text raw, _ | .escaped raw, _ | .code raw, _ | .math raw _, _ | .html raw, _ =>
      leaf_pieces raw fun _ => ⟨rfl, rfl, rfl⟩
  | .softBreak, _ | .hardBreak, _ => leaf_pieces ['\n'] fun _ => ⟨rfl, rfl, rfl⟩
  | .sizedImage i, _ => leaf_pieces i.raw fun _ => ⟨rfl, rfl, rfl⟩
  | .call head raw, _ => headNode_pieces head raw
  | .emphasis strong children, _ =>
      .bind (inlineNodeList_pieces children) fun _ _ _ hns =>
        .pure (around_pieces (joinTextNodes_follow hns) (by rw [walk]) rfl rfl nofun)
  | .link url title children, _ =>
      .bind (inlineNodeList_pieces children) fun _ _ _ hns =>
        .pure (around_pieces (joinTextNodes_follow hns) (by rw [walk]) rfl rfl nofun)
  | .image url title children, _ => by
      refine .bind (inlineNodeList_pieces children) fun q ns _ hns => .pure ⟨?_, nofun⟩
      exact .leaf rfl rfl (follow_coverNodes (joinTextNodes_follow hns))

/-- Pieces of markup follow each other. -/
theorem inlineNodeList_pieces :
    ∀ (is : List Inline) {p : Position},
      Advances W p (fun q ns => Pieces W p ns q) (inlineNodeList is)
  | [], _ => .pure ⟨.nil le_rfl, nofun⟩
  | i :: rest, _ => by
      refine .bind (inlineNode_pieces i) fun q n _ hn => ?_
      refine .bind (inlineNodeList_pieces rest) fun r ns _ hns => .pure ?_
      exact hn.append hns

end

/-- **The nodes of a line follow each other.** -/
theorem inlineNodes_follow (pieces : List Inline) :
    Advances W p (fun q ns => NodesFollow W p ns q) (inlineNodes pieces) :=
  .bind (inlineNodeList_pieces pieces) fun _ _ _ hns => .pure (joinTextNodes_follow hns)

theorem textNodes_follow (refs : References) (text : List Char) :
    Advances W p (fun q ns => NodesFollow W p ns q) (textNodes refs text) :=
  inlineNodes_follow _

/-! ## Blocks -/

private theorem cellNodes_follow (refs : References) (cells : List (List Char)) :
    Advances W p (fun q nss => NodesFollow W p nss.flatten q) (cellNodes refs cells) := by
  unfold cellNodes
  induction cells generalizing p with
  | nil => exact .pure (.nil le_rfl)
  | cons cell rest ih =>
      rw [List.mapM_cons]
      refine .bind (textNodes_follow refs cell) fun q ns _ hns => ?_
      exact .bind ih fun r nss _ hnss => .pure (hns.append hnss)

private theorem rowNodes_follow (refs : References)
    (rows : List (List (List Char))) :
    Advances W p (fun q nsss => NodesFollow W p nsss.flatten.flatten q)
      (rows.mapM (cellNodes refs)) := by
  induction rows generalizing p with
  | nil => exact .pure (.nil le_rfl)
  | cons cells rest ih =>
      rw [List.mapM_cons]
      refine .bind (cellNodes_follow refs cells) fun q nss _ hnss => ?_
      refine .bind ih fun r nsss _ hnsss => .pure ?_
      rw [List.flatten_cons, List.flatten_append]
      exact hnss.append hnsss

/-- A leaf over the place of a text. -/
private theorem leaf_follow (part : List Char) {f : Span → Node} (hf : ∀ s, LeafAt s (f s)) :
    Advances W p (fun q ns => NodesFollow W p ns q) (do return [f (← locate part)]) :=
  .bind (.locate part) fun _ s _ hs => .pure ((hf s).follow hs.2)

mutual

/-- The nodes of a block stand where the search goes. -/
theorem blockNodes_follow (refs : References) :
    ∀ (b : Block) {p : Position},
      Advances W p (fun q ns => NodesFollow W p ns q) (blockNodes refs b)
  | .blank, _ => .pure (.nil le_rfl)
  | .paragraph cs, _ | .tightText cs, _ | .heading _ cs, _ =>
      .bind (textNodes_follow refs cs) fun _ _ _ hns =>
        .pure (around_follow hns (by rw [walk]) rfl rfl)
  | .code raw info, _ => leaf_follow _ fun _ => ⟨rfl, rfl, rfl⟩
  | .math raw, _ => leaf_follow raw fun _ => ⟨rfl, rfl, rfl⟩
  | .thematicBreak, _ => leaf_follow [] fun _ => ⟨rfl, rfl, rfl⟩
  | .html raw, _ => by
      refine .bind (.locate raw) fun q s _ hs => .pure ?_
      refine .container (by rw [walk]) rfl (.unknown rfl (.nil hs.2.le)) (.leaf rfl fun t ht _ => ?_)
      rw [List.mem_singleton.mp ht]
      exact hs.1
  | .quote children, _ => by
      refine .bind (blockListNodes_follow refs children) fun q ns _ hns => ?_
      have htyped := takeQuoteType_follow hns
      generalize takeQuoteType ns = typed at htyped ⊢
      exact .pure (around_follow htyped (by rw [walk]) rfl rfl)
  | .list _ _ items, _ =>
      .bind (itemListNodes_follow refs items) fun _ _ _ hns =>
        .pure (around_follow hns (by rw [walk]) rfl rfl)
  | .table headers alignment rows, _ => by
      refine .bind (cellNodes_follow refs headers) fun q heads _ hheads => ?_
      refine .bind (rowNodes_follow refs rows) fun r cells _ hcells => .pure ?_
      refine .container ?_ rfl ((follow_coverNodes hheads).append (.nil hcells.follow.le))
        (spansIn_append.mpr ⟨hheads.within, hcells.within⟩)
      rw [walk, walkCells_eq, walkRows_eq, walkAll_append]

/-- The nodes of blocks follow each other. -/
theorem blockListNodes_follow (refs : References) :
    ∀ (bs : List Block) {p : Position},
      Advances W p (fun q ns => NodesFollow W p ns q) (blockListNodes refs bs)
  | [], _ => .pure (.nil le_rfl)
  | b :: rest, _ => by
      refine .bind (blockNodes_follow refs b) fun q ns _ hns => ?_
      exact .bind (blockListNodes_follow refs rest) fun r ms _ hms => .pure (hns.append hms)

/-- The nodes of a list item follow each other. -/
theorem itemNodes_follow (refs : References) :
    ∀ (bs : List Block) {p : Position},
      Advances W p (fun q ns => NodesFollow W p ns q) (itemNodes refs bs)
  | [], _ => .pure (.nil le_rfl)
  | b :: rest, _ => by
      have hrest {r} := itemNodes_follow refs rest (p := r)
      cases b with
      | tightText cs =>
          refine .bind (textNodes_follow refs cs) fun q ns _ hns => ?_
          exact .bind hrest fun r ms _ hms => .pure (hns.append hms)
      | _ =>
          refine .bind (blockNodes_follow refs _) fun q ns _ hns => ?_
          exact .bind hrest fun r ms _ hms => .pure (hns.append hms)

/-- The items of a list follow each other. -/
theorem itemListNodes_follow (refs : References) :
    ∀ (items : List (List Block)) {p : Position},
      Advances W p (fun q ns => NodesFollow W p ns q) (itemListNodes refs items)
  | [], _ => .pure (.nil le_rfl)
  | item :: rest, _ => by
      refine .bind (itemNodes_follow refs item) fun q ns _ hns => ?_
      refine .bind (itemListNodes_follow refs rest) fun r ms _ hms => .pure ?_
      exact .append (around_follow hns (by rw [walk]) rfl rfl) hms

end

/-- **The nodes of a stretch of Markdown follow each other**, whatever blocks it has. -/
theorem markdownNodes_follow (cs : List Char) :
    Advances W p (fun q ns => NodesFollow W p ns q) (markdownNodes cs) :=
  blockListNodes_follow _ _

end Livedoc.Document
