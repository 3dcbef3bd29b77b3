import Livedoc.Document.Content
import Livedoc.Tree.Same
import Livedoc.Tree.Walk

/-!
# What is read does not depend on where it stands

The rules of reading look at characters only; a cursor moves along with them and tells
where things stand.  So two searches for the same pieces, from whatever places in whatever
sources, give nodes that differ in their spans alone, and note mistakes with the same
messages (`blockNodes_alike`, `markdownNodes_alike`).

`Alike` relates two such searches; it is closed under the ways in which searches are put
together, and everything else follows the recursion of the readers.

Two nodes are the same up to position exactly if their bare forms are equal (`same_iff`), so being
the same is an equivalence that goes with appending lists of nodes.  The text that nodes hold is
that of their bare forms.

So the bare nodes of markup and of blocks are functions of these alone: piece by piece
(`bareAll_inlineNodes`) and block by block (`bareAll_blockListNodes`).
-/

namespace Livedoc.Tree.Node

/-! ## Kinds -/

theorem kind_bare (n : Node) : n.bare.kind = n.kind := by
  cases n <;> rfl

theorem kind_eq_of_same {a b : Node} (h : a.same b = true) : a.kind = b.kind := by
  unfold same at h
  split at h
  case h_24 => cases h
  all_goals rfl

/-- Nodes of different kinds are told apart either way. -/
theorem same_iff_of_kind_ne {a b : Node} (h : a.kind ≠ b.kind) :
    a.same b = true ↔ a.bare = b.bare :=
  iff_of_false (mt kind_eq_of_same h) fun heq => h (by rw [← kind_bare a, heq, kind_bare])

/-! ## Bare forms -/

mutual

/-- **Two nodes are the same exactly if they have the same bare form.** -/
theorem same_iff : ∀ a b : Node, a.same b = true ↔ a.bare = b.bare
  | text .., b | code .., b | math .., b | image .., b | lineBreak .., b | thematicBreak .., b
  | reference .., b => by
      -- here and below only the case is left in which both nodes are of one kind
      cases b <;> try exact same_iff_of_kind_ne (of_decide_eq_true rfl)
      simp [same, bare, and_assoc]
  | document cs _, b | paragraph cs _, b | heading _ cs _, b | list _ cs _ _, b
  | listItem cs _, b | blockquote cs _ _, b | link _ cs _ _, b | emphasis cs _ _, b
  | row cs _ _ _, b | column cs _ _ _, b | grid cs _ _ _, b | center cs _, b
  | call _ _ _ cs _, b | loop _ cs _ _, b => by
      cases b <;> try exact same_iff_of_kind_ne (of_decide_eq_true rfl)
      simp [same, bare, sameAll_iff cs, and_assoc, and_comm]
  | table heads rows _ _, b => by
      cases b <;> try exact same_iff_of_kind_ne (of_decide_eq_true rfl)
      simp [same, bare, sameCells_iff heads, sameRows_iff rows, and_assoc, and_left_comm, and_comm]
  | conditional _ cs es _, b => by
      cases b <;> try exact same_iff_of_kind_ne (of_decide_eq_true rfl)
      simp [same, bare, sameAll_iff cs, sameAll_iff es, and_assoc]

theorem sameAll_iff : ∀ as bs : List Node, sameAll as bs = true ↔ bareAll as = bareAll bs
  | [], bs => by cases bs <;> simp [sameAll, bareAll]
  | a :: as, bs => by cases bs <;> simp [sameAll, bareAll, same_iff a, sameAll_iff as]

theorem sameCells_iff :
    ∀ as bs : List (List Node), sameCells as bs = true ↔ bareCells as = bareCells bs
  | [], bs => by cases bs <;> simp [sameCells, bareCells]
  | a :: as, bs => by cases bs <;> simp [sameCells, bareCells, sameAll_iff a, sameCells_iff as]

theorem sameRows_iff :
    ∀ as bs : List (List (List Node)), sameRows as bs = true ↔ bareRows as = bareRows bs
  | [], bs => by cases bs <;> simp [sameRows, bareRows]
  | a :: as, bs => by cases bs <;> simp [sameRows, bareRows, sameCells_iff a, sameRows_iff as]

end

theorem bareAll_eq_map (ns : List Node) : bareAll ns = ns.map bare := by
  induction ns with
  | nil => rfl
  | cons n rest ih => rw [bareAll, ih, List.map_cons]

@[simp] theorem bareAll_append (ns ms : List Node) :
    bareAll (ns ++ ms) = bareAll ns ++ bareAll ms := by
  simp [bareAll_eq_map]

/-! ## Text -/

mutual

/-- The text that a node holds does not depend on places. -/
theorem textContent_bare : ∀ n : Node, n.bare.textContent = n.textContent
  | text .. | code .. | math .. | image .. | lineBreak .. | thematicBreak .. | reference .. => by
      simp [bare, textContent]
  | document cs _ | paragraph cs _ | heading _ cs _ | list _ cs _ _ | listItem cs _
  | blockquote cs _ _ | link _ cs _ _ | emphasis cs _ _ | row cs _ _ _ | column cs _ _ _
  | grid cs _ _ _ | center cs _ | call _ _ _ cs _ | loop _ cs _ _ => by
      simp [bare, textContent, textOf_bareAll cs]
  | table heads rows _ _ => by
      simp [bare, textContent, textOfCells_bareCells heads, textOfRows_bareRows rows]
  | conditional _ cs es _ => by simp [bare, textContent, textOf_bareAll cs, textOf_bareAll es]

theorem textOf_bareAll : ∀ ns : List Node, textOf (bareAll ns) = textOf ns
  | [] => rfl
  | n :: rest => by simp [bareAll, textOf, textContent_bare n, textOf_bareAll rest]

theorem textOfCells_bareCells :
    ∀ cells : List (List Node), textOfCells (bareCells cells) = textOfCells cells
  | [] => rfl
  | cell :: rest => by
      simp [bareCells, textOfCells, textOf_bareAll cell, textOfCells_bareCells rest]

theorem textOfRows_bareRows :
    ∀ rows : List (List (List Node)), textOfRows (bareRows rows) = textOfRows rows
  | [] => rfl
  | cells :: rest => by
      simp [bareRows, textOfRows, textOfCells_bareCells cells, textOfRows_bareRows rest]

end
end Livedoc.Tree.Node

namespace Livedoc.Document

open Livedoc.Source Livedoc.Text Livedoc.Tree Livedoc.Tree.Node Livedoc.Problem Livedoc.Markdown

/-! ## Searches that find the same -/

/-- The messages of the mistakes noted so far. -/
def Search.messages (s : Search) : List String := s.mistakes.map (·.message)

/-- Two searches whose results are related and which note mistakes with the same messages,
wherever they start. -/
def Alike {α β : Type} (R : α → β → Prop) (v : Locating α) (w : Locating β) : Prop :=
  ∀ s t : Search, R (v s).1 (w t).1 ∧
    ∃ noted, (v s).2.messages = s.messages ++ noted ∧ (w t).2.messages = t.messages ++ noted

namespace Alike

variable {α β γ δ : Type} {R : α → β → Prop} {S : γ → δ → Prop}

theorem pure {a : α} {b : β} (h : R a b) : Alike R (Pure.pure a) (Pure.pure b) :=
  fun _ _ => ⟨h, [], (List.append_nil _).symm, (List.append_nil _).symm⟩

theorem bind {v : Locating α} {w : Locating β} {f : α → Locating γ} {g : β → Locating δ}
    (h : Alike R v w) (hnext : ∀ a b, R a b → Alike S (f a) (g b)) :
    Alike S (v >>= f) (w >>= g) := by
  intro s t
  obtain ⟨hR, noted, hv, hw⟩ := h s t
  obtain ⟨hS, more, hf, hg⟩ := hnext _ _ hR (v s).2 (w t).2
  refine ⟨hS, noted ++ more, ?_, ?_⟩
  · exact hf.trans (by rw [hv, List.append_assoc])
  · exact hg.trans (by rw [hw, List.append_assoc])

/-- Finding a text moves the cursor and nothing else. -/
theorem locate (part part' : List Char) :
    Alike (fun _ _ => True) (Document.locate part) (Document.locate part') :=
  fun _ _ => ⟨trivial, [], (List.append_nil _).symm, (List.append_nil _).symm⟩

theorem report (message : String) (span span' : Span) :
    Alike (fun _ _ => True) (Document.report message span) (Document.report message span') :=
  fun _ _ => ⟨trivial, [message], List.map_append, List.map_append⟩

/-- A node over the place of a text. -/
theorem located {a : Span → α} {b : Span → β} (part : List Char) (h : ∀ s t, R (a s) (b t)) :
    Alike R (do return a (← Document.locate part)) (do return b (← Document.locate part)) :=
  bind (locate part part) fun s t _ => pure (h s t)

end Alike

/-- Two nodes that differ in their spans alone. -/
abbrev SameNode (n m : Node) : Prop := n.bare = m.bare

/-- Nodes that differ in their spans alone. -/
abbrev SameNodes (ns ms : List Node) : Prop := bareAll ns = bareAll ms

/-- Cells whose nodes differ in their spans alone. -/
abbrev SameCells (ns ms : List (List Node)) : Prop := bareCells ns = bareCells ms

theorem SameNodes.single {n m : Node} (h : SameNode n m) : SameNodes [n] [m] := by
  show [n.bare] = [m.bare]
  rw [h]

/-! ## Joining texts and taking types off quotations -/

/-- Only a text is bare as a text. -/
private theorem exists_eq_text {n : Node} {content : String} {s : Span}
    (h : n.bare = .text content s) : ∃ t, n = .text content t := by
  cases n with
  | text a t =>
      simp only [bare, Node.text.injEq] at h
      exact ⟨t, by rw [h.1]⟩
  | _ => simp [bare] at h

private theorem bareAll_joinAfter (before : Node) (ns : List Node) :
    bareAll (joinAfter before ns) = joinAfter before.bare (bareAll ns) := by
  induction ns generalizing before with
  | nil => rfl
  | cons next rest ih =>
      by_cases htexts : ∃ a s b t, before = .text a s ∧ next = .text b t
      · obtain ⟨a, s, b, t, rfl, rfl⟩ := htexts
        exact ih _
      · have hbare : ∀ a s b t, before.bare = .text a s → next.bare = .text b t → False := by
          intro a s b t hbefore hnext
          obtain ⟨s', rfl⟩ := exists_eq_text hbefore
          obtain ⟨t', rfl⟩ := exists_eq_text hnext
          exact htexts ⟨a, s', b, t', rfl, rfl⟩
        have hnot : ∀ a s b t, before = .text a s → next = .text b t → False :=
          fun a s b t hbefore hnext => htexts ⟨a, s, b, t, hbefore, hnext⟩
        rw [joinAfter, bareAll, ih, bareAll, joinAfter]
        · exact hbare
        · exact hnot

/-- Neighbouring texts are joined without regard to their places. -/
theorem bareAll_joinTextNodes (ns : List Node) :
    bareAll (joinTextNodes ns) = joinTextNodes (bareAll ns) := by
  cases ns with
  | nil => rfl
  | cons n rest => exact bareAll_joinAfter n rest

/-- Nodes without the white space that their first text starts with. -/
private def trimFirst : List Node → List Node
  | .text content span :: others =>
    if (stripStart content).isEmpty then others else .text (stripStart content) span :: others
  | ns => ns

private theorem bareAll_trimFirst (ns : List Node) :
    bareAll (trimFirst ns) = trimFirst (bareAll ns) := by
  cases ns with
  | nil => rfl
  | cons first others =>
      cases first with
      | text content span =>
          simp only [trimFirst, bareAll, bare]
          split <;> rfl
      | _ => rfl

/-- A text before other nodes, if it holds anything. -/
private def consText (content : List Char) (span : Span) (ns : List Node) : List Node :=
  if content.isEmpty then ns else .text (String.ofList content) span :: ns

private theorem bareAll_consText (content : List Char) (span : Span) (ns : List Node) :
    bareAll (consText content span ns) = consText content .unknown (bareAll ns) := by
  unfold consText
  split <;> rfl

/-- A quotation that starts with a marker loses it, and its first paragraph if nothing is left. -/
private theorem takeQuoteType_text {content : String} {label : String} {after : List Char}
    (h : takeMarker? content.toList = some (label, after)) (span s : Span) (more rest : List Node) :
    takeQuoteType (.paragraph (.text content span :: more) s :: rest) =
      (if (trimFirst (consText (trimStart after) span more)).isEmpty then rest
        else .paragraph (trimFirst (consText (trimStart after) span more)) s :: rest, some label) := by
  by_cases hempty : (trimStart after).isEmpty = true
  · simp only [takeQuoteType, h, consText, hempty, if_true]
    cases more with
    | nil => rfl
    | cons first others => cases first <;> rfl
  · simp only [takeQuoteType, h, consText, hempty, Bool.false_eq_true, if_false]
    rfl

private theorem isEmpty_bareAll (ns : List Node) : (bareAll ns).isEmpty = ns.isEmpty := by
  cases ns <;> rfl

/-- The type of a quotation is taken off without regard to places. -/
theorem takeQuoteType_bareAll (ns : List Node) :
    takeQuoteType (bareAll ns) = (bareAll (takeQuoteType ns).1, (takeQuoteType ns).2) := by
  cases ns with
  | nil => rfl
  | cons n rest =>
      cases n with
      | paragraph children s =>
          cases children with
          | nil => rfl
          | cons m more =>
              cases m with
              | text content span =>
                  cases hmarker : takeMarker? content.toList with
                  | none => simp only [bareAll, bare, takeQuoteType, hmarker]
                  | some found =>
                      simp only [bareAll, bare]
                      rw [takeQuoteType_text hmarker, takeQuoteType_text hmarker span,
                        ← bareAll_consText (trimStart found.2) span, ← bareAll_trimFirst,
                        isEmpty_bareAll]
                      dsimp only
                      split <;> rfl
              | _ => rfl
      | _ => rfl

/-! ## Markup within a line -/

private theorem SameNodes.join {ns ms : List Node} (h : SameNodes ns ms) :
    SameNodes (joinTextNodes ns) (joinTextNodes ms) := by
  rw [SameNodes, bareAll_joinTextNodes, h, bareAll_joinTextNodes]

private theorem SameNodes.textOf {ns ms : List Node} (h : SameNodes ns ms) :
    Node.textOf ns = Node.textOf ms := by
  rw [← textOf_bareAll, h, textOf_bareAll]

private theorem headNode_alike (head : Call.Head) (raw : List Char) :
    Alike SameNode (headNode head raw) (headNode head raw) := by
  refine Alike.bind (.locate raw raw) fun s t _ => ?_
  cases head.problem? with
  | some message => exact Alike.bind (.report message s t) fun _ _ _ => .pure rfl
  | none =>
      cases head.isCall with
      | false => exact .pure rfl
      | true =>
          refine .pure ?_
          simp only [SameNode, bare, List.map_map]
          rfl

mutual

/-- The node of a piece of markup does not depend on where it stands. -/
theorem inlineNode_alike : ∀ i : Inline, Alike SameNode (inlineNode i) (inlineNode i)
  | .text raw | .escaped raw | .code raw | .math raw _ | .html raw =>
      .located raw fun _ _ => rfl
  | .softBreak | .hardBreak => .located ['\n'] fun _ _ => rfl
  | .sizedImage i => .located i.raw fun _ _ => rfl
  | .call head raw => headNode_alike head raw
  | .emphasis strong children => by
      refine Alike.bind (inlineNodeList_alike children) fun ns ms h => .pure ?_
      rw [SameNode, bare, bare, h.join]
  | .link url title children => by
      refine Alike.bind (inlineNodeList_alike children) fun ns ms h => .pure ?_
      rw [SameNode, bare, bare, h.join]
  | .image url title children => by
      refine Alike.bind (inlineNodeList_alike children) fun ns ms h => .pure ?_
      rw [SameNode, bare, bare, h.join.textOf]

/-- The nodes of several pieces do not depend on where they stand. -/
theorem inlineNodeList_alike :
    ∀ is : List Inline, Alike SameNodes (inlineNodeList is) (inlineNodeList is)
  | [] => .pure rfl
  | i :: rest => by
      refine Alike.bind (inlineNode_alike i) fun n m hn => ?_
      refine Alike.bind (inlineNodeList_alike rest) fun ns ms hns => .pure ?_
      rw [SameNodes, bareAll, bareAll, hn, hns]

end

/-- The nodes of a line do not depend on where it stands. -/
theorem inlineNodes_alike (is : List Inline) :
    Alike SameNodes (inlineNodes is) (inlineNodes is) :=
  Alike.bind (inlineNodeList_alike is) fun _ _ h => .pure h.join

/-! ## Blocks -/

private theorem textNodes_alike (refs : References) (text : List Char) :
    Alike SameNodes (textNodes refs text) (textNodes refs text) :=
  inlineNodes_alike _

private theorem cellNodes_alike (refs : References) (cells : List (List Char)) :
    Alike SameCells (cellNodes refs cells) (cellNodes refs cells) := by
  unfold cellNodes
  induction cells with
  | nil => exact .pure rfl
  | cons cell rest ih =>
      rw [List.mapM_cons]
      refine Alike.bind (textNodes_alike refs cell) fun ns ms h => ?_
      refine Alike.bind ih fun nss mss hrest => .pure ?_
      rw [SameCells, bareCells, bareCells, h, hrest]

private theorem rowNodes_alike (refs : References) (rows : List (List (List Char))) :
    Alike (fun a b => bareRows a = bareRows b) (rows.mapM (cellNodes refs))
      (rows.mapM (cellNodes refs)) := by
  induction rows with
  | nil => exact .pure rfl
  | cons cells rest ih =>
      rw [List.mapM_cons]
      refine Alike.bind (cellNodes_alike refs cells) fun ns ms h => ?_
      refine Alike.bind ih fun nss mss hrest => .pure ?_
      rw [bareRows, bareRows, h, hrest]

/-- One search after the other, their nodes put together. -/
private theorem Alike.append {v w : Locating (List Node)} (hv : Alike SameNodes v v)
    (hw : Alike SameNodes w w) :
    Alike SameNodes (do let ns ← v; let ms ← w; return ns ++ ms)
      (do let ns ← v; let ms ← w; return ns ++ ms) := by
  refine Alike.bind hv fun ns ns' hns => ?_
  refine Alike.bind hw fun ms ms' hms => .pure ?_
  rw [SameNodes, bareAll_append, bareAll_append, hns, hms]

private theorem takeQuoteType_same {ns ms : List Node} (h : SameNodes ns ms) :
    SameNodes (takeQuoteType ns).1 (takeQuoteType ms).1 ∧
      (takeQuoteType ns).2 = (takeQuoteType ms).2 := by
  have hns := takeQuoteType_bareAll ns
  rw [h, takeQuoteType_bareAll ms, Prod.mk.injEq] at hns
  exact ⟨hns.1.symm, hns.2.symm⟩

mutual

/-- **The nodes of a block do not depend on where it stands.** -/
theorem blockNodes_alike (refs : References) :
    ∀ b : Block, Alike SameNodes (blockNodes refs b) (blockNodes refs b)
  | .blank => .pure rfl
  | .paragraph cs | .tightText cs | .heading _ cs => by
      refine Alike.bind (textNodes_alike refs cs) fun ns ms h => .pure (SameNodes.single ?_)
      rw [SameNode, bare, bare, h]
  | .code raw info => .located _ fun _ _ => rfl
  | .math raw => .located raw fun _ _ => rfl
  | .thematicBreak => .located [] fun _ _ => rfl
  | .html raw => .located raw fun _ _ => rfl
  | .quote children => by
      refine Alike.bind (blockListNodes_alike refs children) fun ns ms h => ?_
      obtain ⟨hnodes, htype⟩ := takeQuoteType_same h
      generalize takeQuoteType ns = q at hnodes htype ⊢
      generalize takeQuoteType ms = r at hnodes htype ⊢
      refine .pure (SameNodes.single ?_)
      rw [SameNode, bare, bare, hnodes, htype]
  | .list _ _ items => by
      refine Alike.bind (itemListNodes_alike refs items) fun ns ms h => .pure (SameNodes.single ?_)
      rw [SameNode, bare, bare, h]
  | .table headers _ rows => by
      refine Alike.bind (cellNodes_alike refs headers) fun heads heads' hheads => ?_
      refine Alike.bind (rowNodes_alike refs rows) fun cells cells' hcells => .pure ?_
      apply SameNodes.single
      rw [SameNode, bare, bare, hheads, hcells]

/-- The nodes of several blocks do not depend on where they stand. -/
theorem blockListNodes_alike (refs : References) :
    ∀ bs : List Block, Alike SameNodes (blockListNodes refs bs) (blockListNodes refs bs)
  | [] => .pure rfl
  | b :: rest => .append (blockNodes_alike refs b) (blockListNodes_alike refs rest)

/-- The nodes of a list item do not depend on where it stands. -/
theorem itemNodes_alike (refs : References) :
    ∀ bs : List Block, Alike SameNodes (itemNodes refs bs) (itemNodes refs bs)
  | [] => .pure rfl
  | b :: rest => by
      cases b with
      | tightText cs => exact .append (textNodes_alike refs cs) (itemNodes_alike refs rest)
      | _ => exact .append (blockNodes_alike refs _) (itemNodes_alike refs rest)

/-- The items of a list do not depend on where they stand. -/
theorem itemListNodes_alike (refs : References) :
    ∀ items : List (List Block), Alike SameNodes (itemListNodes refs items) (itemListNodes refs items)
  | [] => .pure rfl
  | item :: rest => by
      refine Alike.bind (itemNodes_alike refs item) fun ns ms hns => ?_
      refine Alike.bind (itemListNodes_alike refs rest) fun ns' ms' hrest => .pure ?_
      simp only [SameNodes, bareAll, bare, hns, hrest]

end

/-- **The nodes of a stretch of Markdown do not depend on where it stands.** -/
theorem markdownNodes_alike (cs : List Char) :
    Alike SameNodes (markdownNodes cs) (markdownNodes cs) :=
  blockListNodes_alike _ _

/-! ## Nodes without their places -/

/-- A search that starts nowhere in particular. -/
def Search.anywhere : Search := { cursor := .ofText (.ofText []) [] 1 0 }

/-- The node of a piece of markup, without its place. -/
def bareNode (i : Inline) : Node := (inlineNode i .anywhere).1.bare

/-- The nodes of pieces of markup, without their places: neighbouring texts are one node. -/
def bareLine (is : List Inline) : List Node := joinTextNodes (is.map bareNode)

theorem bare_inlineNode (i : Inline) (s : Search) : (inlineNode i s).1.bare = bareNode i :=
  (inlineNode_alike i s .anywhere).1

theorem bareAll_inlineNodeList (is : List Inline) (s : Search) :
    bareAll (inlineNodeList is s).1 = is.map bareNode := by
  induction is generalizing s with
  | nil => rfl
  | cons i rest ih =>
      rw [inlineNodeList, List.map_cons, ← bare_inlineNode i s, ← ih (inlineNode i s).2]
      rfl

/-- **The nodes of a line are those of its pieces**, neighbouring texts being one. -/
theorem bareAll_inlineNodes (is : List Inline) (s : Search) :
    bareAll (inlineNodes is s).1 = bareLine is :=
  (bareAll_joinTextNodes _).trans (congrArg joinTextNodes (bareAll_inlineNodeList is s))

variable (refs : References)

/-- The nodes of a block, without their places. -/
def bareBlock (b : Block) : List Node := bareAll (blockNodes refs b .anywhere).1

theorem bareAll_blockNodes (b : Block) (s : Search) :
    bareAll (blockNodes refs b s).1 = bareBlock refs b :=
  (blockNodes_alike refs b s .anywhere).1

/-- **The nodes of several blocks are those of each.** -/
theorem bareAll_blockListNodes (bs : List Block) (s : Search) :
    bareAll (blockListNodes refs bs s).1 = bs.flatMap (bareBlock refs) := by
  induction bs generalizing s with
  | nil => rfl
  | cons b rest ih =>
      rw [blockListNodes, List.flatMap_cons, ← bareAll_blockNodes refs b s,
        ← ih (blockNodes refs b s).2]
      exact bareAll_append _ _

theorem bareBlock_blank : bareBlock refs .blank = [] := rfl

theorem bareBlock_paragraph (text : List Char) : bareBlock refs (.paragraph text) =
    [.paragraph (bareLine (readInline refs (trimWhile isEdge text))) .unknown] := by
  rw [bareBlock, blockNodes]
  show [Node.paragraph (bareAll _) .unknown] = _
  rw [← bareAll_inlineNodes _ .anywhere]
  rfl

theorem bareBlock_quote (children : List Block) : bareBlock refs (.quote children) =
    [.blockquote (takeQuoteType (children.flatMap (bareBlock refs))).1
      (takeQuoteType (children.flatMap (bareBlock refs))).2 .unknown] := by
  rw [← bareAll_blockListNodes refs children .anywhere, takeQuoteType_bareAll, bareBlock, blockNodes]
  rfl

/-- Only blank lines become no node. -/
theorem bareBlock_eq_nil_iff {b : Block} : bareBlock refs b = [] ↔ b = .blank := by
  constructor
  · intro h
    cases b with
    | blank => rfl
    | quote children =>
        rw [bareBlock_quote] at h
        cases h
    | _ => cases h
  · rintro rfl
    rfl

end Livedoc.Document
