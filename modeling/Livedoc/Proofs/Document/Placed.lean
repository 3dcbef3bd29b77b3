import Livedoc.Proofs.Document.Names
import Livedoc.Proofs.Document.Reading
import Livedoc.Proofs.Text.Blank
import Livedoc.Proofs.Tree.Placed

/-!
# Where reading puts nodes

Markdown knows blocks and lines, so what is read is in order: among blocks and in list items stand
blocks and what belongs within a line, in lists stand items, and within a line stands what belongs
there, and calls.  Such a call has no body; the body of a block call is read by itself and stands
among blocks, however the call is written (`read_written`, `readLine_written`).
-/

namespace Livedoc.Tree.Node

open Livedoc.Source

/-- A call as it stands within a line. -/
def IsLineCall (n : Node) : Prop := ∃ name args named span, n = .call name args named [] span

variable {letIn : Node → Prop} {p : Place} {n : Node}

/-- The arguments of a call are texts. -/
theorem placed_argument (a : Argument) : Placed (Suits letIn) .block a.toNode :=
  placed_text (by decide) _ _

/-- What is read within a line is in order in the text of an argument, whatever may stand within a
line: the calls in it have no body. -/
theorem placed_argument_of_line (h : Placed (Suits IsLineCall) p n) (hp : p = .line) :
    Placed (Suits letIn) .argument n := by
  induction h with
  | @intro p n self children ih =>
      subst hp
      refine ⟨⟨self.readable, fun h => absurd rfl h, nofun⟩, fun c hc => ?_⟩
      rcases self.line rfl with hphrase | ⟨name, args, named, span, rfl⟩
      · cases n with
        | emphasis | link => exact ih c hc rfl
        | list | listItem | paragraph | document | heading | blockquote | table | row | column
          | grid | center | call | conditional | loop => cases hphrase
        | _ => cases hc
      · obtain ⟨a, -, rfl⟩ := List.mem_map.mp ((List.mem_append.mp hc).resolve_right (by simp))
        exact placed_argument a

/-- Where no call stands within a line, nothing is let in. -/
theorem placed_of_linesWithoutCalls (h : Placed (Suits IsLineCall) p n) (hp : p ≠ .argument)
    (hlines : ∀ m ∈ n.walk, m.holdsLine = true → ∀ c ∈ m.children, c.isCall = false)
    (hself : p = .line → n.isCall = false) : Placed (Suits fun _ => False) p n := by
  induction h with
  | @intro p n self children ih =>
      refine ⟨⟨self.readable, self.item, fun hline => ?_⟩, fun c hc => ?_⟩
      · refine (self.line hline).imp_right ?_
        rintro ⟨name, args, named, span, rfl⟩
        exact nomatch hself hline
      · refine ih c hc (Placed.childPlace_ne_argument hp) (fun m hm => ?_) fun hline => ?_
        · exact hlines m (mem_walk.mpr (.inr ⟨c, hc, hm⟩))
        · refine hlines n (mem_walk.mpr (.inl rfl)) ?_ c hc
          exact Placed.holdsLine_of_childPlace hp hline

end Livedoc.Tree.Node

namespace Livedoc.Document

open Livedoc.Call Livedoc.Source Livedoc.Text Livedoc.Tree Livedoc.Tree.Node Livedoc.Markdown

/-! ## Joining texts and taking types off quotations -/

private theorem joinAfter_written (before : Node) (ns : List Node)
    (h : AllPlaced IsLineCall .line (before :: ns)) :
    AllPlaced IsLineCall .line (joinAfter before ns) := by
  fun_induction joinAfter before ns with
  | case1 => exact h
  | case2 rest a s b t ih => exact ih (.cons (placed_text (by decide) _ _) h.tail.tail)
  | case3 before next rest _ ih => exact .cons h.head (ih h.tail)

theorem joinTextNodes_written {ns : List Node} (h : AllPlaced IsLineCall .line ns) :
    AllPlaced IsLineCall .line (joinTextNodes ns) := by
  cases ns with
  | nil => exact h
  | cons n rest => exact joinAfter_written n rest h

/-- A paragraph among blocks. -/
private theorem paragraph_written {ns : List Node} (h : AllPlaced IsLineCall .line ns)
    (span : Span) : Placed (Suits IsLineCall) .block (.paragraph ns span) :=
  placed_block rfl rfl h

theorem takeQuoteType_written {ns : List Node} (h : AllPlaced IsLineCall .block ns) :
    AllPlaced IsLineCall .block (takeQuoteType ns).1 := by
  unfold takeQuoteType
  split
  · next content span more s rest =>
      have hline : AllPlaced IsLineCall .line (.text content span :: more) := h.head.child
      split
      · exact h
      · next label after _ =>
          have hmore : AllPlaced IsLineCall .line more := hline.tail
          have htyped : ∀ ms, AllPlaced IsLineCall .line ms →
              AllPlaced IsLineCall .block
                (if ms.isEmpty then rest else .paragraph ms s :: rest) := by
            intro ms hms
            split
            · exact h.tail
            · exact .cons (paragraph_written hms s) h.tail
          refine htyped _ ?_
          have hstripped : AllPlaced IsLineCall .line (if (trimStart after).isEmpty then more
              else .text (String.ofList (trimStart after)) span :: more) := by
            split
            · exact hmore
            · exact .cons (placed_text (by decide) _ _) hmore
          split
          · next content span others hothers =>
              rw [hothers] at hstripped
              dsimp only
              split
              · exact hstripped.tail
              · exact .cons (placed_text (by decide) _ _) hstripped.tail
          · exact hstripped
  · exact h

/-! ## Markup within a line -/

/-- Work whose result has a property. -/
abbrev Makes {α : Type} (P : α → Prop) (w : Locating α) : Prop := Finds (fun _ => True) P w

/-- A leaf over the place of a text. -/
private theorem leaf_written (part : List Char) {f : Span → Node}
    (hf : ∀ s, (f s).children = [] ∧ (f s).isPhrase = true ∧ (f s).isReadable = true) :
    Makes (Placed (Suits IsLineCall) .line) (do return f (← Document.locate part)) :=
  fun s _ => ⟨placed_leaf (hf _).1 (hf _).2.1 (hf _).2.2 (by decide), trivial⟩

private theorem headNode_written (head : Head) (raw : List Char) :
    Makes (Placed (Suits IsLineCall) .line) (headNode head raw) := by
  refine .bind (P := fun _ => True) (fun _ _ => ⟨trivial, trivial⟩) fun span _ => ?_
  split
  · exact .bind (P := fun _ => True) (fun _ _ => ⟨trivial, trivial⟩) fun _ _ =>
      .pure (placed_text (by decide) _ _)
  · split
    · refine .pure ⟨⟨rfl, fun _ => by simp [isListItem], fun _ => .inr ⟨_, _, _, _, rfl⟩⟩,
        fun c hc => ?_⟩
      obtain ⟨a, -, rfl⟩ := List.mem_map.mp ((List.mem_append.mp hc).resolve_right (by simp))
      exact placed_argument a
    · exact .pure (placed_leaf rfl rfl rfl (by decide))

mutual

/-- A piece of markup belongs within a line, or is a call. -/
theorem inlineNode_written :
    ∀ i : Inline, Makes (Placed (Suits IsLineCall) .line) (inlineNode i)
  | .text raw | .escaped raw | .code raw | .math raw _ | .html raw =>
      leaf_written raw fun _ => ⟨rfl, rfl, rfl⟩
  | .softBreak | .hardBreak => leaf_written ['\n'] fun _ => ⟨rfl, rfl, rfl⟩
  | .sizedImage i => leaf_written i.raw fun _ => ⟨rfl, rfl, rfl⟩
  | .call head raw => headNode_written head raw
  | .emphasis strong children =>
      .bind (inlineNodeList_written children) fun ns hns => .pure
        ⟨.of_isPhrase rfl rfl (by decide), joinTextNodes_written hns⟩
  | .link url title children =>
      .bind (inlineNodeList_written children) fun ns hns => .pure
        ⟨.of_isPhrase rfl rfl (by decide), joinTextNodes_written hns⟩
  | .image url title children =>
      .bind (inlineNodeList_written children) fun ns _ => .pure
        (placed_leaf rfl rfl rfl (by decide))

/-- Several pieces of markup belong within a line, or are calls. -/
theorem inlineNodeList_written :
    ∀ is : List Inline, Makes (AllPlaced IsLineCall .line) (inlineNodeList is)
  | [] => .pure .nil
  | i :: rest =>
      .bind (inlineNode_written i) fun _ hn =>
        .bind (inlineNodeList_written rest) fun _ hns =>
          .pure (.cons hn hns)

end

theorem inlineNodes_written (pieces : List Inline) :
    Makes (AllPlaced IsLineCall .line) (inlineNodes pieces) :=
  .bind (inlineNodeList_written pieces) fun _ hns => .pure (joinTextNodes_written hns)

theorem textNodes_written (refs : References) (cs : List Char) :
    Makes (AllPlaced IsLineCall .line) (textNodes refs cs) := inlineNodes_written _

/-! ## Blocks -/

private theorem cellNodes_written (refs : References) (cells : List (List Char)) :
    Makes (fun nss => AllPlaced IsLineCall .line nss.flatten) (cellNodes refs cells) := by
  unfold cellNodes
  induction cells with
  | nil => exact .pure .nil
  | cons cell rest ih =>
      rw [List.mapM_cons]
      exact .bind (textNodes_written refs cell) fun ns hns => .bind ih fun nss hnss =>
        .pure (hns.append hnss)

private theorem rowNodes_written (refs : References) (rows : List (List (List Char))) :
    Makes (fun nsss => AllPlaced IsLineCall .line nsss.flatten.flatten)
      (rows.mapM (cellNodes refs)) := by
  induction rows with
  | nil => exact .pure .nil
  | cons cells rest ih =>
      rw [List.mapM_cons]
      refine .bind (cellNodes_written refs cells) fun nss hnss => ?_
      refine .bind ih fun nsss hnsss => .pure ?_
      rw [List.flatten_cons, List.flatten_append]
      exact hnss.append hnsss

/-- A word has no white space at its ends. -/
theorem strip_of_mem_words {cs word : List Char} (h : word ∈ words cs) :
    strip (String.ofList word) = String.ofList word := by
  have hword : ∀ c ∈ word, isBlank c = false := fun c hc => by
    simpa using ((mem_runsFrom h hc).resolve_left (by simp)).2
  rw [strip, String.toList_ofList, trim, trimWhile_of_none hword]

private theorem code_written (content : String) (info : List Char) (span : Span) :
    Placed (Suits IsLineCall) .block
      (.code content ((words info).head?.map String.ofList) false span) := by
  refine placed_block ?_ rfl (by simp [children])
  cases hwords : (words info).head? with
  | none => rfl
  | some word =>
      have hstrip := strip_of_mem_words (List.mem_of_mem_head? hwords)
      simp [isReadable, hstrip]

/-- Looking for a text does not matter. -/
private theorem located {α : Type} {P : α → Prop} (part : List Char) {f : Span → Locating α}
    (h : ∀ span, Makes P (f span)) : Makes P (do f (← Document.locate part)) :=
  .bind (P := fun _ => True) (fun _ _ => ⟨trivial, trivial⟩) fun span _ => h span

mutual

/-- **A block is in order among blocks.** -/
theorem blockNodes_written (refs : References) :
    ∀ b : Block, Makes (AllPlaced IsLineCall .block) (blockNodes refs b)
  | .blank => .pure .nil
  | .paragraph cs | .tightText cs =>
      .bind (textNodes_written refs cs) fun ns hns => .pure (.single (paragraph_written hns _))
  | .heading level cs =>
      .bind (textNodes_written refs cs) fun ns hns => .pure (.single (placed_block rfl rfl hns))
  | .code raw info =>
      located _ fun span => .pure (.single (code_written _ _ span))
  | .math raw =>
      located _ fun span => .pure (.single (placed_block rfl rfl (by simp [children])))
  | .thematicBreak =>
      located _ fun span => .pure (.single (placed_block rfl rfl (by simp [children])))
  | .html raw =>
      located _ fun span => .pure (.single (paragraph_written
        (.single (placed_text (by decide) _ _)) _))
  | .quote children =>
      .bind (blockListNodes_written refs children) fun ns hns => by
        have htyped := takeQuoteType_written hns
        generalize takeQuoteType ns = q at htyped ⊢
        exact .pure (.single (placed_block rfl rfl htyped))
  | .list _ _ items =>
      .bind (itemListNodes_written refs items) fun ns hns =>
        .pure (.single (placed_block rfl rfl hns))
  | .table headers alignment rows =>
      .bind (cellNodes_written refs headers) fun heads hheads =>
        .bind (rowNodes_written refs rows) fun cells hcells =>
          .pure (.single (placed_block rfl rfl (hheads.append hcells)))

theorem blockListNodes_written (refs : References) :
    ∀ bs : List Block, Makes (AllPlaced IsLineCall .block) (blockListNodes refs bs)
  | [] => .pure .nil
  | b :: rest =>
      .bind (blockNodes_written refs b) fun _ hns =>
        .bind (blockListNodes_written refs rest) fun _ hms => .pure (hns.append hms)

/-- The text of a tight list stands in the item itself. -/
theorem itemNodes_written (refs : References) :
    ∀ bs : List Block, Makes (AllPlaced IsLineCall .block) (itemNodes refs bs)
  | [] => .pure .nil
  | b :: rest => by
      have hrest := itemNodes_written refs rest
      cases b with
      | tightText cs =>
          exact .bind (textNodes_written refs cs) fun ns hns =>
            .bind hrest fun ms hms => .pure (hns.block.append hms)
      | _ =>
          exact .bind (blockNodes_written refs _) fun ns hns =>
            .bind hrest fun ms hms => .pure (hns.append hms)

theorem itemListNodes_written (refs : References) :
    ∀ items : List (List Block), Makes (AllPlaced IsLineCall .item) (itemListNodes refs items)
  | [] => .pure .nil
  | item :: rest =>
      .bind (itemNodes_written refs item) fun ns hns =>
        .bind (itemListNodes_written refs rest) fun ms hms =>
          .pure (.cons ⟨⟨rfl, fun _ => by simp [isListItem], nofun⟩, hns⟩ hms)

end

/-! ## Documents -/

theorem readMarkdown_written (index : LineIndex) (ls : List (List Char)) (number indent : Nat) :
    AllPlaced IsLineCall .block (readMarkdown index ls number indent).result := by
  unfold readMarkdown
  dsimp only
  split
  · exact .nil
  · exact (blockListNodes_written _ _ _ trivial).1

theorem readCallLine_written (index : LineIndex) (c : BlockCall) (indent : Nat) :
    AllPlaced IsLineCall .line (readCallLine index c indent).result := by
  unfold readCallLine
  dsimp only
  split
  · exact .nil
  · exact (inlineNodes_written _ _ trivial).1

/-- A block call is in order, with the text on its line among blocks or in a paragraph. -/
theorem callNode_written (index : LineIndex) (c : BlockCall) (indent : Nat)
    {onLine below : List Node} (honLine : AllPlaced IsLineCall .line onLine)
    (hbelow : AllPlaced IsLineCall .block below) :
    Placed (Suits IsLineCall) .block (callNode index c indent onLine below) := by
  have hfirst : AllPlaced IsLineCall .block (if onLine.isEmpty || c.body.isEmpty then onLine
      else [.paragraph onLine (coverNodes onLine)]) := by
    split
    · exact honLine.block
    · exact .single (paragraph_written honLine _)
  refine placed_block rfl rfl fun m hm => ?_
  rcases List.mem_append.mp hm with hm | hm
  · obtain ⟨a, -, rfl⟩ := List.mem_map.mp hm
    exact placed_argument a
  · exact hfirst.append hbelow m hm

/-- **Lines read as nodes in order**: by induction on their number, as the body of a call has
fewer. -/
theorem readParts_written (index : LineIndex) (number indent : Nat) (ls : List (List Char)) :
    AllPlaced IsLineCall .block (readParts index number indent ls).result := by
  induction hlength : ls.length using Nat.strong_induction_on generalizing number indent ls with
  | _ n ih =>
    subst hlength
    rw [readParts_eq]
    intro m hm
    obtain ⟨p, hp, hm⟩ := List.mem_flatMap.mp hm
    obtain ⟨s, hs, rfl⟩ := List.mem_map.mp hp
    cases s with
    | markdown ms number' => exact readMarkdown_written index ms number' indent m hm
    | call c =>
        rw [List.mem_singleton.mp hm]
        refine callNode_written index c indent (readCallLine_written index c indent) ?_
        exact ih _ (by simpa using body_length_lt hs) _ _ _ rfl

/-- **A source reads as nodes in order.** -/
theorem read_written (source : String) :
    AllPlaced IsLineCall .block (read source).result.children :=
  readParts_written _ _ _ _

/-- **The text of an argument reads as nodes within a line.** -/
theorem readLine_written (text : String) : AllPlaced IsLineCall .line (readLine text) :=
  (inlineNodes_written _ _ trivial).1

/-- The text of an argument is in order as such, whatever may stand within a line. -/
theorem readLine_argument {letIn : Node → Prop} (text : String) :
    AllPlaced letIn .argument (readLine text) :=
  fun n hn => placed_argument_of_line (readLine_written text n hn) rfl

end Livedoc.Document
