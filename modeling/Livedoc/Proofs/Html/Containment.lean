import Livedoc.Proofs.Html.Elements
import Livedoc.Proofs.Html.ReadBack
import Livedoc.Proofs.Tree.Placed

/-!
# Blocks in paragraphs, and diagrams

A paragraph of a page comes from a paragraph of the document that stands among blocks, or from a run
of nodes within a line that stands in a document or in a quotation.  A block within a line is
written like any other, so it breaks the paragraph that it comes into.  Paragraphs, emphasis and
links pass on what is in them; everything else that stands within a line holds no block or is one
(`Node.bringsBlock`).  So a page has a broken paragraph exactly if a node that starts one brings a
block into it (`render_breaksParagraph`).

Code that stands among blocks becomes a preformatted text, and a diagram if its language says so.
Within a line it becomes code of any language.  A page loads the script that draws diagrams for
either of them, and has something to draw for the first only (`render_diagrams`).
-/

namespace Livedoc.Tree.Node

open Livedoc.Text

/-! ## Blocks within lines -/

mutual

/-- Whether a node that stands within a line brings a block into it. -/
def bringsBlock : Node → Bool
  | heading .. | list .. | blockquote .. | thematicBreak _ | table .. => true
  | row .. | column .. | grid .. | center .. => true
  | paragraph cs _ | emphasis cs _ _ | link _ cs _ _ => bringBlock cs
  | _ => false

/-- Whether one of several nodes brings a block into the line. -/
def bringBlock : List Node → Bool
  | [] => false
  | n :: rest => n.bringsBlock || bringBlock rest

end

theorem bringBlock_eq_any (ns : List Node) : bringBlock ns = ns.any bringsBlock := by
  induction ns with
  | nil => rfl
  | cons n rest ih => rw [bringBlock, ih, List.any_cons]

/-- A node that makes paragraphs of what stands within a line. -/
def wraps : Node → Bool
  | document .. | blockquote .. => true
  | _ => false

/-- Whether a child of a node starts a paragraph. -/
def startsParagraph (n c : Node) : Bool :=
  !n.holdsLine && (c.isParagraph || n.wraps && c.isInline)

/-- Whether a node in the tree starts a paragraph and brings a block into it. -/
def breaks (n : Node) : Bool :=
  n.walk.any fun m => m.children.any fun c => m.startsParagraph c && c.bringsBlock

/-! ## Diagrams -/

/-- Code that describes a diagram. -/
def isDiagram : Node → Bool
  | code _ language _ _ => language == some "mermaid"
  | _ => false

/-- Whether a diagram in the tree does not stand within a line. -/
def draws (n : Node) : Bool := n.walk.any fun m => !m.holdsLine && m.children.any isDiagram

theorem any_walk (f : Node → Bool) (n : Node) :
    n.walk.any f = (f n || n.children.any fun c => c.walk.any f) := by
  rw [walk_eq, List.any_cons, walkAll_eq_flatMap, List.any_flatMap]

theorem breaks_eq (n : Node) : n.breaks =
    ((n.children.any fun c => n.startsParagraph c && c.bringsBlock) || n.children.any breaks) :=
  any_walk _ n

theorem draws_eq (n : Node) :
    n.draws = (!n.holdsLine && n.children.any isDiagram || n.children.any draws) :=
  any_walk _ n

theorem any_and (b : Bool) (f : Node → Bool) (ns : List Node) :
    (ns.any fun c => b && f c) = (b && ns.any f) := by
  cases b <;> simp

theorem any_or (f g : Node → Bool) (ns : List Node) :
    (ns.any fun c => f c || g c) = (ns.any f || ns.any g) := by
  induction ns with
  | nil => rfl
  | cons n rest ih =>
      rw [List.any_cons, List.any_cons, List.any_cons, ih]
      ac_rfl

/-! ## Trees that are written -/

/-- A node that is written for what it is, with list items in it only if it is a list. -/
structure Regular (n : Node) : Prop where
  shown : n.IsShown
  readable : n.isReadable = true
  items : n.isList = false → ∀ c ∈ n.children, c.isListItem = false

/-- A node with regular nodes only. -/
def Orderly (n : Node) : Prop := ∀ m ∈ n.walk, m.Regular

namespace Orderly

variable {n : Node}

theorem self (h : n.Orderly) : n.Regular := h n (mem_walk_self n)

theorem child (h : n.Orderly) : ∀ c ∈ n.children, c.Orderly :=
  fun c hc m hm => h m (mem_walk.mpr (.inr ⟨c, hc, hm⟩))

/-- A diagram is a block of code. -/
theorem isInline_of_isDiagram (h : n.Orderly) (hn : n.isDiagram = true) : n.isInline = false := by
  have hread := h.self.readable
  cases n with
  | code content language inline s =>
      rw [isDiagram, beq_iff_eq] at hn
      subst hn
      simpa [isReadable, isInline] using (Bool.and_eq_true_iff.mp hread).1
  | _ => cases hn

end Orderly

end Livedoc.Tree.Node

/-- A document of regular nodes, with list items in lists only. -/
def Livedoc.Tree.Document.Orderly (d : Document) : Prop :=
  ∀ n ∈ d.children, n.Orderly ∧ n.isListItem = false

namespace Livedoc.Html

namespace Gives

variable {α : Type} {w : Writing α} {P Q : α → Prop}

/-- Two properties of one result. -/
theorem and (hP : Gives w P) (hQ : Gives w Q) : Gives w fun a => P a ∧ Q a :=
  fun wanted => ⟨hP wanted, hQ wanted⟩

theorem mono (hP : Gives w P) (hPQ : ∀ a, P a → Q a) : Gives w Q :=
  fun wanted => hPQ _ (hP wanted)

end Gives

end Livedoc.Html

namespace Livedoc.Html.Node

open Livedoc.Text Livedoc.Tree Livedoc.Tree.Node Markup

/-! ## Several nodes -/

section Several

variable {q : Markup → Bool} {g : Node → Bool} {ns : List Node}

/-- Of nodes within a line an element occurs in what one of them becomes. -/
theorem markups_occurs (h : ∀ n ∈ ns, Gives (markup true n) fun ms => occurs q ms = g n) :
    Gives (markups ns) fun ms => occurs q ms = ns.any g := by
  induction ns with
  | nil =>
      rw [markups]
      exact .pure (by simp)
  | cons n rest ih =>
      rw [List.forall_mem_cons] at h
      rw [markups]
      refine h.1.bind fun first hfirst => (ih h.2).map fun others hothers => ?_
      simp [hfirst, hothers]

/-- Of blocks an element occurs in one of them or in a run of nodes within a line.  A run is flushed
before the next block and at the end, and `f` says what comes of it. -/
theorem blocksFrom_occurs {f : List Markup → Bool} {wrap : Bool}
    (happend : ∀ ms others, f (ms ++ others) = (f ms || f others)) (hnil : f [] = false)
    (hrun : ∀ run, occurs q (runOf wrap run) = f run)
    (hinline : ∀ n ∈ ns, n.isInline = true → Gives (markup true n) fun ms => f ms = g n)
    (hblock : ∀ n ∈ ns, n.isInline = false → Gives (markup false n) fun ms => occurs q ms = g n)
    (run : List Markup) :
    Gives (blocksFrom wrap run ns) fun blocks => blocks.any (occurs q) = (f run || ns.any g) := by
  induction ns generalizing run with
  | nil =>
      rw [blocksFrom]
      exact .pure (by simp [hrun])
  | cons n rest ih =>
      rw [List.forall_mem_cons] at hinline hblock
      rw [blocksFrom]
      cases hn : n.isInline with
      | true =>
          refine (hinline.1 hn).bind fun next hnext => ?_
          intro wanted
          rw [if_pos rfl, ih hinline.2 hblock.2 (run ++ next) wanted, happend, hnext,
            List.any_cons, Bool.or_assoc]
      | false =>
          refine (hblock.1 hn).bind fun next hnext => ?_
          rw [if_neg (by simp)]
          refine (ih hinline.2 hblock.2 []).map fun blocks hblocks => ?_
          simp [hrun, hnext, hblocks, hnil]

variable (hq : IsRare q)
include hq

theorem itemMarkups_occurs
    (h : ∀ n ∈ ns, Gives (markup n.isInline n) fun ms => occurs q ms = g n) :
    Gives (itemMarkups ns) fun items => items.any (occurs q) = ns.any g := by
  induction ns with
  | nil =>
      rw [itemMarkups]
      exact .pure (by simp)
  | cons n rest ih =>
      rw [List.forall_mem_cons] at h
      rw [itemMarkups]
      refine h.1.bind fun content hcontent => (ih h.2).map fun others hothers => ?_
      simp [hq.occurs_asItem, hcontent, hothers]

theorem cellMarkups_occurs {tag : Tag} (htag : tag.isRare = false) {cells : List (List Node)}
    (h : ∀ n ∈ cells.flatten, Gives (markup true n) fun ms => occurs q ms = g n)
    (alignment : List (Option String)) :
    Gives (cellMarkups tag alignment cells) fun ms => occurs q ms = cells.flatten.any g := by
  induction cells generalizing alignment with
  | nil =>
      rw [cellMarkups]
      exact .pure (by simp)
  | cons cell rest ih =>
      rw [List.flatten_cons, List.forall_mem_append] at h
      rw [cellMarkups]
      refine (markups_occurs h.1).bind fun content hcontent => ?_
      refine (ih h.2 alignment.tail).map fun others hothers => ?_
      simp [hq.occursIn_cellOf htag, hcontent, hothers]

theorem rowMarkups_occurs {rows : List (List (List Node))}
    (h : ∀ n ∈ rows.flatten.flatten, Gives (markup true n) fun ms => occurs q ms = g n)
    (alignment : List (Option String)) :
    Gives (rowMarkups alignment rows) fun cells =>
      cells.any (occurs q) = rows.flatten.flatten.any g := by
  induction rows with
  | nil =>
      rw [rowMarkups]
      exact .pure (by simp)
  | cons cells rest ih =>
      rw [List.flatten_cons, List.flatten_append, List.forall_mem_append] at h
      rw [rowMarkups]
      refine (cellMarkups_occurs hq rfl h.1 alignment).bind fun first hfirst => ?_
      refine (ih h.2).map fun others hothers => ?_
      simp [hfirst, hothers]

end Several

/-! ## The blocks in lines -/

theorem isBlock_ofLevel (level : Int) (attributes : List Attribute) (children : List Markup) :
    isBlock (.element (.ofLevel level) attributes children) = true := by
  rw [isBlock]
  unfold Tag.ofLevel
  split_ifs <;> decide

/-- **A node brings a block into the line** that it is written in exactly if it says so. -/
theorem markup_brings {n : Node} (h : n.Orderly) (hitem : n.isListItem = false) :
    Gives (markup true n) fun ms => occurs isBlock ms = n.bringsBlock := by
  induction n using children_induction with
  | h n ih =>
      have hline (hlist : n.isList = false) : ∀ c ∈ n.children, Gives (markup true c) fun ms =>
          occurs isBlock ms = c.bringsBlock :=
        fun c hc => ih c hc (h.child c hc) (h.self.items hlist c hc)
      cases n with
      | text | lineBreak | thematicBreak =>
          rw [markup]
          exact .pure (by simp +decide [bringsBlock, occursIn_void, isBlock])
      | image =>
          rw [markup]
          exact .pure (by simp +decide [bringsBlock, imageMarkup, occursIn_void, isBlock])
      | code | math =>
          rw [markup]
          exact .pure (by simp +decide [bringsBlock, occursIn_element, isBlock])
      | emphasis cs strong s =>
          rw [markup, bringsBlock, bringBlock_eq_any]
          exact (markups_occurs (hline rfl)).map fun ms hms => by
            cases strong <;> simp +decide [occursIn_element, isBlock, hms, children]
      | link url cs title s =>
          rw [markup, bringsBlock, bringBlock_eq_any]
          exact (markups_occurs (hline rfl)).map fun ms hms => by
            simp +decide [occursIn_element, isBlock, hms, children]
      | paragraph cs s =>
          rw [markup, bringsBlock, bringBlock_eq_any]
          exact (markups_occurs (hline rfl)).map fun ms hms => by simp [hms, children]
      | heading level cs s =>
          rw [markup, bringsBlock]
          refine Gives.trivial.bind fun id _ => Gives.trivial.map fun ms _ => ?_
          simp [occursIn_element, isBlock_ofLevel]
      | list ordered cs start s =>
          rw [markup, bringsBlock]
          exact Gives.trivial.map fun items _ => by
            cases ordered <;> simp +decide [listOf, occursIn_element, isBlock]
      | blockquote =>
          rw [markup, bringsBlock]
          exact Gives.trivial.map fun blocks _ => by
            simp +decide [quotationOf, occursIn_element, isBlock]
      | table =>
          rw [markup, bringsBlock]
          exact Gives.trivial.bind fun heads _ => Gives.trivial.map fun others _ => by
            simp +decide [tableOf, onOwnLines, occursIn_element, isBlock]
      | row | column | grid | center =>
          rw [markup, bringsBlock]
          exact Gives.trivial.map fun blocks _ => by
            simp +decide [layoutOf, occursIn_element, isBlock]
      | listItem => cases hitem
      | document | call | reference | conditional | loop =>
          rw [markup]
          exact .pure (by simp [bringsBlock])

/-! ## Where elements come from -/

/-- A node that becomes a paragraph or a preformatted text among blocks, and neither of them within
a line. -/
def standsAlone : Node → Bool
  | .paragraph .. | .code .. => true
  | _ => false

/-- A kind of elements `q` that come from paragraphs and code among blocks (`own`), and from nodes
within a line that are made paragraphs.  A paragraph has one of them exactly if its content has an
element of the kind `p`, which a node within a line may bring (`brings`).  What a node becomes
within a line has the elements of the nodes below it (`deep`). -/
structure Arises (q p : Markup → Bool) (own brings deep : Node → Bool) : Prop extends IsRare q where
  wrapped : ∀ ms, occurs q (paragraphOf ms) = occurs p ms
  covers : ∀ ms, (occurs p ms || occurs q ms) = occurs p ms
  line : ∀ {n : Node}, n.Orderly → n.isListItem = false →
    (Gives (markup true n) fun ms => occurs q ms = deep n) →
    Gives (markup true n) fun ms => occurs p ms = brings n
  below : ∀ n : Node, deep n =
    ((!n.holdsLine && n.children.any fun c => own c || n.wraps && c.isInline && brings c) ||
      n.children.any deep)
  paragraph : ∀ cs s, (own (.paragraph cs s) || cs.any deep) = (cs.any brings || cs.any deep)
  code : ∀ {content language inline s}, isReadable (.code content language inline s) = true →
    occursIn q (codeBlock content language) = own (.code content language inline s)
  alone : ∀ {n}, standsAlone n = false → own n = false
  block : ∀ {n : Node}, n.Orderly → n.isInline = true → own n = false

namespace Arises

variable {q p : Markup → Bool} {own brings deep : Node → Bool} {n : Node} {ns : List Node}
variable (hq : Arises q p own brings deep)
include hq

theorem eq_deep (h : standsAlone n = false) (within : Bool) :
    (!within && own n || deep n) = deep n := by
  rw [hq.alone h, Bool.and_false, Bool.false_or]

theorem deep_of_leaf (h : n.children = []) : deep n = false := by
  simp [hq.below n, h]

theorem deep_of_holdsLine (h : n.holdsLine = true) : deep n = n.children.any deep := by
  simp [hq.below n, h]

/-- Below a node that makes no paragraphs, blocks count for themselves and what is in them. -/
theorem deep_of_not_wraps (hline : n.holdsLine = false) (h : n.wraps = false) :
    deep n = n.children.any fun c => own c || deep c := by
  simp [hq.below n, hline, h, any_or]

theorem deep_of_wraps (h : n.wraps = true) :
    deep n = n.children.any fun c => own c || c.isInline && brings c || deep c := by
  have hline : n.holdsLine = false := by
    cases n with
    | document | blockquote => rfl
    | _ => cases h
  simp [hq.below n, hline, h, any_or]

theorem occurs_runOf (wrap : Bool) (content : List Markup) : occurs q (runOf wrap content) =
    if wrap then occurs p content else occurs q content := by
  cases wrap <;> simp [runOf, hq.wrapped]

theorem any_blocksFrom_of_markup (wrap : Bool) (h : ∀ n ∈ ns, n.Orderly)
    (hitems : ∀ n ∈ ns, n.isListItem = false)
    (hmarkup : ∀ n ∈ ns, ∀ within, Gives (markup within n) fun ms =>
      occurs q ms = (!within && own n || deep n)) :
    Gives (blocksFrom wrap [] ns) fun blocks => blocks.any (occurs q) =
      ns.any fun c => own c || wrap && c.isInline && brings c || deep c := by
  -- what stands in a run within a line counts by `p` if the run becomes a paragraph
  let f (run : List Markup) : Bool := if wrap then occurs p run else occurs q run
  have hrun : Gives (blocksFrom wrap [] ns) fun blocks => blocks.any (occurs q) =
      (f [] || ns.any fun c => own c || wrap && c.isInline && brings c || deep c) := by
    refine blocksFrom_occurs (fun ms others => ?_) ?_ (hq.occurs_runOf wrap)
      (fun n hn hinline => ?_) (fun n hn hinline => ?_) []
    · cases wrap <;> simp
    · cases wrap <;> simp
    · have hdeep : Gives (markup true n) fun ms => occurs q ms = deep n := by
        simpa using hmarkup n hn true
      refine (Gives.and (hq.line (h n hn) (hitems n hn) hdeep) hdeep).mono fun ms hboth => ?_
      rw [hq.block (h n hn) hinline, hinline, ← hboth.1, ← hboth.2]
      cases wrap <;> simp [hq.covers]
    · simpa [hinline] using hmarkup n hn false
  cases wrap <;> simpa [f] using hrun

/-- **Where the elements of what a node becomes come from**: from the node if it stands among
blocks, and from the nodes below it. -/
theorem occurs_markup (h : n.Orderly) (within : Bool) : Gives (markup within n) fun ms =>
    occurs q ms = (!within && own n || deep n) := by
  induction n using children_induction generalizing within with
  | h n ih =>
      have hchild : ∀ c ∈ n.children, ∀ within, Gives (markup within c) fun ms =>
          occurs q ms = (!within && own c || deep c) := fun c hc => ih c hc (h.child c hc)
      have hline : ∀ c ∈ n.children, Gives (markup true c) fun ms => occurs q ms = deep c :=
        fun c hc => by simpa using hchild c hc true
      have hblock : ∀ c ∈ n.children, Gives (markup c.isInline c) fun ms =>
          occurs q ms = (own c || deep c) := fun c hc => by
        have hown : (!c.isInline && own c) = own c := by
          cases hinline : c.isInline with
          | false => simp
          | true => simp [hq.block (h.child c hc) hinline]
        simpa [hown] using hchild c hc c.isInline
      have hlines := markups_occurs hline
      have hblocks (wrap : Bool) (hlist : n.isList = false) :=
        hq.any_blocksFrom_of_markup wrap h.child (h.self.items hlist) hchild
      have hread := h.self.readable
      have hdynamic := h.self.shown.1
      cases n with
      | text | lineBreak | thematicBreak =>
          rw [markup, hq.eq_deep rfl, hq.deep_of_leaf rfl]
          exact .pure (by simp [hq.occursIn_void])
      | image =>
          rw [markup, hq.eq_deep rfl, hq.deep_of_leaf rfl]
          exact .pure (by simp [imageMarkup, hq.occursIn_void])
      | code =>
          rw [markup, hq.deep_of_leaf rfl]
          refine .pure ?_
          cases within with
          | true => simp +decide [hq.occursIn_element]
          | false => simp [hq.code hread]
      | math =>
          rw [markup, hq.eq_deep rfl, hq.deep_of_leaf rfl]
          refine .pure ?_
          cases within <;> simp +decide [hq.occursIn_element]
      | emphasis cs strong s =>
          rw [markup, hq.eq_deep rfl, hq.deep_of_holdsLine rfl]
          exact hlines.map fun ms hms => by
            cases strong <;> simp +decide [hq.occursIn_element, hms]
      | link url cs title s =>
          rw [markup, hq.eq_deep rfl, hq.deep_of_holdsLine rfl]
          exact hlines.map fun ms hms => by simp +decide [hq.occursIn_element, hms]
      | paragraph cs s =>
          rw [markup, hq.deep_of_holdsLine rfl]
          have hbrings := markups_occurs fun c hc =>
            hq.line (h.child c hc) (h.self.items rfl c hc) (hline c hc)
          refine Gives.map (Gives.and hbrings hlines) fun ms hboth => ?_
          obtain ⟨hbrings, hms⟩ := hboth
          rw [children] at hbrings hms ⊢
          cases within with
          | true => simp [hms]
          | false =>
              rw [if_neg Bool.false_ne_true, hq.wrapped, Bool.not_false, Bool.true_and,
                hq.paragraph, ← hbrings, ← hms, hq.covers]
      | heading level cs s =>
          rw [markup, hq.eq_deep rfl, hq.deep_of_holdsLine rfl]
          refine Gives.trivial.bind fun id _ => hlines.map fun ms hms => ?_
          simp [hq.occursIn_element (Tag.isRare_ofLevel level), hms]
      | list ordered cs start s =>
          rw [markup, hq.eq_deep rfl, hq.deep_of_not_wraps rfl rfl]
          exact (itemMarkups_occurs hq.toIsRare hblock).map fun items hitems => by
            simp [hq.occursIn_listOf, hitems]
      | listItem cs s =>
          rw [markup, itemOf, hq.eq_deep rfl, hq.deep_of_not_wraps rfl rfl]
          refine Gives.map (P := fun m => occursIn q m = cs.any fun c => own c || deep c) ?_
            fun m hm => by simp [hm, children]
          split
          · next hinline =>
              have hinner : ∀ c ∈ cs, Gives (markup true c) fun ms =>
                  occurs q ms = (own c || deep c) :=
                fun c hc => List.all_eq_true.mp hinline c hc ▸ hblock c hc
              exact (markups_occurs hinner).map fun ms hms => by
                simp +decide [hq.occursIn_element, hms]
          · exact (hblocks false rfl).map fun blocks hblocks => by
              simp +decide [hq.occursIn_element, hblocks, children]
      | blockquote cs quoteType s =>
          rw [markup, hq.eq_deep rfl, hq.deep_of_wraps rfl]
          exact (hblocks true rfl).map fun blocks hblocks => by
            simp [hq.occursIn_quotationOf, hblocks]
      | table headers rows alignment s =>
          rw [markup, hq.eq_deep rfl, hq.deep_of_holdsLine rfl]
          have hheads : ∀ c ∈ headers.flatten, Gives (markup true c) fun ms =>
              occurs q ms = deep c := fun c hc => hline c (List.mem_append_left _ hc)
          have hcells : ∀ c ∈ rows.flatten.flatten, Gives (markup true c) fun ms =>
              occurs q ms = deep c := fun c hc => hline c (List.mem_append_right _ hc)
          refine (cellMarkups_occurs hq.toIsRare rfl hheads alignment).bind fun heads hheads => ?_
          refine (rowMarkups_occurs hq.toIsRare hcells alignment).map fun others hothers => ?_
          simp [hq.occursIn_tableOf, hheads, hothers, children]
      | row | column | grid | center =>
          rw [markup, hq.eq_deep rfl, hq.deep_of_not_wraps rfl rfl]
          exact (hblocks false rfl).map fun blocks hblocks => by
            simp [hq.occursIn_layoutOf, hblocks]
      | document => cases hread
      | call | reference | conditional | loop => cases hdynamic

/-- Blocks have what comes from them, what nodes within a line bring if they are made paragraphs,
and what comes from the nodes below. -/
theorem any_blocksFrom (wrap : Bool) (h : ∀ n ∈ ns, n.Orderly)
    (hitems : ∀ n ∈ ns, n.isListItem = false) :
    Gives (blocksFrom wrap [] ns) fun blocks => blocks.any (occurs q) =
      ns.any fun c => own c || wrap && c.isInline && brings c || deep c :=
  hq.any_blocksFrom_of_markup wrap h hitems fun n hn => hq.occurs_markup (h n hn)

end Arises

/-! ## The diagrams in markup -/

/-- A kind of elements that of what nodes become are the diagrams, or nothing. -/
structure Sees (q : Markup → Bool) (diagrams : Bool) : Prop extends IsRare q where
  paragraph : ∀ {attributes children}, q (.element .p attributes children) = false
  code : ∀ {children}, q (.element .pre [] children) = false
  diagram : ∀ {s}, q (.element .pre [classed "mermaid"] [.text s]) = diagrams

section Diagrams

variable {q : Markup → Bool} {diagrams : Bool} {ns : List Node}

theorem Sees.occurs_paragraphOf (hq : Sees q diagrams) (content : List Markup) :
    occurs q (paragraphOf content) = occurs q content := by
  rw [← occurs_trim q content, paragraphOf]
  split
  · next h => rw [h]
  · next inner hinner => simp [occursIn_element, hq.paragraph]

theorem Sees.occursIn_codeBlock (hq : Sees q diagrams) (content : String)
    (language : Option String) : occursIn q (codeBlock content language) =
      (diagrams && strip (language.getD "") == "mermaid") := by
  unfold codeBlock
  dsimp only
  split
  · next h => simp [occursIn_element, hq.diagram, h]
  · next h => simp +decide [occursIn_element, hq.code, hq.element, h]

/-- Diagrams come from the code that describes one. -/
theorem Sees.arises (hq : Sees q diagrams) :
    Arises q q (fun n => diagrams && n.isDiagram) (fun n => diagrams && n.draws)
      (fun n => diagrams && n.draws) where
  toIsRare := hq.toIsRare
  wrapped := hq.occurs_paragraphOf
  covers ms := Bool.or_self _
  line _ _ h := h
  below n := by
    -- what a run brings is below the node anyway
    have hrun : ((n.children.any fun c => n.wraps && c.isInline && (diagrams && c.draws)) ||
        n.children.any fun c => diagrams && c.draws) =
        n.children.any fun c => diagrams && c.draws := by
      rw [← any_or]
      congr
      funext c
      cases (diagrams && c.draws) <;> simp
    rw [draws_eq]
    cases n.holdsLine with
    | true => simp [any_and]
    | false => rw [Bool.not_false, Bool.true_and, Bool.true_and, any_or, Bool.or_assoc, hrun,
        Bool.and_or_distrib_left, any_and, any_and]
  paragraph cs s := by simp [isDiagram]
  code {content language inline s} hread := by
    rw [hq.occursIn_codeBlock, isDiagram]
    cases language with
    | none => simp +decide
    | some language =>
        have hstrip : strip language = language := by
          simpa [isReadable] using (Bool.and_eq_true_iff.mp hread).2
        simp [hstrip]
  alone {n} h := by
    cases n with
    | code => cases h
    | _ => simp [isDiagram]
  block {n} h hinline := by
    cases hn : n.isDiagram with
    | false => simp
    | true => simp [h.isInline_of_isDiagram hn] at hinline

/-- The diagrams among blocks are the blocks that are some, and those in them. -/
theorem blocksFrom_draws (hq : Sees q diagrams) (wrap : Bool) (h : ∀ n ∈ ns, n.Orderly)
    (hitems : ∀ n ∈ ns, n.isListItem = false) :
    Gives (blocksFrom wrap [] ns) fun blocks =>
      blocks.any (occurs q) = ns.any fun c => diagrams && (c.isDiagram || c.draws) :=
  (hq.arises.any_blocksFrom wrap h hitems).mono fun blocks hblocks => by
    rw [hblocks]
    congr
    funext c
    cases diagrams <;> cases c.isDiagram <;> cases c.draws <;> simp

end Diagrams

/-! ## Broken paragraphs -/

theorem isRare_isBroken : IsRare isBroken where
  element {tag _ _} h := by cases tag <;> first | rfl | cases h
  void := rfl

theorem occurs_isBlock_or_isBroken (ms : List Markup) :
    (occurs isBlock ms || occurs isBroken ms) = occurs isBlock ms := by
  cases hbroken : occurs isBroken ms with
  | false => rw [Bool.or_false]
  | true => rw [occurs_isBlock_of_isBroken ms hbroken, Bool.or_true]

/-- A paragraph is broken by a block in it. -/
theorem occurs_isBroken_paragraphOf (content : List Markup) :
    occurs isBroken (paragraphOf content) = occurs isBlock content := by
  rw [← occurs_trim isBlock content, paragraphOf]
  split
  · next h => simp [h]
  · next inner hinner => simp [occursIn_element, isBroken, occurs_isBlock_or_isBroken]

theorem occurs_isBroken_codeBlock (content : String) (language : Option String) :
    occursIn isBroken (codeBlock content language) = false := by
  unfold codeBlock
  dsimp only
  split <;> simp [occursIn_element, isBroken]

/-- Broken paragraphs come from the paragraphs that bring a block. -/
theorem arises_isBroken :
    Arises isBroken isBlock (fun n => n.isParagraph && n.bringsBlock) bringsBlock breaks where
  toIsRare := isRare_isBroken
  wrapped := occurs_isBroken_paragraphOf
  covers := occurs_isBlock_or_isBroken
  line h hitem _ := markup_brings h hitem
  below n := by
    rw [breaks_eq]
    simp only [startsParagraph, ← any_and, Bool.and_or_distrib_right, Bool.and_assoc]
  paragraph cs s := by simp [isParagraph, bringsBlock, bringBlock_eq_any]
  code _ := by rw [occurs_isBroken_codeBlock]; rfl
  alone {n} h := by
    cases n with
    | paragraph => cases h
    | _ => rfl
  block {n} _ hinline := by
    cases n with
    | paragraph => cases hinline
    | _ => rfl

/-- The broken paragraphs among blocks are the paragraphs that bring a block, with the nodes within
a line if they are made paragraphs, and those in the blocks. -/
theorem blocksFrom_breaks {ns : List Node} (wrap : Bool) (h : ∀ n ∈ ns, n.Orderly)
    (hitems : ∀ n ∈ ns, n.isListItem = false) :
    Gives (blocksFrom wrap [] ns) fun blocks => blocks.any (occurs isBroken) =
      ns.any fun c => (c.isParagraph || wrap && c.isInline) && c.bringsBlock || c.breaks := by
  simpa only [Bool.and_or_distrib_right] using arises_isBroken.any_blocksFrom wrap h hitems

end Livedoc.Html.Node

namespace Livedoc.Html

open Livedoc.Text Livedoc.Tree Livedoc.Tree.Node Markup

/-! ## Pages -/

section Pages

variable {q : Markup → Bool} {g : Node → Bool}

theorem mem_of_mem_betweenRules (ns : List Node) :
    ∀ group ∈ betweenRules ns, ∀ n ∈ group, n ∈ ns := by
  fun_induction betweenRules ns with
  | case1 => simp
  | case2 span rest ih =>
      intro group hgroup n hn
      rcases List.mem_cons.mp hgroup with rfl | hgroup
      · cases hn
      · exact List.mem_cons_of_mem _ (ih group hgroup n hn)
  | case3 m rest _ hnone ih => simp
  | case4 m rest _ first groups hsome ih =>
      rw [hsome] at ih
      intro group hgroup n hn
      rcases List.mem_cons.mp hgroup with rfl | hgroup
      · rcases List.mem_cons.mp hn with rfl | hn
        · exact List.mem_cons_self
        · exact List.mem_cons_of_mem _ (ih first (by simp) n hn)
      · exact List.mem_cons_of_mem _ (ih group (by simp [hgroup]) n hn)

/-- Slides are made of the nodes of the document. -/
theorem mem_of_mem_slideGroups {group ns : List Node} (hgroup : group ∈ slideGroups ns) :
    ∀ n ∈ group, n ∈ ns := by
  unfold slideGroups at hgroup
  split at hgroup
  · rw [List.mem_singleton.mp hgroup]
    simp
  · exact mem_of_mem_betweenRules ns group (List.mem_filter.mp hgroup).1

/-- Horizontal rules do not answer, so slides answer as the document does. -/
theorem any_slideGroups (hrule : ∀ span, g (.thematicBreak span) = false) (ns : List Node) :
    ((slideGroups ns).any fun group => group.any g) = ns.any g := by
  have hslides : (slideGroups ns).flatMap (List.filter g) = ns.filter g :=
    flatMap_slideGroups (g := fun n => if g n then [n] else []) rfl
      (fun n ns => by cases hn : g n <;> simp [hn]) (fun span => by simp [hrule]) ns
  have hany (ns : List Node) : (ns.filter g).any g = ns.any g := by simp [List.any_filter]
  rw [← hany ns, ← hslides, List.any_flatMap]
  simp only [hany]

variable (hq : IsRare q) {R : Node → Prop}
  (hblocks : ∀ ns, (∀ n ∈ ns, R n) →
    Gives (Node.blocksFrom true [] ns) fun blocks => blocks.any (occurs q) = ns.any g)
include hblocks

theorem contentOf_occurs {ns : List Node} (hns : ∀ n ∈ ns, R n) :
    Gives (contentOf ns) fun ms => occurs q ms = ns.any g := by
  refine (hblocks ns hns).bind fun blocks h => ?_
  split
  · exact .pure (by simpa using h)
  · exact .pure (by simpa using h)

include hq

theorem slideOf_occurs {ns : List Node} (hns : ∀ n ∈ ns, R n) :
    Gives (slideOf ns) fun ms => occurs q ms = ns.any g := by
  refine (contentOf_occurs hblocks hns).bind fun content h => ?_
  split
  · exact .pure (by simpa +decide [hq.occursIn_element] using h)
  · exact .pure (by simpa +decide [hq.occursIn_element] using h)

theorem slidesOf_occurs {groups : List (List Node)} (hgroups : ∀ group ∈ groups, ∀ n ∈ group, R n) :
    Gives (slidesOf groups) fun ms => occurs q ms = groups.any fun group => group.any g := by
  induction groups with
  | nil => exact .pure (by simp)
  | cons group groups ih =>
      rw [List.forall_mem_cons] at hgroups
      exact (slideOf_occurs hq hblocks hgroups.1).bind fun first hfirst =>
        (ih hgroups.2).map fun others hothers => by simp [hfirst, hothers]

/-- **The wrapper of a document holds what its nodes do**, as slides, paged or plain. -/
theorem wrappedContent_occurs (hrule : ∀ span, g (.thematicBreak span) = false) (type : String)
    {ns : List Node} (hns : ∀ n ∈ ns, R n) :
    Gives (wrappedContent type ns) fun m => occursIn q m = ns.any g := by
  unfold wrappedContent
  split
  · have hgroups : ∀ group ∈ slideGroups ns, ∀ n ∈ group, R n :=
      fun group hgroup n hn => hns n (mem_of_mem_slideGroups hgroup n hn)
    exact (slidesOf_occurs hq hblocks hgroups).map fun slides h => by
      rw [any_slideGroups hrule] at h
      simp +decide [hq.occursIn_element, h]
  · split
    · exact (contentOf_occurs hblocks hns).map fun content h => by
        simp +decide [hq.occursIn_element, h]
    · exact (contentOf_occurs hblocks hns).map fun content h => by
        simp +decide [hq.occursIn_element, h]

end Pages

/-- The scripts of a page. -/
def scriptsOf (p : Presentation) (diagrams : Bool) : List Markup :=
  dependencyScripts p.shownType diagrams ++ p.scripts.map scriptLink ++
    [startScript p.shownType diagrams]

theorem occursIn_scriptLink (q : Markup → Bool) (address : String) :
    occursIn q (scriptLink address) = q (scriptLink address) := by
  simp [scriptLink, Markup.occursIn_element]

theorem occursIn_startScript (q : Markup → Bool) (type : String) (diagrams : Bool) :
    occursIn q (startScript type diagrams) = q (startScript type diagrams) := by
  simp [startScript, Markup.occursIn_element]

theorem occurs_scriptsOf_eq_false {q : Markup → Bool}
    (h : ∀ attributes children, q (.element .script attributes children) = false)
    (p : Presentation) (diagrams : Bool) : occurs q (scriptsOf p diagrams) = false := by
  have hlink (address : String) : occursIn q (scriptLink address) = false :=
    (occursIn_scriptLink q address).trans (h _ _)
  have hstart : occursIn q (startScript p.shownType diagrams) = false :=
    (occursIn_startScript q _ _).trans (h _ _)
  simp only [scriptsOf, dependencyScripts, occurs_append, occurs_map_eq_false q hlink, occurs_cons,
    hlink, hstart, occurs_nil]
  split_ifs <;> simp [hlink]

/-- A page holds what its content and its scripts do. -/
theorem occurs_pageOf {q : Markup → Bool} (hq : IsRare q) (p : Presentation) (d : Document) :
    occurs q (pageOf p d) = (occursIn q (wrappedContent p.shownType d.children []).1 ||
      occurs q (scriptsOf p (hasDiagrams d))) := by
  have hlinks : occurs q (p.stylesheets.map styleLink) = false :=
    occurs_map_eq_false q (fun _ => hq.occursIn_void _ _) _
  have hproperties : occurs q (p.properties.map fun x => property x.1 x.2) = false :=
    occurs_map_eq_false q (fun _ => hq.occursIn_void _ _) _
  have hdependencies : occurs q (dependencyLinks p.shownType) = false := by
    unfold dependencyLinks
    split <;> simp [styleLink, hq.occursIn_void]
  have hhead : occursIn q (headOf p) = false := by
    simp only [headOf, hq.occursIn_onOwnLines (rfl : Tag.head.isRare = false), occurs_append,
      hlinks, hproperties, hdependencies]
    cases p.author with
    | none => simp +decide [property, hq.occursIn_element, hq.occursIn_void]
    | some a =>
        dsimp only
        split <;> simp +decide [property, hq.occursIn_element, hq.occursIn_void]
  rw [pageOf_eq, occurs_cons, hq.occursIn_element rfl]
  simp only [occurs_cons, occursIn_newline, hhead, bodyOf,
    hq.occursIn_element (rfl : Tag.body.isRare = false), occurs_flatMap_newline, occurs_append,
    occurs_nil, Bool.or_false, Bool.false_or, scriptsOf]
  ac_rfl

/-! ## What is rendered -/

/-- The markup that a document is rendered as. -/
def markupOf (d : Document) (p : Presentation) : List Markup :=
  if p.standalone then pageOf p d else (contentOf d.children []).1

/-- What is rendered is read with the elements of the markup. -/
theorem exists_readPieces?_render (d : Document) (p : Presentation) :
    ∃ body found, (render d p).toList = (if p.standalone then declaration.toList else []) ++ body ∧
      readPieces? body = some found ∧
      (∀ name attributes, .opening name attributes ∈ found ↔
        occurs (opensWith (.opening name attributes)) (markupOf d p) = true) ∧
      breaksParagraph [] found = occurs isBroken (markupOf d p) := by
  unfold render markupOf
  cases p.standalone with
  | true =>
      obtain ⟨found, hfound, hread⟩ := exists_readPieces?_printAll (plainVerbatims_pageOf p d)
      exact ⟨printAll (pageOf p d), found, by simp, hfound, hread⟩
  | false =>
      have hplain := plainVerbatims_of_solid (contentOf_gives d.children [])
      obtain ⟨found, hfound, hread⟩ := exists_readPieces?_printAll hplain
      exact ⟨printAll (contentOf d.children []).1, found, by simp, hfound, hread⟩

variable {d : Document}

/-- The paragraphs that are broken on a page are those of the document. -/
theorem occurs_isBroken_markupOf (h : d.Orderly) (p : Presentation) :
    occurs isBroken (markupOf d p) = d.toNode.breaks := by
  have hroot : d.toNode.breaks = d.children.any fun c =>
      (c.isParagraph || true && c.isInline) && c.bringsBlock || c.breaks := by
    rw [breaks_eq, Document.toNode]
    simp [children, startsParagraph, holdsLine, wraps, any_or]
  have hblocks : ∀ ns : List Node, (∀ n ∈ ns, n.Orderly ∧ n.isListItem = false) →
      Gives (Node.blocksFrom true [] ns) fun blocks => blocks.any (occurs isBroken) =
        ns.any fun c => (c.isParagraph || true && c.isInline) && c.bringsBlock || c.breaks :=
    fun ns hns => Node.blocksFrom_breaks true (fun n hn => (hns n hn).1) fun n hn => (hns n hn).2
  have hrare := Node.isRare_isBroken
  unfold markupOf
  split
  · rw [occurs_pageOf hrare, occurs_scriptsOf_eq_false fun _ _ => rfl, Bool.or_false, hroot,
      wrappedContent_occurs hrare hblocks
        (fun _ => by simp [isParagraph, isInline, breaks_eq, children]) p.shownType h []]
  · rw [contentOf_occurs hblocks h [], hroot]

/-- **A paragraph of what is rendered is broken** by a block in it exactly if a node of the document
starts a paragraph and brings a block into it. -/
theorem render_breaksParagraph (h : d.Orderly) (p : Presentation) :
    ∃ body found, (render d p).toList = (if p.standalone then declaration.toList else []) ++ body ∧
      readPieces? body = some found ∧ breaksParagraph [] found = d.toNode.breaks := by
  obtain ⟨body, found, hbody, hfound, -, hbreaks⟩ := exists_readPieces?_render d p
  exact ⟨body, found, hbody, hfound, hbreaks.trans (occurs_isBroken_markupOf h p)⟩

/-! ## Diagrams and the script that draws them -/

/-- The tag of a diagram. -/
def diagramTag : Piece := .opening "pre".toList [("class".toList, "mermaid".toList)]

/-- The tag that loads a script. -/
def scriptTag (address : String) : Piece :=
  .opening "script".toList [("src".toList, address.toList)]

/-- The address of the script that draws diagrams. -/
def diagramScript : String := diagramFile "dist/mermaid.min.js"

theorem opensWith_element {name : List Char} {written : List (List Char × List Char)} {tag : Tag}
    {attributes : List Attribute} {content : List Markup} :
    opensWith (.opening name written) (.element tag attributes content) = true ↔
      tag.text.toList = name ∧ attributes.map Attribute.written = written := by
  simp [opensWith, opening?, openingPiece]

theorem opensWith_void_eq_false {name : List Char} {written : List (List Char × List Char)}
    (h : ∀ tag : VoidTag, tag.text.toList ≠ name) {tag : VoidTag} {attributes : List Attribute} :
    opensWith (.opening name written) (.void tag attributes) = false := by
  simp [opensWith, opening?, openingPiece, h tag]

/-- A tag does not open an element of another name. -/
theorem opensWith_eq_false {name : List Char} {written : List (List Char × List Char)} {tag : Tag}
    (h : tag.text.toList ≠ name) {attributes : List Attribute} {content : List Markup} :
    opensWith (.opening name written) (.element tag attributes content) = false := by
  rw [Bool.eq_false_iff, ne_eq, opensWith_element]
  exact fun hname => h hname.1

theorem text_ne_pre {tag : Tag} (h : tag ≠ .pre) : tag.text.toList ≠ "pre".toList := by
  revert h
  cases tag <;> decide

theorem text_ne_script {tag : Tag} (h : tag ≠ .script) : tag.text.toList ≠ "script".toList := by
  revert h
  cases tag <;> decide

/-- The tag of a diagram opens diagrams and nothing else. -/
theorem sees_diagramTag : Node.Sees (opensWith diagramTag) true where
  element h := opensWith_eq_false (text_ne_pre (by rintro rfl; cases h))
  void := opensWith_void_eq_false fun tag => by cases tag <;> decide
  paragraph := opensWith_eq_false (text_ne_pre (by decide))
  code {content} := by
    rw [Bool.eq_false_iff, ne_eq, diagramTag, opensWith_element]
    exact fun h => nomatch h.2
  diagram := opensWith_element.mpr ⟨rfl, by decide⟩

/-- The tag of a script opens nothing that nodes become. -/
theorem sees_scriptTag (address : String) : Node.Sees (opensWith (scriptTag address)) false where
  element h := opensWith_eq_false (text_ne_script (by rintro rfl; cases h))
  void := opensWith_void_eq_false fun tag => by cases tag <;> decide
  paragraph := opensWith_eq_false (text_ne_script (by decide))
  code := opensWith_eq_false (text_ne_script (by decide))
  diagram := opensWith_eq_false (text_ne_script (by decide))

/-- The diagrams of what is rendered are those of the document that do not stand within a line. -/
theorem occurs_markupOf {q : Markup → Bool} {diagrams : Bool} (hq : Node.Sees q diagrams)
    (h : d.Orderly) (p : Presentation) : occurs q (markupOf d p) =
      (diagrams && d.toNode.draws || p.standalone && occurs q (scriptsOf p (hasDiagrams d))) := by
  have hroot : d.toNode.draws = (d.children.any isDiagram || d.children.any draws) := by
    rw [draws_eq, Document.toNode]
    simp [children, holdsLine]
  have hany (ns : List Node) : (ns.any fun c => diagrams && (c.isDiagram || c.draws)) =
      (diagrams && (ns.any isDiagram || ns.any draws)) := by rw [any_and, any_or]
  have hblocks : ∀ ns : List Node, (∀ n ∈ ns, n.Orderly ∧ n.isListItem = false) →
      Gives (Node.blocksFrom true [] ns) fun blocks => blocks.any (occurs q) =
        ns.any fun c => diagrams && (c.isDiagram || c.draws) :=
    fun ns hns => Node.blocksFrom_draws hq true (fun n hn => (hns n hn).1) fun n hn => (hns n hn).2
  unfold markupOf
  split
  · next hpage =>
      rw [occurs_pageOf hq.toIsRare, wrappedContent_occurs hq.toIsRare hblocks
        (fun _ => by simp [isDiagram, draws_eq, children]) p.shownType h [], hany, hroot, hpage,
        Bool.true_and]
  · next hfragment =>
      rw [contentOf_occurs hblocks h [], hany, hroot]
      simp [hfragment]

/-- A character that is written as another text is written as a reference. -/
theorem escapeAttributeChar_eq (c : Char) :
    escapeAttributeChar c = [c] ∨ '&' ∈ escapeAttributeChar c := by
  unfold escapeAttributeChar escapeChar
  split_ifs <;> simp

/-- A value that is written without a reference is written as it is. -/
theorem eq_of_escapeAttribute {cs ds : List Char} (h : escapeAttribute cs = ds) (hds : '&' ∉ ds) :
    cs = ds := by
  subst h
  induction cs with
  | nil => rfl
  | cons c cs ih =>
      rw [escapeAttribute, List.flatMap_cons, List.mem_append, not_or] at hds
      rw [escapeAttribute, List.flatMap_cons, (escapeAttributeChar_eq c).resolve_right hds.1]
      exact congrArg (c :: ·) (ih hds.2)

/-- A link to a script has the tag of the script at its address. -/
theorem opensWith_scriptLink (address : String) :
    opensWith (scriptTag diagramScript) (scriptLink address) = (address == diagramScript) := by
  have hescape : escapeAttribute diagramScript.toList = diagramScript.toList := by decide +kernel
  have hplain : '&' ∉ diagramScript.toList := by decide +kernel
  rw [Bool.eq_iff_iff, scriptTag, scriptLink, opensWith_element, beq_iff_eq]
  constructor
  · rintro ⟨-, h⟩
    simp only [List.map_cons, List.map_nil, Attribute.written, List.cons.injEq, Prod.mk.injEq,
      and_true] at h
    exact String.toList_inj.mp (eq_of_escapeAttribute h.2 hplain)
  · rintro rfl
    refine ⟨rfl, ?_⟩
    rw [List.map_cons, List.map_nil, Attribute.written, hescape]
    rfl

/-- A page loads the script for diagrams if it is told to, or if the document holds a diagram. -/
theorem occurs_scriptTag_scriptsOf (p : Presentation) (diagrams : Bool) :
    occurs (opensWith (scriptTag diagramScript)) (scriptsOf p diagrams) =
      (diagrams || p.scripts.contains diagramScript) := by
  have hlinks (addresses : List String) :
      occurs (opensWith (scriptTag diagramScript)) (addresses.map scriptLink) =
        addresses.contains diagramScript := by
    induction addresses with
    | nil => simp
    | cons address rest ih =>
        rw [List.map_cons, occurs_cons, occursIn_scriptLink, opensWith_scriptLink, ih,
          List.contains_cons, Bool.beq_comm]
  have hstart : occursIn (opensWith (scriptTag diagramScript)) (startScript p.shownType diagrams) =
      false := by
    rw [occursIn_startScript, Bool.eq_false_iff, ne_eq, scriptTag, startScript, opensWith_element]
    exact fun h => List.cons_ne_nil _ _ h.2.symm
  have hother : ∀ address ∈ [formulaFile "dist/katex.min.js", highlightFile "lib/highlight.min.js",
      slidesFile "dist/reveal.js"], (address == diagramScript) = false := by decide +kernel
  have hdependencies : occurs (opensWith (scriptTag diagramScript))
      (dependencyScripts p.shownType diagrams) = diagrams := by
    simp only [List.forall_mem_cons] at hother
    have hself : (diagramFile "dist/mermaid.min.js" == diagramScript) = true := beq_self_eq_true _
    by_cases htype : p.shownType = "slides" <;> cases diagrams <;>
      simp only [dependencyScripts, htype, reduceIte, Bool.false_eq_true, occurs_append,
        occurs_cons, occurs_nil, occursIn_scriptLink, opensWith_scriptLink, hother, hself,
        Bool.or_false, Bool.false_or]
  rw [scriptsOf, occurs_append, occurs_append, hlinks, hdependencies, occurs_cons, hstart,
    occurs_nil, Bool.or_false, Bool.or_false]

theorem hasDiagrams_eq (d : Document) : hasDiagrams d = d.toNode.walk.any isDiagram := rfl

/-- **A page holds a diagram** exactly if a diagram of the document does not stand within a line,
and it loads the script for diagrams exactly if the document holds one anywhere, or if it is told
to. -/
theorem render_diagrams (h : d.Orderly) {p : Presentation} (hpage : p.standalone = true) :
    ∃ body found, (render d p).toList = declaration.toList ++ body ∧
      readPieces? body = some found ∧ (diagramTag ∈ found ↔ d.toNode.draws = true) ∧
      (scriptTag diagramScript ∈ found ↔
        diagramScript ∈ p.scripts ∨ ∃ n ∈ d.toNode.walk, n.isDiagram = true) := by
  obtain ⟨body, found, hbody, hfound, htags, -⟩ := exists_readPieces?_render d p
  rw [if_pos hpage] at hbody
  refine ⟨body, found, hbody, hfound, ?_, ?_⟩
  · have hscripts : occurs (opensWith diagramTag) (scriptsOf p (hasDiagrams d)) = false :=
      occurs_scriptsOf_eq_false (fun _ _ => opensWith_eq_false (text_ne_pre (by decide))) _ _
    rw [diagramTag, htags, ← diagramTag, occurs_markupOf sees_diagramTag h, hscripts]
    simp
  · rw [scriptTag, htags, ← scriptTag, occurs_markupOf (sees_scriptTag _) h, hpage,
      occurs_scriptTag_scriptsOf, hasDiagrams_eq]
    simp [or_comm]

end Livedoc.Html
