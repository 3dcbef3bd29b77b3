import Livedoc.Html.Body
import Livedoc.Proofs.Html.Reader
import Livedoc.Proofs.Html.View

/-!
# What markup shows of a tree

Markup is trimmed, split into blocks, wrapped and put on lines, and white space goes and
comes on the way. Its substance is what none of this may touch: its contents without the
white space characters of its texts. Every function that builds markup is seen to keep the
substance of what it is given, and so the substance of the markup of a node is what the node
shows (`Node.markup_gives`): the contents of its texts, its code and its formulas in the
order of the tree, and no verbatim text. A dynamic node shows nothing, and neither does a
document within a tree.
-/

namespace Livedoc.Html

open Livedoc.Text Livedoc.Tree

/-! ## Substance -/

/-- What is no white space character of a text. -/
def isSolid : Char ⊕ String → Bool
  | .inl c => !Markup.isPlainBlank c
  | .inr _ => true

/-- A text without the white space of ASCII. -/
def unspaced (cs : List Char) : List Char := cs.filter fun c => !Markup.isPlainBlank c

@[simp] theorem unspaced_append (cs ds : List Char) :
    unspaced (cs ++ ds) = unspaced cs ++ unspaced ds := List.filter_append cs ds

/-- The substance of a text. -/
def solid (cs : List Char) : List (Char ⊕ String) := (unspaced cs).map .inl

theorem filter_isSolid (cs : List Char) : (cs.map .inl).filter isSolid = solid cs :=
  List.filter_map

@[simp] theorem solid_nil : solid [] = [] := rfl

@[simp] theorem solid_append (cs ds : List Char) : solid (cs ++ ds) = solid cs ++ solid ds := by
  rw [solid, unspaced_append, List.map_append]
  rfl

theorem solid_cons (c : Char) (cs : List Char) :
    solid (c :: cs) = if Markup.isPlainBlank c then solid cs else .inl c :: solid cs := by
  cases h : Markup.isPlainBlank c <;> simp [solid, unspaced, h]

/-- Contents with the substance of a text are the characters of a text, with other white
space at most. -/
theorem exists_of_filter_isSolid {contents : List (Char ⊕ String)} {cs : List Char}
    (h : contents.filter isSolid = solid cs) :
    ∃ ds : List Char, contents = ds.map .inl ∧ unspaced ds = unspaced cs := by
  unfold solid at h
  generalize unspaced cs = es at h ⊢
  induction contents generalizing es with
  | nil =>
      obtain rfl : es = [] := List.map_eq_nil_iff.mp h.symm
      exact ⟨[], rfl, rfl⟩
  | cons x contents ih =>
      obtain c | s := x
      · cases hc : Markup.isPlainBlank c with
        | true =>
            rw [List.filter_cons_of_neg (by simp [isSolid, hc])] at h
            obtain ⟨ds, rfl, hds⟩ := ih es h
            exact ⟨c :: ds, rfl, by rw [← hds]; simp [unspaced, hc]⟩
        | false =>
            rw [List.filter_cons_of_pos (by simp [isSolid, hc])] at h
            obtain ⟨e, es, rfl, he, hes⟩ := List.map_eq_cons_iff.mp h.symm
            obtain rfl := Sum.inl.inj he
            obtain ⟨ds, rfl, hds⟩ := ih es hes.symm
            exact ⟨e :: ds, rfl, by rw [← hds]; simp [unspaced, hc]⟩
      · rw [List.filter_cons_of_pos rfl] at h
        obtain ⟨e, -, -, he, -⟩ := List.map_eq_cons_iff.mp h.symm
        cases he

namespace Markup

/-- The contents of markup without the white space of its texts. -/
def substance (m : Markup) : List (Char ⊕ String) := m.contents.filter isSolid

/-- The substance of several pieces of markup. -/
def substanceAll (ms : List Markup) : List (Char ⊕ String) := (contentsAll ms).filter isSolid

@[simp] theorem substanceAll_nil : substanceAll [] = [] := rfl

@[simp] theorem substanceAll_cons (m : Markup) (ms : List Markup) :
    substanceAll (m :: ms) = m.substance ++ substanceAll ms := by
  rw [substanceAll, contentsAll, List.filter_append]
  rfl

@[simp] theorem substanceAll_append (ms ns : List Markup) :
    substanceAll (ms ++ ns) = substanceAll ms ++ substanceAll ns := by
  induction ms with
  | nil => rfl
  | cons m ms ih =>
      rw [List.cons_append, substanceAll_cons, substanceAll_cons, ih, List.append_assoc]

@[simp] theorem substance_text (s : String) : (text s).substance = solid s.toList :=
  filter_isSolid s.toList

@[simp] theorem substance_verbatim (s : String) : (verbatim s).substance = [.inr s] := rfl

@[simp] theorem substance_element (tag : Tag) (attributes : List Attribute)
    (children : List Markup) : (element tag attributes children).substance = substanceAll children := rfl

@[simp] theorem substance_void (tag : VoidTag) (attributes : List Attribute) :
    (void tag attributes).substance = [] := rfl

@[simp] theorem substance_newline : newline.substance = [] := by decide

/-! ## Substance as a view -/

/-- What the substance counts: characters that are no white space, and verbatim texts. -/
def substanceView : View (Char ⊕ String) where
  char c := solid [c]
  verbatim s := [.inr s]
  blank c h := by rw [solid_cons, if_pos h, solid_nil]

theorem solid_eq_flatMap (cs : List Char) : solid cs = cs.flatMap substanceView.char := by
  induction cs with
  | nil => rfl
  | cons c cs ih =>
      rw [List.flatMap_cons, ← ih, ← List.singleton_append, solid_append]
      rfl

mutual

theorem substance_eq_of : (m : Markup) → m.substance = substanceView.of m
  | .text s => by rw [substance_text, solid_eq_flatMap, View.of]
  | .verbatim s => by
      rw [substance_verbatim, View.of]
      rfl
  | .element tag attributes children => by
      rw [substance_element, View.of, substanceAll_eq_all children]
      rfl
  | .void tag attributes => by rw [substance_void, View.of]

theorem substanceAll_eq_all : (ms : List Markup) → substanceAll ms = substanceView.all ms
  | [] => by rw [substanceAll_nil, View.all]
  | m :: ms => by rw [substanceAll_cons, View.all, substance_eq_of m, substanceAll_eq_all ms]

end

/-- The substance is a view, so trimming, wrapping and putting on lines do not show in it. -/
theorem substance_eq : substance = substanceView.of := funext substance_eq_of

theorem substanceAll_eq : substanceAll = substanceView.all := funext substanceAll_eq_all

@[simp] theorem substanceAll_trim (ms : List Markup) :
    substanceAll (trim ms) = substanceAll ms := by
  simp [substanceAll_eq]

@[simp] theorem substanceAll_onLines (groups : List (List Markup)) :
    substanceAll (onLines groups) = groups.flatMap substanceAll := by
  simp [substanceAll_eq]

@[simp] theorem substanceAll_flatMap_newline (ms : List Markup) :
    substanceAll (ms.flatMap fun m => [m, newline]) = substanceAll ms := by
  simp [substanceAll_eq]

end Markup

open Markup

/-! ## Elements -/

@[simp] theorem substanceAll_paragraphOf (content : List Markup) :
    substanceAll (paragraphOf content) = substanceAll content := by
  simp [substanceAll_eq]

@[simp] theorem flatMap_consBlock (block : List Markup) (blocks : List (List Markup)) :
    (consBlock block blocks).flatMap substanceAll =
      substanceAll block ++ blocks.flatMap substanceAll := by
  simp [substanceAll_eq]

@[simp] theorem substanceAll_runOf (wrap : Bool) (content : List Markup) :
    substanceAll (runOf wrap content) = substanceAll content := by
  simp [substanceAll_eq]

@[simp] theorem substance_layoutOf (attributes : List Attribute) (blocks : List (List Markup)) :
    (layoutOf attributes blocks).substance = blocks.flatMap substanceAll := by
  simp [substance_eq, substanceAll_eq]

@[simp] theorem substance_codeBlock (content : String) (language : Option String) :
    (codeBlock content language).substance = solid content.toList := by
  unfold codeBlock
  dsimp only
  split <;> simp

@[simp] theorem substance_cellOf (tag : Tag) (alignment : Option String) (content : List Markup) :
    (cellOf tag alignment content).substance = substanceAll content := by
  simp [cellOf]

@[simp] theorem substance_onOwnLines (tag : Tag) (children : List Markup) :
    (onOwnLines tag children).substance = substanceAll children := by
  simp [onOwnLines]

@[simp] theorem substance_tableOf (headers : List Markup) (rows : List (List Markup)) :
    (tableOf headers rows).substance = substanceAll headers ++ rows.flatMap substanceAll := by
  simp [substance_eq, substanceAll_eq]

@[simp] theorem substance_listOf (ordered : Bool) (start : Option Int)
    (items : List (List Markup)) : (listOf ordered start items).substance = items.flatMap substanceAll := by
  simp [substance_eq, substanceAll_eq]

@[simp] theorem substance_quotationOf (quoteType : Option String) (blocks : List (List Markup)) :
    (quotationOf quoteType blocks).substance = blocks.flatMap substanceAll := by
  simp [substance_eq, substanceAll_eq]

@[simp] theorem substanceAll_asItem (n : Node) (content : List Markup) :
    substanceAll (asItem n content) = substanceAll content := by
  simp [substanceAll_eq]

/-! ## Writing -/

/-- Whether writing gives a result of a kind, whichever identifiers were wanted before. -/
def Gives {α : Type} (w : Writing α) (P : α → Prop) : Prop := ∀ wanted, P (w wanted).1

namespace Gives

variable {α β : Type} {w : Writing α} {P : α → Prop} {Q : β → Prop}

theorem pure {a : α} (h : P a) : Gives (Pure.pure a) P := fun _ => h

theorem bind {f : α → Writing β} (h : Gives w P) (hf : ∀ a, P a → Gives (f a) Q) :
    Gives (w >>= f) Q := fun wanted => hf _ (h wanted) _

/-- A result that something is made of. -/
theorem map {f : α → β} (h : Gives w P) (hf : ∀ a, P a → Q (f a)) :
    Gives (w >>= fun a => Pure.pure (f a)) Q := h.bind fun a ha => pure (hf a ha)

theorem trivial : Gives w fun _ => True := fun _ => True.intro

end Gives

end Livedoc.Html

namespace Livedoc.Tree.Node

/-! ## Nodes -/

mutual

/-- What a node shows: the contents of the texts, the code and the formulas in it, in order. -/
def shown : Node → List Char
  | text content _ | code content _ _ _ | math content _ _ => content.toList
  | paragraph cs _ | heading _ cs _ | list _ cs _ _ | listItem cs _ | blockquote cs _ _
  | link _ cs _ _ | emphasis cs _ _ | row cs _ _ _ | column cs _ _ _ | grid cs _ _ _
  | center cs _ => shownAll cs
  | table headers rows _ _ => shownCells headers ++ shownRows rows
  | image .. | lineBreak _ | thematicBreak _ => []
  | document .. | call .. | reference .. | conditional .. | loop .. => []

/-- What several nodes show. -/
def shownAll : List Node → List Char
  | [] => []
  | n :: rest => n.shown ++ shownAll rest

/-- What several cells show. -/
def shownCells : List (List Node) → List Char
  | [] => []
  | cell :: rest => shownAll cell ++ shownCells rest

/-- What several rows show. -/
def shownRows : List (List (List Node)) → List Char
  | [] => []
  | cells :: rest => shownCells cells ++ shownRows rest

end

end Livedoc.Tree.Node

namespace Livedoc.Html.Node

open Livedoc.Text Livedoc.Tree Livedoc.Tree.Node Markup

/-- Whether what is written has the substance of a text. -/
abbrev Shows (w : Writing (List Markup)) (cs : List Char) : Prop :=
  Gives w fun ms => substanceAll ms = solid cs

/-- Whether the blocks that are written have the substance of a text after what they start
with. -/
abbrev ShowsBlocks (w : Writing (List (List Markup))) (before : List (Char ⊕ String))
    (cs : List Char) : Prop :=
  Gives w fun blocks => blocks.flatMap substanceAll = before ++ solid cs

mutual

/-- **The markup of a node shows what the node does**: nothing is lost, doubled, moved or
added but white space. -/
theorem markup_gives (within : Bool) : (n : Node) → Shows (markup within n) n.shown
  | .text content _ => by
      rw [markup, shown]
      exact .pure (by simp)
  | .code content language _ _ => by
      rw [markup, shown]
      exact .pure (by cases within <;> simp)
  | .math content display _ => by
      rw [markup, shown]
      exact .pure (by simp)
  | .emphasis cs strong _ => by
      rw [markup, shown]
      exact (markups_gives cs).map fun ms h => by simp [h]
  | .link url cs title _ => by
      rw [markup, shown]
      exact (markups_gives cs).map fun ms h => by simp [h]
  | .image source alt title width height _ => by
      rw [markup, shown]
      exact .pure (by simp [imageMarkup])
  | .lineBreak _ => by
      rw [markup, shown]
      exact .pure (by simp)
  | .paragraph cs _ => by
      rw [markup, shown]
      exact (markups_gives cs).map fun ms h => by cases within <;> simp [h]
  | .heading level cs _ => by
      rw [markup, shown]
      exact Gives.trivial.bind fun id _ => (markups_gives cs).map fun ms h => by simp [h]
  | .list ordered cs start _ => by
      rw [markup, shown]
      exact (itemMarkups_gives cs).map fun items h => by simp [h]
  | .listItem cs _ => by
      rw [markup, shown, itemOf]
      refine Gives.map (P := fun m => m.substance = solid (shownAll cs)) ?_ fun m h => by simp [h]
      split
      · exact (markups_gives cs).map fun ms h => by simp [h]
      · exact (blocksFrom_gives false [] cs).map fun blocks h => by simp [h]
  | .blockquote cs quoteType _ => by
      rw [markup, shown]
      exact (blocksFrom_gives true [] cs).map fun blocks h => by simp [h]
  | .thematicBreak _ => by
      rw [markup, shown]
      exact .pure (by simp)
  | .table headers rows alignment _ => by
      rw [markup, shown]
      exact (cellMarkups_gives .th alignment headers).bind fun heads hheads =>
        (rowMarkups_gives alignment rows).map fun others hothers => by simp [hheads, hothers]
  | .row cs alignment gap _ => by
      rw [markup, shown]
      exact (blocksFrom_gives false [] cs).map fun blocks h => by simp [h]
  | .column cs alignment gap _ => by
      rw [markup, shown]
      exact (blocksFrom_gives false [] cs).map fun blocks h => by simp [h]
  | .grid cs columns gap _ => by
      rw [markup, shown]
      exact (blocksFrom_gives false [] cs).map fun blocks h => by simp [h]
  | .center cs _ => by
      rw [markup, shown]
      exact (blocksFrom_gives false [] cs).map fun blocks h => by simp [h]
  | .document .. | .call .. | .reference .. | .conditional .. | .loop .. => by
      rw [markup, shown]
      exact .pure rfl

theorem markups_gives : (ns : List Node) → Shows (markups ns) (shownAll ns)
  | [] => by
      rw [markups, shownAll]
      exact .pure rfl
  | n :: rest => by
      rw [markups, shownAll]
      exact (markup_gives true n).bind fun first hfirst =>
        (markups_gives rest).map fun others hothers => by simp [hfirst, hothers]

/-- A run of nodes within a line is flushed before the next block and at the end. -/
theorem blocksFrom_gives (wrap : Bool) (run : List Markup) : (ns : List Node) →
    ShowsBlocks (blocksFrom wrap run ns) (substanceAll run) (shownAll ns)
  | [] => by
      rw [blocksFrom, shownAll]
      exact .pure (by simp)
  | n :: rest => by
      rw [blocksFrom, shownAll]
      refine (markup_gives n.isInline n).bind fun next hnext => ?_
      split
      · intro wanted
        rw [blocksFrom_gives wrap (run ++ next) rest wanted]
        simp [hnext]
      · exact (blocksFrom_gives wrap [] rest).map fun blocks h => by simp [hnext, h]

theorem itemMarkups_gives : (ns : List Node) → ShowsBlocks (itemMarkups ns) [] (shownAll ns)
  | [] => by
      rw [itemMarkups, shownAll]
      exact .pure rfl
  | n :: rest => by
      rw [itemMarkups, shownAll]
      exact (markup_gives n.isInline n).bind fun content hcontent =>
        (itemMarkups_gives rest).map fun others hothers => by simp [hcontent, hothers]

theorem cellMarkups_gives (tag : Tag) (alignment : List (Option String)) :
    (cells : List (List Node)) → Shows (cellMarkups tag alignment cells) (shownCells cells)
  | [] => by
      rw [cellMarkups, shownCells]
      exact .pure rfl
  | cell :: rest => by
      rw [cellMarkups, shownCells]
      exact (markups_gives cell).bind fun content hcontent =>
        (cellMarkups_gives tag alignment.tail rest).map fun others hothers => by
          simp [hcontent, hothers]

theorem rowMarkups_gives (alignment : List (Option String)) : (rows : List (List (List Node))) →
    ShowsBlocks (rowMarkups alignment rows) [] (shownRows rows)
  | [] => by
      rw [rowMarkups, shownRows]
      exact .pure rfl
  | cells :: rest => by
      rw [rowMarkups, shownRows]
      exact (cellMarkups_gives .td alignment cells).bind fun first hfirst =>
        (rowMarkups_gives alignment rest).map fun others hothers => by simp [hfirst, hothers]

end

end Livedoc.Html.Node
