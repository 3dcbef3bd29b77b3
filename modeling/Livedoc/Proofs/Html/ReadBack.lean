import Livedoc.Proofs.Html.Page
import Livedoc.Proofs.Tree.Walk

/-!
# Reading the text of a document back

Without its tags, with its references decoded and its white space left out, what is rendered
for the nodes of a document is the text of the document (`render_text`): the contents of its
texts, its code and its formulas in the order of a walk. Nothing is lost, doubled or moved
by runs of text that become paragraphs, blocks that disappear, ends that are trimmed, lists,
tables and slides.

Characters are written by their numbers, though, and a few numbers stand for another
character or for none. A text is read back exactly if it holds none of these
(`render_text_iff`).
-/

namespace Livedoc.Tree.Node

/-! ## The text of a tree -/

/-- The content of a text, of code or of a formula; nothing for another node. -/
def ownText : Node → List Char
  | text content _ | code content _ _ _ | math content _ _ => content.toList
  | _ => []

/-- Whether a node is a whole document. -/
def isDocument : Node → Bool
  | document .. => true
  | _ => false

/-- A node that is rendered for what it is. -/
def IsShown (n : Node) : Prop := n.isDynamic = false ∧ n.isDocument = false

mutual

/-- **A node shows the text of its walk** if none of the nodes walked is dynamic or a whole
document. -/
theorem shown_eq_walk : (n : Node) → (∀ m ∈ n.walk, m.IsShown) → n.shown = n.walk.flatMap ownText
  | .text .., _ | .code .., _ | .math .., _ => by simp [shown, walk, ownText]
  | .image .., _ | .lineBreak _, _ | .thematicBreak _, _ => by simp [shown, walk, ownText]
  | .paragraph cs _, h | .heading _ cs _, h | .list _ cs _ _, h | .listItem cs _, h
  | .blockquote cs _ _, h | .link _ cs _ _, h | .emphasis cs _ _, h | .row cs _ _ _, h
  | .column cs _ _ _, h | .grid cs _ _ _, h | .center cs _, h => by
      rw [walk] at h
      rw [shown, walk, List.flatMap_cons, shownAll_eq_walk cs fun m hm => h m (by simp [hm])]
      rfl
  | .table headers rows _ _, h => by
      rw [walk] at h
      rw [shown, walk, List.flatMap_cons, List.flatMap_append,
        shownCells_eq_walk headers fun m hm => h m (by simp [hm]),
        shownRows_eq_walk rows fun m hm => h m (by simp [hm])]
      rfl
  | .document .., h => absurd (h _ (mem_walk_self _)).2 (by simp [isDocument])
  | .call .., h | .reference .., h | .conditional .., h | .loop .., h =>
      absurd (h _ (mem_walk_self _)).1 (by simp [isDynamic])

theorem shownAll_eq_walk : (ns : List Node) → (∀ m ∈ walkAll ns, m.IsShown) →
    shownAll ns = (walkAll ns).flatMap ownText
  | [], _ => rfl
  | n :: rest, h => by
      rw [walkAll] at h
      rw [shownAll, walkAll, List.flatMap_append, shown_eq_walk n fun m hm => h m (by simp [hm]),
        shownAll_eq_walk rest fun m hm => h m (by simp [hm])]

theorem shownCells_eq_walk : (cells : List (List Node)) → (∀ m ∈ walkCells cells, m.IsShown) →
    shownCells cells = (walkCells cells).flatMap ownText
  | [], _ => rfl
  | cell :: rest, h => by
      rw [walkCells] at h
      rw [shownCells, walkCells, List.flatMap_append,
        shownAll_eq_walk cell fun m hm => h m (by simp [hm]),
        shownCells_eq_walk rest fun m hm => h m (by simp [hm])]

theorem shownRows_eq_walk : (rows : List (List (List Node))) →
    (∀ m ∈ walkRows rows, m.IsShown) → shownRows rows = (walkRows rows).flatMap ownText
  | [], _ => rfl
  | cells :: rest, h => by
      rw [walkRows] at h
      rw [shownRows, walkRows, List.flatMap_append,
        shownCells_eq_walk cells fun m hm => h m (by simp [hm]),
        shownRows_eq_walk rest fun m hm => h m (by simp [hm])]

end

end Livedoc.Tree.Node

namespace Livedoc.Html

open Livedoc.Text Livedoc.Tree Markup

/-! ## Removing tags -/

/-- Markup without all that stands between angle brackets. The flag tells whether an angle
bracket is open. -/
def withoutTags : Bool → List Char → List Char
  | _, [] => []
  | true, c :: rest => withoutTags (c != '>') rest
  | false, c :: rest => if c = '<' then withoutTags true rest else c :: withoutTags false rest

/-- What is inside of a tag goes. -/
theorem withoutTags_inside {cs : List Char} (h : ∀ c ∈ cs, c ≠ '>') (rest : List Char) :
    withoutTags true (cs ++ '>' :: rest) = withoutTags false rest := by
  induction cs with
  | nil => rfl
  | cons c cs ih =>
      have hc : (c != '>') = true := bne_iff_ne.mpr (h c (by simp))
      rw [List.cons_append, withoutTags, hc]
      exact ih fun x hx => h x (by simp [hx])

/-- What is outside of tags stays. -/
theorem withoutTags_outside {cs : List Char} (h : ∀ c ∈ cs, c ≠ '<') (rest : List Char) :
    withoutTags false (cs ++ rest) = cs ++ withoutTags false rest := by
  induction cs with
  | nil => rfl
  | cons c cs ih =>
      rw [List.cons_append, withoutTags, if_neg (h c (by simp)), ih fun x hx => h x (by simp [hx])]
      rfl

namespace Piece

/-- The characters of a piece that are not inside of a tag. -/
def outside : Piece → List Char
  | text cs => cs
  | _ => []

/-- A name ends no tag. -/
theorem ne_of_isTagName {name : List Char} (h : IsTagName name) : ∀ c ∈ name, c ≠ '>' :=
  fun _ hc => h.ne hc rfl

theorem Sound.withoutTags_written {p : Piece} (h : p.Sound) (rest : List Char) :
    withoutTags false (p.written ++ rest) = p.outside ++ withoutTags false rest := by
  cases p with
  | text cs => exact withoutTags_outside (fun c hc => (h c hc).1) rest
  | closing name =>
      obtain ⟨tag, rfl⟩ := h
      have hinside : ∀ c ∈ '/' :: tag.text.toList, c ≠ '>' := by
        intro c hc
        rcases List.mem_cons.mp hc with rfl | hc
        · decide
        · exact ne_of_isTagName tag.isTagName c hc
      exact Eq.trans (by simp [written, withoutTags]) (withoutTags_inside hinside rest)
  | opening name attributes =>
      obtain ⟨hname, hattributes⟩ := h
      have hinside : ∀ c ∈ name ++ attributes.flatMap writtenAttribute, c ≠ '>' := by
        intro c hc
        rcases List.mem_append.mp hc with hc | hc
        · obtain ⟨tag, rfl⟩ | ⟨tag, rfl⟩ := hname
          · exact ne_of_isTagName tag.isTagName c hc
          · exact ne_of_isTagName tag.isTagName c hc
        · obtain ⟨a, ha, hc⟩ := List.mem_flatMap.mp hc
          obtain ⟨⟨key, hkey⟩, hvalue⟩ := hattributes a ha
          rw [writtenAttribute, hkey] at hc
          simp only [List.cons_append, List.mem_cons, List.mem_append, List.not_mem_nil,
            or_false] at hc
          rcases hc with rfl | (hc | rfl | rfl | hc) | rfl
          · decide
          · exact ne_of_isTagName key.isTagName c hc
          · decide
          · decide
          · exact (hvalue c hc).2.1
          · decide
      exact Eq.trans (by simp [written, withoutTags]) (withoutTags_inside hinside rest)

end Piece

/-- Without the tags, sound pieces are their texts. -/
theorem withoutTags_written {ps : List Piece} (h : ∀ p ∈ ps, p.Sound) :
    withoutTags false (ps.flatMap Piece.written) = ps.flatMap Piece.outside := by
  induction ps with
  | nil => rfl
  | cons p ps ih =>
      have hp : p.Sound := h p (by simp)
      rw [List.flatMap_cons, hp.withoutTags_written, ih fun q hq => h q (by simp [hq]),
        List.flatMap_cons]

namespace Markup

/-- What is written outside of tags for a part of the contents. -/
def writtenContent : Char ⊕ String → List Char := Sum.elim escapeChar String.toList

mutual

theorem outside_pieces : (m : Markup) →
    m.pieces.flatMap Piece.outside = m.contents.flatMap writtenContent
  | .text s => by
      simp [pieces, contents, Piece.outside, escape, List.flatMap_map, writtenContent]
  | .verbatim s => by simp [pieces, contents, Piece.outside, writtenContent]
  | .element tag attributes children => by
      simp [pieces, contents, Piece.outside, openingPiece, outside_piecesAll children]
  | .void tag attributes => by simp [pieces, contents, Piece.outside, openingPiece]

theorem outside_piecesAll : (ms : List Markup) →
    (piecesAll ms).flatMap Piece.outside = (contentsAll ms).flatMap writtenContent
  | [] => rfl
  | m :: rest => by
      rw [piecesAll, contentsAll, List.flatMap_append, List.flatMap_append, outside_pieces m,
        outside_piecesAll rest]

end

end Markup

/-! ## Reading back -/

/-- The text of markup: its tags removed, its references decoded, its white space left out. -/
def markupText (cs : List Char) : List Char := unspaced (decodeReferences (withoutTags false cs))

/-- White space of ASCII is read back as it is. -/
theorem readBack_of_isPlainBlank {c : Char} (h : isPlainBlank c = true) : readBack c = [c] := by
  simp only [isPlainBlank, Bool.and_eq_true, decide_eq_true_eq] at h
  exact if_pos h.2

/-- So it can go before a text is read back. -/
theorem unspaced_readBack (cs : List Char) :
    unspaced (cs.flatMap readBack) = (unspaced cs).flatMap fun c => unspaced (readBack c) := by
  induction cs with
  | nil => rfl
  | cons c cs ih =>
      cases hc : isPlainBlank c with
      | false => simp_all [unspaced]
      | true =>
          rw [List.flatMap_cons, unspaced_append, ih, readBack_of_isPlainBlank hc]
          simp [unspaced, hc]

/-- **Markup with the substance of a text is read back as the text**, each character as what
it is read back as. -/
theorem markupText_printAll {ms : List Markup} {cs : List Char} (h : substanceAll ms = solid cs) :
    markupText (printAll ms) = unspaced (cs.flatMap readBack) := by
  have hsound := sound_piecesAll ms (plainVerbatims_of_solid h)
  obtain ⟨ds, hds, hsame⟩ := exists_of_filter_isSolid h
  calc markupText (printAll ms)
      = unspaced (decodeReferences (escape ds)) := by
        rw [markupText, printAll_eq_written, withoutTags_written hsound, outside_piecesAll, hds,
          List.flatMap_map]
        rfl
    _ = unspaced (cs.flatMap readBack) := by
        rw [decodeReferences_escape, unspaced_readBack, hsame, ← unspaced_readBack]

/-! ## Characters that are read back as themselves -/

/-- A text is read back as itself exactly if every character of it is. White space takes no
part in it. -/
theorem unspaced_readBack_iff (cs : List Char) :
    unspaced (cs.flatMap readBack) = unspaced cs ↔ ∀ c ∈ cs, readBack c = [c] := by
  have hlength (c : Char) : (unspaced (readBack c)).length ≤ 1 :=
    Nat.le_trans (List.length_filter_le _ _) (length_readBack_le c)
  rw [unspaced_readBack, flatMap_eq_self_iff hlength]
  constructor
  · intro h c hc
    cases hblank : isPlainBlank c with
    | true => exact readBack_of_isPlainBlank hblank
    | false =>
        have hself := h c (List.mem_filter.mpr ⟨hc, by simp [hblank]⟩)
        have hlong : (readBack c).length ≤ (unspaced (readBack c)).length := by
          rw [hself]
          exact length_readBack_le c
        exact (List.filter_sublist.eq_of_length_le hlong).symm.trans hself
  · intro h c hc
    obtain ⟨hmem, hsolid⟩ := List.mem_filter.mp hc
    rw [h c hmem]
    exact List.filter_cons_of_pos hsolid

/-! ## Documents -/

/-- What is rendered for the nodes of a document: a fragment, or on a page the element that its
type wraps them in. -/
def renderedBody (d : Document) (p : Presentation) : List Char :=
  if p.standalone then (wrappedContent p.shownType d.children []).1.print
  else printAll (contentOf d.children []).1

theorem print_infix_printAll {m : Markup} {ms : List Markup} (h : m ∈ ms) :
    m.print <:+: printAll ms := by
  induction ms with
  | nil => cases h
  | cons n ms ih =>
      rw [printAll]
      rcases List.mem_cons.mp h with rfl | h
      · exact (List.prefix_append _ _).isInfix
      · exact (ih h).trans (List.suffix_append _ _).isInfix

/-- What stands in an element is printed in it. -/
theorem print_infix_element {m : Markup} {children : List Markup} (h : m ∈ children) (tag : Tag)
    (attributes : List Attribute) : m.print <:+: (element tag attributes children).print := by
  rw [print]
  refine (print_infix_printAll h).trans ?_
  simp only [List.append_assoc]
  exact (List.prefix_append _ _).isInfix.trans (List.suffix_append _ _).isInfix

/-- The body is part of what is rendered. -/
theorem renderedBody_isInfix (d : Document) (p : Presentation) :
    renderedBody d p <:+: (render d p).toList := by
  unfold renderedBody render
  cases p.standalone with
  | false => simp
  | true =>
      have hcontent : (wrappedContent p.shownType d.children []).1.print <:+:
          (bodyOf p (hasDiagrams d) (wrappedContent p.shownType d.children []).1).print :=
        print_infix_element (by simp) .body _
      have hpage :
          (bodyOf p (hasDiagrams d) (wrappedContent p.shownType d.children []).1).print <:+:
            printAll (pageOf p d) := by
        rw [pageOf_eq]
        exact (print_infix_element (by simp) .html _).trans
          (print_infix_printAll (List.mem_cons_self ..))
      simpa using (hcontent.trans hpage).trans (List.suffix_append _ _).isInfix

/-- **The text of what is rendered is the text of the document**, each character as what it is
read back as: for a fragment, and for the wrapper of every type. -/
theorem render_text (d : Document) (p : Presentation) (hstatic : d.toNode.containsDynamic = false)
    (hroot : ∀ n ∈ Node.walkAll d.children, n.isDocument = false) :
    markupText (renderedBody d p) =
      unspaced ((d.toNode.walk.flatMap Node.ownText).flatMap readBack) := by
  have hwalk : d.toNode.walk = d.toNode :: Node.walkAll d.children := by
    grind [Document.toNode]
  have hshown : Node.shownAll d.children = d.toNode.walk.flatMap Node.ownText := by
    rw [Node.shownAll_eq_walk d.children, hwalk]
    · rfl
    · intro n hn
      rw [Node.containsDynamic, hwalk, List.any_cons, Bool.or_eq_false_iff,
        List.any_eq_false] at hstatic
      exact ⟨by simpa using hstatic.2 n hn, hroot n hn⟩
  rw [← hshown, renderedBody]
  cases p.standalone with
  | false => exact markupText_printAll (contentOf_gives d.children [])
  | true =>
      have hwrapped : substanceAll [(wrappedContent p.shownType d.children []).1] =
          solid (Node.shownAll d.children) := by
        rw [substanceAll_cons, wrappedContent_gives p.shownType d.children []]
        exact List.append_nil _
      have htext := markupText_printAll hwrapped
      rw [printAll, printAll, List.append_nil] at htext
      exact htext

/-- **Rendering loses, doubles and moves no text**, for a fragment and for the wrapper of every
type: without tags, with its references decoded and but for white space, what is rendered is
the text of the document in the order of a walk, exactly if the document holds no character
whose number stands for something else. -/
theorem render_text_iff (d : Document) (p : Presentation)
    (hstatic : d.toNode.containsDynamic = false)
    (hroot : ∀ n ∈ Node.walkAll d.children, n.isDocument = false) :
    renderedBody d p <:+: (render d p).toList ∧
      (markupText (renderedBody d p) = unspaced (d.toNode.walk.flatMap Node.ownText) ↔
        ∀ c ∈ d.toNode.walk.flatMap Node.ownText, readBack c = [c]) := by
  rw [render_text d p hstatic hroot]
  exact ⟨renderedBody_isInfix d p, unspaced_readBack_iff _⟩

/-- Slides with a heading, a list with a paragraph and a formula in it, and a table. -/
def lecture : Document where
  children :=
    [.heading 1 [.text "Größe" .unknown] .unknown,
      .thematicBreak .unknown,
      .list false
        [.listItem
          [.text "a < b" .unknown,
            .paragraph [.emphasis [.text "&" .unknown] true .unknown] .unknown,
            .math "x^2" false .unknown] .unknown,
          .text "\n" .unknown] none .unknown,
      .text "so" .unknown,
      .table [[.code "n" none true .unknown]] [[[.text "1" .unknown], []]] [] .unknown]

theorem render_text_iff_lecture :
    lecture.toNode.containsDynamic = false ∧
      (∀ n ∈ Node.walkAll lecture.children, n.isDocument = false) ∧
      renderedBody lecture { type := "slides" } <:+: (render lecture { type := "slides" }).toList ∧
      markupText (renderedBody lecture { type := "slides" }) =
        unspaced (lecture.toNode.walk.flatMap Node.ownText) := by
  have hstatic : lecture.toNode.containsDynamic = false := by decide
  have hroot : ∀ n ∈ Node.walkAll lecture.children, n.isDocument = false := by decide
  have hrender := render_text_iff lecture { type := "slides" } hstatic hroot
  have hchars : (lecture.toNode.walk.flatMap Node.ownText).all (fun c => readBack c == [c]) =
      true := by decide
  exact ⟨hstatic, hroot, hrender.1, hrender.2.mpr fun c hc =>
    eq_of_beq (List.all_eq_true.mp hchars c hc)⟩

/-- A paragraph with a control character, whose number is that of the euro sign in the old
Windows code page. -/
def control : Document where
  children := [.paragraph [.text "\u0080" .unknown] .unknown]

/-- The control character is read back as the euro sign. -/
theorem render_text_control_ne :
    control.toNode.containsDynamic = false ∧
      (∀ n ∈ Node.walkAll control.children, n.isDocument = false) ∧
      markupText (renderedBody control { standalone := false }) = ['€'] ∧
      markupText (renderedBody control { standalone := false }) ≠
        unspaced (control.toNode.walk.flatMap Node.ownText) := by
  have hstatic : control.toNode.containsDynamic = false := by decide
  have hroot : ∀ n ∈ Node.walkAll control.children, n.isDocument = false := by decide
  have htext : markupText (renderedBody control { standalone := false }) = ['€'] := by
    rw [render_text control { standalone := false } hstatic hroot]
    decide
  refine ⟨hstatic, hroot, htext, ?_⟩
  rw [htext]
  decide

end Livedoc.Html
