import Livedoc.Proofs.Html.Reader
import Livedoc.Proofs.Html.View

/-!
# Elements that occur in markup

Whether an element of some kind occurs in markup, however deep, does not hang on the texts around
it.  So trimming, wrapping and putting on lines do not show in the answer, and what is built of
parts has the elements of its parts, with those that the builder adds
(`Markup.occurs_trim`, `Markup.occurs_layoutOf` and the like).

A reader finds the same elements in what is printed: a tag is among the pieces if an element with
this tag occurs (`Markup.opening_mem_piecesAll`), and a block stands in an open paragraph if a
paragraph with a block in it does (`Markup.breaksParagraph_piecesAll`).
-/

namespace Livedoc.Html

open Livedoc.Text Livedoc.Tree

/-! ## Tags of blocks -/

/-- The names of the elements that do not belong into a paragraph. -/
def blockNames : List (List Char) :=
  ["p", "div", "h1", "h2", "h3", "h4", "h5", "h6", "ul", "ol", "blockquote", "pre", "table",
    "hr"].map String.toList

/-- Whether a block starts while a paragraph is open, the elements `opened` being open before the
first piece. -/
def breaksParagraph : List (List Char) → List Piece → Bool
  | _, [] => false
  | opened, .text _ :: rest => breaksParagraph opened rest
  | opened, .opening name _ :: rest =>
    opened.contains "p".toList && blockNames.contains name ||
      breaksParagraph (if voidNames.contains name then opened else name :: opened) rest
  | opened, .closing _ :: rest => breaksParagraph opened.tail rest

example : (readPieces? "<p>a <em>b <div></div></em></p>".toList).map (breaksParagraph []) =
    some true := by decide +kernel

example : (readPieces? "<p>a <em>b</em></p><div><p>c</p></div>".toList).map (breaksParagraph []) =
    some false := by decide +kernel

namespace Markup

/-- Whether an element is a block. -/
def isBlock : Markup → Bool
  | element tag _ _ => blockNames.contains tag.text.toList
  | void tag _ => blockNames.contains tag.text.toList
  | _ => false

/-! ## Occurrences -/

mutual

/-- Whether an element of a kind occurs in markup. -/
def occursIn (q : Markup → Bool) : Markup → Bool
  | text _ | verbatim _ => false
  | m@(element _ _ children) => q m || occurs q children
  | m@(void ..) => q m

/-- Whether an element of a kind occurs in one of several pieces of markup. -/
def occurs (q : Markup → Bool) : List Markup → Bool
  | [] => false
  | m :: rest => occursIn q m || occurs q rest

end

section

variable (q : Markup → Bool)

@[simp] theorem occursIn_text (s : String) : occursIn q (text s) = false := by rw [occursIn]

@[simp] theorem occursIn_verbatim (s : String) : occursIn q (verbatim s) = false := by
  rw [occursIn]

theorem occursIn_element (tag : Tag) (attributes : List Attribute) (children : List Markup) :
    occursIn q (element tag attributes children) =
      (q (element tag attributes children) || occurs q children) := by rw [occursIn]

theorem occursIn_void (tag : VoidTag) (attributes : List Attribute) :
    occursIn q (void tag attributes) = q (void tag attributes) := by rw [occursIn]

@[simp] theorem occursIn_newline : occursIn q newline = false := occursIn_text q "\n"

@[simp] theorem occurs_nil : occurs q [] = false := by rw [occurs]

@[simp] theorem occurs_cons (m : Markup) (ms : List Markup) :
    occurs q (m :: ms) = (occursIn q m || occurs q ms) := by rw [occurs]

@[simp] theorem occurs_append (ms ns : List Markup) :
    occurs q (ms ++ ns) = (occurs q ms || occurs q ns) := by
  induction ms with
  | nil => simp
  | cons m ms ih => simp [ih, Bool.or_assoc]

theorem occurs_map_eq_false {β : Type} {f : β → Markup} (h : ∀ x, occursIn q (f x) = false)
    (xs : List β) : occurs q (xs.map f) = false := by
  induction xs with
  | nil => simp
  | cons x xs ih => rw [List.map_cons, occurs_cons, h, ih, Bool.or_false]

/-! ## Trimming and lines -/

@[simp] theorem occurs_trimStart (ms : List Markup) : occurs q (trimStart ms) = occurs q ms := by
  fun_induction trimStart ms with
  | case1 s rest hblank ih => simpa using ih
  | case2 s rest hsolid => simp
  | case3 => rfl

theorem occurs_consTrimmed (m : Markup) (rest : List Markup) :
    occurs q (consTrimmed m rest) = (occursIn q m || occurs q rest) := by
  unfold consTrimmed
  split
  · split <;> simp
  · simp

@[simp] theorem occurs_trimEnd (ms : List Markup) : occurs q (trimEnd ms) = occurs q ms := by
  induction ms with
  | nil => rfl
  | cons m ms ih =>
      rw [show trimEnd (m :: ms) = consTrimmed m (trimEnd ms) from rfl, occurs_consTrimmed, ih,
        occurs_cons]

/-- **Trimming takes no element away.** -/
@[simp] theorem occurs_trim (ms : List Markup) : occurs q (trim ms) = occurs q ms := by
  rw [trim, occurs_trimEnd, occurs_trimStart]

@[simp] theorem occurs_onLines (groups : List (List Markup)) :
    occurs q (onLines groups) = groups.any (occurs q) := by
  fun_induction onLines groups with
  | case1 => simp
  | case2 ms => simp
  | case3 ms rest hrest ih => simp [ih]

@[simp] theorem occurs_flatMap_newline (ms : List Markup) :
    occurs q (ms.flatMap fun m => [m, newline]) = occurs q ms := by
  induction ms with
  | nil => rfl
  | cons m ms ih => simp [ih]

@[simp] theorem any_consBlock (block : List Markup) (blocks : List (List Markup)) :
    (consBlock block blocks).any (occurs q) = (occurs q block || blocks.any (occurs q)) := by
  cases block <;> simp [consBlock]

end

end Markup

/-! ## What is built of parts -/

/-- Whether an element is a paragraph, a preformatted text or a script. -/
def Tag.isRare : Tag → Bool
  | p | pre | script => true
  | _ => false

theorem Tag.isRare_ofLevel (level : Int) : (ofLevel level).isRare = false := by
  unfold ofLevel
  split_ifs <;> rfl

namespace Markup

/-- A kind of elements that are paragraphs, preformatted texts or scripts. -/
structure IsRare (q : Markup → Bool) : Prop where
  element : ∀ {tag attributes children}, tag.isRare = false →
    q (.element tag attributes children) = false
  void : ∀ {tag attributes}, q (.void tag attributes) = false

namespace IsRare

variable {q : Markup → Bool} (hq : IsRare q)
include hq

/-- Another element counts for what is in it. -/
theorem occursIn_element {tag : Tag} (h : tag.isRare = false) (attributes : List Attribute)
    (children : List Markup) :
    occursIn q (.element tag attributes children) = occurs q children := by
  rw [Markup.occursIn_element, hq.element h, Bool.false_or]

theorem occursIn_void (tag : VoidTag) (attributes : List Attribute) :
    occursIn q (.void tag attributes) = false := by
  rw [Markup.occursIn_void, hq.void]

theorem occursIn_layoutOf (attributes : List Attribute) (blocks : List (List Markup)) :
    occursIn q (layoutOf attributes blocks) = blocks.any (occurs q) := by
  rw [layoutOf, hq.occursIn_element rfl]
  cases blocks <;> simp

theorem occursIn_listOf (ordered : Bool) (start : Option Int) (items : List (List Markup)) :
    occursIn q (listOf ordered start items) = items.any (occurs q) := by
  cases ordered <;> simp +decide [listOf, hq.occursIn_element]

theorem occursIn_quotationOf (quoteType : Option String) (blocks : List (List Markup)) :
    occursIn q (quotationOf quoteType blocks) = blocks.any (occurs q) := by
  simp +decide [quotationOf, hq.occursIn_element]

theorem occurs_asItem (n : Node) (content : List Markup) :
    occurs q (asItem n content) = occurs q content := by
  unfold asItem
  split
  · rfl
  · cases n.isInline <;> simp +decide [hq.occursIn_element]

theorem occursIn_cellOf {tag : Tag} (h : tag.isRare = false) (alignment : Option String)
    (content : List Markup) : occursIn q (cellOf tag alignment content) = occurs q content := by
  simp [cellOf, hq.occursIn_element h]

theorem occursIn_onOwnLines {tag : Tag} (h : tag.isRare = false) (children : List Markup) :
    occursIn q (onOwnLines tag children) = occurs q children := by
  rw [onOwnLines, hq.occursIn_element h]
  simp

theorem occursIn_tableOf (headers : List Markup) (rows : List (List Markup)) :
    occursIn q (tableOf headers rows) = (occurs q headers || rows.any (occurs q)) := by
  have hrow : ∀ cells, occursIn q (onOwnLines .tr cells) = occurs q cells :=
    hq.occursIn_onOwnLines rfl
  have hrows : occurs q (rows.map (onOwnLines .tr)) = rows.any (occurs q) := by
    induction rows with
    | nil => simp
    | cons cells rows ih => simp [hrow, ih]
  rw [tableOf, hq.occursIn_onOwnLines rfl, occurs_cons, hq.occursIn_onOwnLines rfl, occurs_cons,
    hrow, occurs_nil, Bool.or_false, ← hrows]
  cases rows <;> simp +decide [hq.occursIn_onOwnLines]

end IsRare

/-! ## What a reader finds -/

/-- The tag that opens an element, as a piece. -/
def opening? : Markup → Option Piece
  | element tag attributes _ => some (openingPiece tag.text attributes)
  | void tag attributes => some (openingPiece tag.text attributes)
  | _ => none

/-- Whether an element is opened by a tag. -/
def opensWith (p : Piece) (m : Markup) : Bool := m.opening? == some p

mutual

theorem opening_mem_pieces {name : List Char} {attributes : List (List Char × List Char)} :
    (m : Markup) → (.opening name attributes ∈ m.pieces ↔
      occursIn (opensWith (.opening name attributes)) m = true)
  | .text s | .verbatim s => by simp [pieces]
  | .element tag as children => by
      simp only [pieces, occursIn_element, List.mem_append, List.mem_cons, List.not_mem_nil,
        or_false, reduceCtorEq, Bool.or_eq_true, opensWith, opening?, beq_iff_eq,
        Option.some.injEq, ← opening_mem_piecesAll children, eq_comm (a := openingPiece _ _)]
  | .void tag as => by
      simp only [pieces, occursIn_void, List.mem_singleton, opensWith, opening?, beq_iff_eq,
        Option.some.injEq, eq_comm (a := openingPiece _ _)]

/-- **A tag is read where an element is opened by it.** -/
theorem opening_mem_piecesAll {name : List Char} {attributes : List (List Char × List Char)} :
    (ms : List Markup) → (.opening name attributes ∈ piecesAll ms ↔
      occurs (opensWith (.opening name attributes)) ms = true)
  | [] => by simp [piecesAll]
  | m :: ms => by
      rw [piecesAll, List.mem_append, occurs_cons, Bool.or_eq_true, opening_mem_pieces m,
        opening_mem_piecesAll ms]

end

/-- Joining texts leaves the tags. -/
theorem tag_mem_joined {p : Piece} (hp : p.isTag = true) (run : List Char) (ps : List Piece) :
    p ∈ joined run ps ↔ p ∈ ps := by
  have htext (run : List Char) : p ∉ textPiece run := by
    unfold textPiece
    split
    · simp
    · rintro h
      rw [List.mem_singleton.mp h] at hp
      cases hp
  induction ps generalizing run with
  | nil => simp [joined, htext]
  | cons q ps ih =>
      obtain ⟨cs, rfl⟩ | htag := q.exists_text_or_isTag
      · have hne : p ≠ .text cs := by
          rintro rfl
          cases hp
        rw [joined, List.mem_cons, or_iff_right hne]
        exact ih (run ++ cs)
      · rw [joined_tag htag, List.mem_append, List.mem_cons, List.mem_cons,
          or_iff_right (htext run)]
        exact or_congr_right (ih [])

/-! ## Blocks in paragraphs -/

/-- Whether an element is a paragraph with a block in it. -/
def isBroken : Markup → Bool
  | element .p _ children => occurs isBlock children
  | _ => false

theorem name_eq_p (tag : Tag) : ("p".toList == tag.text.toList) = decide (tag = .p) := by
  cases tag <;> decide

/-- A broken paragraph has a block in it. -/
theorem isBroken_element (tag : Tag) (attributes : List Attribute) (children : List Markup) :
    isBroken (element tag attributes children) =
      (decide (tag = .p) && occurs isBlock children) := by
  cases tag <;> simp [isBroken]

mutual

/-- What holds a broken paragraph holds a block. -/
theorem occursIn_isBlock_of_isBroken :
    (m : Markup) → occursIn isBroken m = true → occursIn isBlock m = true
  | .text s, h | .verbatim s, h => by simp at h
  | .element tag attributes children, h => by
      rw [occursIn_element, isBroken_element, Bool.or_eq_true, Bool.and_eq_true] at h
      rw [occursIn_element, Bool.or_eq_true]
      right
      rcases h with h | h
      · exact h.2
      · exact occurs_isBlock_of_isBroken children h
  | .void tag attributes, h => by simp [occursIn_void, isBroken] at h

theorem occurs_isBlock_of_isBroken :
    (ms : List Markup) → occurs isBroken ms = true → occurs isBlock ms = true
  | [], h => by simp at h
  | m :: ms, h => by
      rw [occurs_cons, Bool.or_eq_true] at h ⊢
      exact h.imp (occursIn_isBlock_of_isBroken m) (occurs_isBlock_of_isBroken ms)

end

mutual

theorem breaksParagraph_pieces (opened : List (List Char)) (rest : List Piece) : (m : Markup) →
    breaksParagraph opened (m.pieces ++ rest) =
      ((if opened.contains "p".toList then occursIn isBlock m else occursIn isBroken m) ||
        breaksParagraph opened rest)
  | .text s | .verbatim s => by simp [pieces, breaksParagraph]
  | .element tag attributes children => by
      have hopen (ps : List Piece) :
          breaksParagraph opened (openingPiece tag.text attributes :: ps) =
            (opened.contains "p".toList && blockNames.contains tag.text.toList ||
              breaksParagraph (tag.text.toList :: opened) ps) := by
        rw [openingPiece, breaksParagraph, not_mem_voidNames]
        rfl
      rw [pieces, List.append_assoc, List.cons_append, hopen,
        breaksParagraph_piecesAll (tag.text.toList :: opened) _ children, List.singleton_append,
        breaksParagraph, List.tail_cons, List.contains_cons, occursIn_element, occursIn_element,
        isBroken_element, name_eq_p]
      have hbroken := occurs_isBlock_of_isBroken children
      cases opened.contains "p".toList with
      | true => simp [isBlock, Bool.or_assoc]
      | false =>
          by_cases hp : tag = .p
          · cases hmixed : occurs isBroken children <;> simp_all
          · simp [hp]
  | .void tag attributes => by
      rw [pieces, List.singleton_append, openingPiece, breaksParagraph, mem_voidNames, if_pos rfl,
        occursIn_void, occursIn_void]
      cases opened.contains "p".toList <;> simp [isBlock, isBroken]

/-- **A block is read in an open paragraph** where one is in a paragraph, or where any block is if
a paragraph is open before. -/
theorem breaksParagraph_piecesAll (opened : List (List Char)) (rest : List Piece) :
    (ms : List Markup) → breaksParagraph opened (piecesAll ms ++ rest) =
      ((if opened.contains "p".toList then occurs isBlock ms else occurs isBroken ms) ||
        breaksParagraph opened rest)
  | [] => by simp [piecesAll]
  | m :: ms => by
      rw [piecesAll, List.append_assoc, breaksParagraph_pieces opened _ m,
        breaksParagraph_piecesAll opened rest ms, occurs_cons, occurs_cons, ← Bool.or_assoc]
      split <;> rfl

end

/-- Texts count for nothing. -/
theorem breaksParagraph_joined (opened : List (List Char)) (run : List Char) (ps : List Piece) :
    breaksParagraph opened (joined run ps) = breaksParagraph opened ps := by
  have htext (opened : List (List Char)) (run : List Char) (ps : List Piece) :
      breaksParagraph opened (textPiece run ++ ps) = breaksParagraph opened ps := by
    cases run <;> rfl
  induction ps generalizing opened run with
  | nil => exact (congrArg _ (List.append_nil _).symm).trans (htext opened run [])
  | cons p ps ih =>
      cases p with
      | text cs => exact ih opened (run ++ cs)
      | opening name attributes =>
          rw [joined_tag rfl, htext, breaksParagraph, breaksParagraph, ih]
      | closing name => rw [joined_tag rfl, htext, breaksParagraph, breaksParagraph, ih]

/-- **What is printed is read with its elements**: the tags that open them, and blocks in open
paragraphs where paragraphs are broken. -/
theorem exists_readPieces?_printAll {ms : List Markup} (h : PlainVerbatims (contentsAll ms)) :
    ∃ found, readPieces? (printAll ms) = some found ∧
      (∀ name attributes, .opening name attributes ∈ found ↔
        occurs (opensWith (.opening name attributes)) ms = true) ∧
      breaksParagraph [] found = occurs isBroken ms := by
  refine ⟨joined [] (piecesAll ms), ?_, fun name attributes => ?_, ?_⟩
  · rw [printAll_eq_written, readPieces?_written (sound_piecesAll ms h)]
  · rw [tag_mem_joined rfl, opening_mem_piecesAll]
  · rw [breaksParagraph_joined, ← List.append_nil (piecesAll ms), breaksParagraph_piecesAll]
    simp [breaksParagraph]

end Markup

end Livedoc.Html
