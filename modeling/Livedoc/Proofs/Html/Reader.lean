import Livedoc.Html.Markup
import Livedoc.Proofs.Html.Escape

/-!
# Reading markup

A text of markup is read from left to right, one character at a time, into texts and tags
(`readPieces?`). The reader knows no names: it takes an angle bracket for the start of a
tag wherever it meets one in a text, and a double quote for the end of a value wherever it
meets one in a value. So a text that was to be shown and holds a bracket would come out as
a tag, or make the reader fail.

A piece is sound if nothing in it could be read as anything else. Sound pieces that are
written one after the other are read as they were, but for texts that stand side by side,
which are read as one (`readPieces?_written`).
-/

namespace Livedoc.Html

open Livedoc.Text

/-! ## Pieces -/

/-- A text or a tag of a page, with the names and the values as they are written. -/
inductive Piece where
  | text (cs : List Char)
  | opening (name : List Char) (attributes : List (List Char × List Char))
  | closing (name : List Char)
deriving DecidableEq, Repr

/-- An attribute as it is written. -/
def writtenAttribute (a : List Char × List Char) : List Char :=
  ' ' :: a.1 ++ '=' :: '"' :: a.2 ++ ['"']

namespace Piece

/-- A piece as it is written. -/
def written : Piece → List Char
  | text cs => cs
  | opening name attributes => '<' :: name ++ attributes.flatMap writtenAttribute ++ ['>']
  | closing name => '<' :: '/' :: name ++ ['>']

/-- Whether a piece says what it means wherever it stands: a text without angle brackets,
or a tag with a name of an element and names of attributes, whose values are without angle
brackets and double quotes. -/
def Sound : Piece → Prop
  | text cs => ∀ c ∈ cs, c ≠ '<' ∧ c ≠ '>'
  | opening name attributes =>
    ((∃ tag : Tag, name = tag.text.toList) ∨ ∃ tag : VoidTag, name = tag.text.toList) ∧
      ∀ a ∈ attributes, (∃ key : AttributeName, a.1 = key.text.toList) ∧
        ∀ c ∈ a.2, c ≠ '<' ∧ c ≠ '>' ∧ c ≠ '"'
  | closing name => ∃ tag : Tag, name = tag.text.toList

end Piece

/-- The elements without content, which are never closed. -/
def voidNames : List (List Char) :=
  ["area", "base", "br", "col", "embed", "hr", "img", "input", "link", "meta", "source", "track",
    "wbr"].map String.toList

/-- Whether every closing tag closes the element that was opened last, the elements `opened`
being open before the first piece, and no element stays open. -/
def isNested : List (List Char) → List Piece → Bool
  | opened, [] => opened.isEmpty
  | opened, .text _ :: rest => isNested opened rest
  | opened, .opening name _ :: rest =>
    isNested (if voidNames.contains name then opened else name :: opened) rest
  | [], .closing _ :: _ => false
  | last :: opened, .closing name :: rest => last == name && isNested opened rest

/-! ## The reader -/

/-- What the reader is in the middle of, with what it has read of it. -/
inductive Reader where
  | text (run : List Char)
  /-- The name of a tag. -/
  | opening (name : List Char)
  /-- The name of a tag that closes an element. -/
  | closing (name : List Char)
  /-- The name of an attribute. -/
  | naming (name : List Char) (attributes : List (List Char × List Char)) (key : List Char)
  /-- An attribute whose value is to come. -/
  | assigning (name : List Char) (attributes : List (List Char × List Char)) (key : List Char)
  /-- The value of an attribute. -/
  | quoting (name : List Char) (attributes : List (List Char × List Char)) (key value : List Char)
  /-- A tag whose last attribute is complete. -/
  | tagging (name : List Char) (attributes : List (List Char × List Char))
deriving DecidableEq, Repr

/-- A text, unless it is empty. -/
def textPiece (run : List Char) : List Piece := if run.isEmpty then [] else [.text run]

/-- A character of the name of a tag or of an attribute. -/
def isTagNameChar (c : Char) : Bool := c.isLower || c.isDigit

/-- Reading one character: the pieces that it completes, and what the reader is in then. -/
def Reader.step (r : Reader) (c : Char) : Option (List Piece × Reader) :=
  match r with
  | .text run =>
    if c = '<' then some (textPiece run, .opening [])
    else if c = '>' then none
    else some ([], .text (run ++ [c]))
  | .opening name =>
    if c = '/' ∧ name = [] then some ([], .closing [])
    else if c = ' ' then some ([], .naming name [] [])
    else if c = '>' then some ([.opening name []], .text [])
    else if isTagNameChar c then some ([], .opening (name ++ [c]))
    else none
  | .closing name =>
    if c = '>' then some ([.closing name], .text [])
    else if isTagNameChar c then some ([], .closing (name ++ [c]))
    else none
  | .naming name attributes key =>
    if c = '=' then some ([], .assigning name attributes key)
    else if isTagNameChar c then some ([], .naming name attributes (key ++ [c]))
    else none
  | .assigning name attributes key =>
    if c = '"' then some ([], .quoting name attributes key []) else none
  | .quoting name attributes key value =>
    if c = '"' then some ([], .tagging name (attributes ++ [(key, value)]))
    else some ([], .quoting name attributes key (value ++ [c]))
  | .tagging name attributes =>
    if c = ' ' then some ([], .naming name attributes [])
    else if c = '>' then some ([.opening name attributes], .text [])
    else none

/-- The pieces that the reader finds. It must not end within a tag. -/
def Reader.read? : Reader → List Char → Option (List Piece)
  | .text run, [] => some (textPiece run)
  | _, [] => none
  | r, c :: rest =>
    match r.step c with
    | some (found, next) => (next.read? rest).map (found ++ ·)
    | none => none

/-- The pieces of a text of markup, if it can be read. -/
def readPieces? (cs : List Char) : Option (List Piece) := (Reader.text []).read? cs

example : readPieces? "<p id=\"x\">a &lt; b<br></p>".toList =
    some [.opening "p".toList [("id".toList, "x".toList)], .text "a &lt; b".toList,
      .opening "br".toList [], .closing "p".toList] := by decide

example : readPieces? "<p>a < b</p>".toList = none := by decide

/-! ## Reading what was written -/

namespace Reader

/-- A character that completes pieces. -/
theorem read?_of_found {r next : Reader} {c : Char} {found : List Piece}
    (h : r.step c = some (found, next)) (rest : List Char) :
    r.read? (c :: rest) = (next.read? rest).map (found ++ ·) := by
  rw [read?, h]

/-- A character that completes no piece. -/
theorem read?_of_step {r next : Reader} {c : Char} (h : r.step c = some ([], next))
    (rest : List Char) : r.read? (c :: rest) = next.read? rest := by
  rw [read?_of_found h]
  exact Option.map_id'

/-- A reader that takes up each of some characters takes up all of them. -/
theorem read?_collect (r : List Char → Reader) {cs : List Char}
    (h : ∀ c ∈ cs, ∀ run, (r run).step c = some ([], r (run ++ [c]))) (run rest : List Char) :
    (r run).read? (cs ++ rest) = (r (run ++ cs)).read? rest := by
  induction cs generalizing run with
  | nil => rw [List.nil_append, List.append_nil]
  | cons c cs ih =>
      rw [List.cons_append, read?_of_step (h c (by simp) run), ih fun x hx => h x (by simp [hx]),
        List.append_assoc, List.singleton_append]

/-- A text without angle brackets is taken up. -/
theorem read?_text {cs : List Char} (h : ∀ c ∈ cs, c ≠ '<' ∧ c ≠ '>') (run rest : List Char) :
    (text run).read? (cs ++ rest) = (text (run ++ cs)).read? rest :=
  read?_collect text (fun c hc run => by simp [step, h c hc]) run rest

end Reader

/-- Whether a text is one that the reader takes for a name. -/
def IsTagName (name : List Char) : Prop := name.all isTagNameChar = true

theorem Tag.isTagName (tag : Tag) : IsTagName tag.text.toList := by
  unfold IsTagName
  cases tag <;> decide

theorem VoidTag.isTagName (tag : VoidTag) : IsTagName tag.text.toList := by
  unfold IsTagName
  cases tag <;> decide

theorem AttributeName.isTagName (key : AttributeName) : IsTagName key.text.toList := by
  unfold IsTagName
  cases key <;> decide

namespace IsTagName

variable {name key : List Char}

theorem of_mem (h : IsTagName name) {c : Char} (hc : c ∈ name) : isTagNameChar c = true :=
  List.all_eq_true.mp h c hc

/-- What stands in no name. -/
theorem ne (h : IsTagName name) {c d : Char} (hc : c ∈ name) (hd : isTagNameChar d = false) :
    c ≠ d := by
  rintro rfl
  exact Bool.false_ne_true (hd.symm.trans (h.of_mem hc))

theorem read?_name (h : IsTagName name) (run rest : List Char) :
    (Reader.opening run).read? (name ++ rest) = (Reader.opening (run ++ name)).read? rest :=
  Reader.read?_collect .opening (fun c hc run => by
    have hslash := h.ne hc (d := '/') rfl
    have hspace := h.ne hc (d := ' ') rfl
    have hend := h.ne hc (d := '>') rfl
    simp [Reader.step, hslash, hspace, hend, h.of_mem hc]) run rest

theorem read?_closing (h : IsTagName name) (run rest : List Char) :
    (Reader.closing run).read? (name ++ rest) = (Reader.closing (run ++ name)).read? rest :=
  Reader.read?_collect .closing (fun c hc run => by
    have hend := h.ne hc (d := '>') rfl
    simp [Reader.step, hend, h.of_mem hc]) run rest

theorem read?_key (h : IsTagName key) (name : List Char)
    (attributes : List (List Char × List Char)) (run rest : List Char) :
    (Reader.naming name attributes run).read? (key ++ rest) =
      (Reader.naming name attributes (run ++ key)).read? rest :=
  Reader.read?_collect (.naming name attributes) (fun c hc run => by
    have hequals := h.ne hc (d := '=') rfl
    simp [Reader.step, hequals, h.of_mem hc]) run rest

end IsTagName

namespace Reader

/-- One attribute is taken up after a name or after another attribute. -/
theorem read?_attribute {r : Reader} {name key value : List Char}
    {attributes : List (List Char × List Char)}
    (hr : r.step ' ' = some ([], .naming name attributes []))
    (hkey : IsTagName key) (hvalue : ∀ c ∈ value, c ≠ '"') (rest : List Char) :
    r.read? (writtenAttribute (key, value) ++ rest) =
      (tagging name (attributes ++ [(key, value)])).read? rest := by
  have hvalues : (Reader.quoting name attributes key []).read? (value ++ '"' :: rest) =
      (Reader.quoting name attributes key value).read? ('"' :: rest) :=
    read?_collect (.quoting name attributes key) (fun c hc run => by simp [step, hvalue c hc]) [] _
  calc r.read? (writtenAttribute (key, value) ++ rest)
      = r.read? (' ' :: (key ++ '=' :: '"' :: (value ++ '"' :: rest))) := by simp [writtenAttribute]
    _ = (Reader.naming name attributes key).read? ('=' :: '"' :: (value ++ '"' :: rest)) := by
        rw [read?_of_step hr, hkey.read?_key]
        rfl
    _ = (Reader.quoting name attributes key []).read? (value ++ '"' :: rest) := by
        rw [read?_of_step (r := .naming name attributes key) (c := '=') rfl,
          read?_of_step (r := .assigning name attributes key) (c := '"') rfl]
    _ = (tagging name (attributes ++ [(key, value)])).read? rest := by
        rw [hvalues, read?_of_step (r := .quoting name attributes key value) (c := '"') rfl]

/-- Further attributes and the end of the tag. -/
theorem read?_attributes {name : List Char} {attributes more : List (List Char × List Char)}
    (h : ∀ a ∈ more, IsTagName a.1 ∧ ∀ c ∈ a.2, c ≠ '"') (rest : List Char) :
    (tagging name attributes).read? (more.flatMap writtenAttribute ++ '>' :: rest) =
      ((text []).read? rest).map (.opening name (attributes ++ more) :: ·) := by
  induction more generalizing attributes with
  | nil =>
      rw [List.flatMap_nil, List.nil_append, List.append_nil,
        read?_of_found (r := .tagging name attributes) (c := '>') rfl]
      rfl
  | cons a more ih =>
      obtain ⟨hkey, hvalue⟩ := h a (by simp)
      rw [List.flatMap_cons, List.append_assoc, read?_attribute rfl hkey hvalue,
        ih fun b hb => h b (by simp [hb]), List.append_assoc, List.singleton_append]

end Reader

namespace Piece

/-- A tag is a piece that is no text. -/
def isTag : Piece → Bool
  | text _ => false
  | _ => true

theorem exists_text_or_isTag (p : Piece) : (∃ cs, p = text cs) ∨ p.isTag = true := by
  cases p with
  | text cs => exact .inl ⟨cs, rfl⟩
  | opening name attributes => exact .inr rfl
  | closing name => exact .inr rfl

/-- A sound tag ends the text before it and is found. -/
theorem Sound.read?_tag {p : Piece} (h : p.Sound) (htag : p.isTag = true) (run rest : List Char) :
    (Reader.text run).read? (p.written ++ rest) =
      ((Reader.text []).read? rest).map (textPiece run ++ p :: ·) := by
  have hopen (cs : List Char) : (Reader.text run).read? ('<' :: cs) =
      ((Reader.opening []).read? cs).map (textPiece run ++ ·) := Reader.read?_of_found rfl cs
  cases p with
  | text cs => cases htag
  | closing name =>
      obtain ⟨tag, rfl⟩ := h
      have hclose : (Reader.closing tag.text.toList).read? ('>' :: rest) =
          ((Reader.text []).read? rest).map ([.closing tag.text.toList] ++ ·) :=
        Reader.read?_of_found rfl rest
      rw [show (closing tag.text.toList).written ++ rest =
          '<' :: '/' :: (tag.text.toList ++ '>' :: rest) by simp [written],
        hopen, Reader.read?_of_step (r := .opening []) (c := '/') rfl, tag.isTagName.read?_closing,
        List.nil_append, hclose, Option.map_map]
      rfl
  | opening name attributes =>
      obtain ⟨hname, hattributes⟩ := h
      have hname : IsTagName name := by
        obtain ⟨tag, rfl⟩ | ⟨tag, rfl⟩ := hname
        · exact tag.isTagName
        · exact tag.isTagName
      have hall : ∀ a ∈ attributes, IsTagName a.1 ∧ ∀ c ∈ a.2, c ≠ '"' := by
        intro a ha
        obtain ⟨⟨key, hkey⟩, hvalue⟩ := hattributes a ha
        exact ⟨hkey ▸ key.isTagName, fun c hc => (hvalue c hc).2.2⟩
      have hrest :
          (Reader.opening name).read? (attributes.flatMap writtenAttribute ++ '>' :: rest) =
            ((Reader.text []).read? rest).map (.opening name attributes :: ·) := by
        cases attributes with
        | nil =>
            rw [List.flatMap_nil, List.nil_append,
              Reader.read?_of_found (r := .opening name) (c := '>') rfl]
            rfl
        | cons a attributes =>
            obtain ⟨hkey, hvalue⟩ := hall a (by simp)
            have hspace : (Reader.opening name).step ' ' = some ([], .naming name [] []) := rfl
            rw [List.flatMap_cons, List.append_assoc, Reader.read?_attribute hspace hkey hvalue,
              Reader.read?_attributes fun b hb => hall b (by simp [hb])]
            rfl
      rw [show (opening name attributes).written ++ rest =
          '<' :: (name ++ (attributes.flatMap writtenAttribute ++ '>' :: rest)) by simp [written],
        hopen, hname.read?_name, List.nil_append, hrest, Option.map_map]
      rfl

end Piece

/-! ## Texts side by side -/

/-- Pieces after the text `run`, with texts that stand side by side made one and empty ones
left out. -/
def joined : List Char → List Piece → List Piece
  | run, [] => textPiece run
  | run, .text cs :: rest => joined (run ++ cs) rest
  | run, p :: rest => textPiece run ++ p :: joined [] rest

theorem joined_tag {p : Piece} (h : p.isTag = true) (run : List Char) (rest : List Piece) :
    joined run (p :: rest) = textPiece run ++ p :: joined [] rest := by
  cases p with
  | text cs => cases h
  | opening name attributes => rfl
  | closing name => rfl

/-- **Sound pieces are read as they were written.** -/
theorem readPieces?_written {ps : List Piece} (h : ∀ p ∈ ps, p.Sound) :
    readPieces? (ps.flatMap Piece.written) = some (joined [] ps) := by
  suffices hrun : ∀ run, (Reader.text run).read? (ps.flatMap Piece.written) = some (joined run ps)
    from hrun []
  induction ps with
  | nil => exact fun run => rfl
  | cons p ps ih =>
      intro run
      have hrest := ih fun q hq => h q (by simp [hq])
      have hp : p.Sound := h p (by simp)
      rw [List.flatMap_cons]
      obtain ⟨cs, rfl⟩ | htag := p.exists_text_or_isTag
      · rw [Piece.written, Reader.read?_text hp, hrest]
        rfl
      · rw [hp.read?_tag htag, hrest, joined_tag htag]
        rfl

end Livedoc.Html

/-!
## The pieces of markup

Markup that is built as a tree is printed piece by piece (`Markup.printAll_eq_written`): a
text is one piece, an element is a tag, the pieces of its content and a closing tag. These
pieces are nested whatever the tree is (`Markup.isNested_piecesAll`), and they are sound as
soon as the verbatim texts are free of angle brackets (`Markup.sound_piecesAll`). So what is
printed is well-formed (`Markup.wellFormed_printAll`).

What a tree of markup shows is kept apart from its tags: its contents are the characters of
its texts and the verbatim texts, in order.
-/

namespace Livedoc.Html

/-- The name and the value of an attribute as they are written. -/
def Attribute.written (a : Attribute) : List Char × List Char :=
  (a.name.text.toList, escapeAttribute a.value.toList)

/-- A tag that opens an element, or one of an element without content. -/
def openingPiece (name : String) (attributes : List Attribute) : Piece :=
  .opening name.toList (attributes.map Attribute.written)

/-- A tag is printed as it is written. -/
theorem printTag_eq_written (name : String) (attributes : List Attribute) :
    printTag name attributes = (openingPiece name attributes).written := by
  rw [printTag, openingPiece, Piece.written, List.flatMap_map]
  rfl

/-- The values of attributes are escaped, so a tag is sound if its name is. -/
theorem sound_openingPiece {name : String} (h : (∃ tag : Tag, name.toList = tag.text.toList) ∨
    ∃ tag : VoidTag, name.toList = tag.text.toList) (attributes : List Attribute) :
    (openingPiece name attributes).Sound := by
  refine ⟨h, fun written hwritten => ?_⟩
  obtain ⟨a, -, rfl⟩ := List.mem_map.mp hwritten
  refine ⟨⟨a.name, rfl⟩, fun c hc => ?_⟩
  have hout := (isHarmless_of_mem_escapeAttribute hc).2
  simp only [List.mem_cons, not_or] at hout
  exact ⟨hout.1, hout.2.1, hout.2.2.1⟩

/-- An escaped text is one. -/
theorem sound_escape (cs : List Char) : (Piece.text (escape cs)).Sound := by
  intro c hc
  have hout := (isHarmless_of_mem_escape hc).2
  simp only [List.mem_cons, not_or] at hout
  exact ⟨hout.1, hout.2.1⟩

namespace Markup

/-! ## Pieces -/

mutual

/-- The pieces that markup is printed as. -/
def pieces : Markup → List Piece
  | text s => [.text (escape s.toList)]
  | verbatim s => [.text s.toList]
  | element tag attributes children =>
    openingPiece tag.text attributes :: piecesAll children ++ [.closing tag.text.toList]
  | void tag attributes => [openingPiece tag.text attributes]

/-- The pieces that several pieces of markup are printed as. -/
def piecesAll : List Markup → List Piece
  | [] => []
  | m :: rest => pieces m ++ piecesAll rest

end

mutual

theorem print_eq_written : (m : Markup) → m.print = m.pieces.flatMap Piece.written
  | .text s | .verbatim s => by simp [print, pieces, Piece.written]
  | .element tag attributes children => by
      simp [print, pieces, printTag_eq_written, printAll_eq_written children, Piece.written]
  | .void tag attributes => by simp [print, pieces, printTag_eq_written]

/-- **Markup is printed piece by piece.** -/
theorem printAll_eq_written : (ms : List Markup) →
    printAll ms = (piecesAll ms).flatMap Piece.written
  | [] => rfl
  | m :: rest => by
      rw [printAll, piecesAll, List.flatMap_append, print_eq_written m, printAll_eq_written rest]

end

/-! ## Nesting -/

theorem not_mem_voidNames (tag : Tag) : voidNames.contains tag.text.toList = false := by
  cases tag <;> decide

theorem mem_voidNames (tag : VoidTag) : voidNames.contains tag.text.toList = true := by
  cases tag <;> decide

mutual

theorem isNested_pieces (names : List (List Char)) (rest : List Piece) :
    (m : Markup) → isNested names (m.pieces ++ rest) = isNested names rest
  | .text _ | .verbatim _ => rfl
  | .element tag attributes children => by
      have hopen (ps : List Piece) : isNested names (openingPiece tag.text attributes :: ps) =
          isNested (tag.text.toList :: names) ps := by
        rw [openingPiece, isNested, not_mem_voidNames]
        rfl
      rw [pieces, List.append_assoc, List.cons_append, hopen,
        isNested_piecesAll (tag.text.toList :: names) _ children, List.singleton_append, isNested,
        beq_self_eq_true, Bool.true_and]
  | .void tag attributes => by
      rw [pieces, List.singleton_append, openingPiece, isNested, mem_voidNames]
      rfl

/-- **Elements are closed in the order in which they were opened.** -/
theorem isNested_piecesAll (names : List (List Char)) (rest : List Piece) :
    (ms : List Markup) → isNested names (piecesAll ms ++ rest) = isNested names rest
  | [] => rfl
  | m :: ms => by
      rw [piecesAll, List.append_assoc, isNested_pieces names _ m, isNested_piecesAll names rest ms]

end

/-! ## Contents -/

mutual

/-- The characters of the texts, and the verbatim texts. -/
def contents : Markup → List (Char ⊕ String)
  | text s => s.toList.map .inl
  | verbatim s => [.inr s]
  | element _ _ children => contentsAll children
  | void .. => []

/-- The contents of several pieces of markup. -/
def contentsAll : List Markup → List (Char ⊕ String)
  | [] => []
  | m :: rest => contents m ++ contentsAll rest

end

/-- Whether verbatim texts are free of angle brackets. -/
def PlainVerbatims (contents : List (Char ⊕ String)) : Prop :=
  ∀ s, .inr s ∈ contents → (Piece.text s.toList).Sound

mutual

theorem sound_pieces : (m : Markup) → PlainVerbatims m.contents → ∀ p ∈ m.pieces, p.Sound
  | .text s, _ => by
      intro p hp
      rw [pieces, List.mem_singleton] at hp
      exact hp ▸ sound_escape s.toList
  | .verbatim s, h => by
      intro p hp
      rw [pieces, List.mem_singleton] at hp
      exact hp ▸ h s (by simp [contents])
  | .element tag attributes children, h => by
      intro p hp
      rw [pieces, List.mem_append, List.mem_cons, List.mem_singleton] at hp
      rcases hp with (rfl | hp) | rfl
      · exact sound_openingPiece (.inl ⟨tag, rfl⟩) attributes
      · exact sound_piecesAll children (by rwa [contents] at h) p hp
      · exact ⟨tag, rfl⟩
  | .void tag attributes, _ => by
      intro p hp
      rw [pieces, List.mem_singleton] at hp
      exact hp ▸ sound_openingPiece (.inr ⟨tag, rfl⟩) attributes

/-- **The pieces are sound** if the verbatim texts are free of angle brackets. -/
theorem sound_piecesAll : (ms : List Markup) → PlainVerbatims (contentsAll ms) →
    ∀ p ∈ piecesAll ms, p.Sound
  | [], _ => by simp [piecesAll]
  | m :: ms, h => by
      intro p hp
      rw [piecesAll, List.mem_append] at hp
      rcases hp with hp | hp
      · exact sound_pieces m (fun s hs => h s (by simp [contentsAll, hs])) p hp
      · exact sound_piecesAll ms (fun s hs => h s (by simp [contentsAll, hs])) p hp

end

end Markup

end Livedoc.Html
