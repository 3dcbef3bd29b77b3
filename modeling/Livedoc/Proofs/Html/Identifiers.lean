import Livedoc.Proofs.Html.Escape
import Livedoc.Proofs.Html.Heading
import Livedoc.Proofs.Html.Reader
import Livedoc.Proofs.Text.Blank
import Livedoc.Proofs.Text.Case
import Mathlib.Data.List.Chain

/-!
# The identifiers in a page

What a heading asks for is made of words in lower case, with a hyphen between two of them
(`exists_slugify_eq`). So it is in normal form: it is not empty, it holds word characters but no
underscore, and its hyphens stand alone and within it (`isSlug_slugify`). Words that are joined by
hyphens are found again (`runsFrom_joinWords`), and lower case is its own lower case, so what is
made from an identifier is the identifier again (`slugify_normal`).

An identifier holds letters and numbers of any script, and hyphens. None of them is a character
that a page could not hold or that a reference could not name, so an identifier reads in the page
as it was made (`decodeReferences_identifier`).

The identifiers of headings are read from what is rendered: from the tags with the name of a
heading, the values of their attributes with the name of an identifier, with the references in
them decoded. They are those of headings that ask one after the other, in the order of the
document (`exists_headingIds_render`), as slides, paged or plain.

So they are distinct exactly if no heading asks for an identifier that another one is given
because others asked for its own before it (`render_headingIds_nodup_iff`).
-/

namespace Livedoc.Html

open Livedoc.Text Livedoc.Tree Markup

/-! ## The form of identifiers -/

section Form

variable {w cs : List Char} {ws : List (List Char)}

/-- A word of an identifier. -/
structure IsSlugWord (w : List Char) : Prop where
  ne_nil : w ≠ []
  chars : ∀ c ∈ w, isSlugChar c = true ∧ isSlugBreak c = false
  small : ∀ c ∈ w, lowerChar c = [c]

/-- The normal form of identifiers: word characters other than the underscore, and hyphens, none of
which stands at an end or next to another one. -/
structure IsSlug (cs : List Char) : Prop where
  ne_nil : cs ≠ []
  chars : ∀ c ∈ cs, c = '-' ∨ isWord c = true ∧ c ≠ '_'
  start : cs.head? ≠ some '-'
  stop : cs.getLast? ≠ some '-'
  apart : cs.IsChain fun c d => c ≠ '-' ∨ d ≠ '-'

/-! ## Words joined by hyphens -/

namespace IsSlugWord

theorem hyphen_not_mem (h : IsSlugWord w) : '-' ∉ w := fun hmem =>
  absurd (h.chars '-' hmem).2 (by decide)

theorem isWord (h : IsSlugWord w) : ∀ c ∈ w, isWord c = true ∧ c ≠ '_' := by
  intro c hc
  obtain ⟨hchar, hbreak⟩ := h.chars c hc
  rw [isSlugChar, hbreak, Bool.or_false] at hchar
  refine ⟨by simp [Text.isWord, hchar], ?_⟩
  rintro rfl
  exact absurd hbreak (by decide)

/-- A word alone is in normal form. -/
theorem isSlug (h : IsSlugWord w) : IsSlug w where
  ne_nil := h.ne_nil
  chars c hc := .inr (h.isWord c hc)
  start hhead := h.hyphen_not_mem (List.mem_of_head? hhead)
  stop hlast := h.hyphen_not_mem (List.mem_of_getLast? hlast)
  apart := by
    refine List.isChain_iff_forall_rel_of_append_cons_cons.mpr ?_
    rintro c d before after rfl
    refine .inl ?_
    rintro rfl
    exact h.hyphen_not_mem (by simp)

end IsSlugWord

/-- A word and a hyphen in front of a text in normal form. -/
theorem IsSlug.join (hw : IsSlugWord w) (hcs : IsSlug cs) : IsSlug (w ++ '-' :: cs) where
  ne_nil := by simp
  chars c hc := by
    rcases List.mem_append.mp hc with hc | hc
    · exact .inr (hw.isWord c hc)
    · rcases List.mem_cons.mp hc with rfl | hc
      · exact .inl rfl
      · exact hcs.chars c hc
  start := by
    rw [List.head?_append_of_ne_nil _ hw.ne_nil]
    exact hw.isSlug.start
  stop := by
    rw [List.getLast?_append_of_ne_nil _ (by simp), List.getLast?_cons_of_ne_nil hcs.ne_nil]
    exact hcs.stop
  apart := by
    refine List.isChain_append.mpr ⟨hw.isSlug.apart, ?_, fun c hc _ _ => .inl ?_⟩
    · refine List.isChain_cons.mpr ⟨fun d hd => .inr ?_, hcs.apart⟩
      rintro rfl
      exact hcs.start hd
    · rintro rfl
      exact hw.isSlug.stop hc

/-- **Words joined by hyphens are in normal form.** -/
theorem isSlug_joinWords (hne : ws ≠ []) (h : ∀ w ∈ ws, IsSlugWord w) :
    IsSlug (joinWords '-' ws) := by
  fun_induction joinWords '-' ws with
  | case1 => exact absurd rfl hne
  | case2 w => exact (h w (by simp)).isSlug
  | case3 w rest hrest ih =>
      obtain ⟨hw, hwords⟩ := List.forall_mem_cons.mp h
      exact .join hw (ih hrest hwords)

theorem mem_joinWords {d c : Char} (h : c ∈ joinWords d ws) :
    c = d ∨ ∃ w ∈ ws, c ∈ w := by
  fun_induction joinWords d ws with
  | case1 => cases h
  | case2 w => exact .inr ⟨w, by simp, h⟩
  | case3 w rest _ ih =>
      rcases List.mem_append.mp h with h | h
      · exact .inr ⟨w, by simp, h⟩
      · rcases List.mem_cons.mp h with rfl | h
        · exact .inl rfl
        · rcases ih h with rfl | ⟨w', hw', hc⟩
          · exact .inl rfl
          · exact .inr ⟨w', by simp [hw'], hc⟩

/-- **Joined words are found again.** -/
theorem runsFrom_joinWords {p : Char → Bool} {d : Char} (hd : p d = true)
    (h : ∀ w ∈ ws, w ≠ [] ∧ ∀ c ∈ w, p c = false) :
    runsFrom (fun c => !p c) (joinWords d ws) [] = ws := by
  fun_induction joinWords d ws with
  | case1 => rfl
  | case2 w =>
      obtain ⟨hne, hw⟩ := h w (by simp)
      have halone : runsFrom (fun c => !p c) (w ++ []) [] = [w] := runsFrom_word hne hw (by simp)
      rwa [List.append_nil] at halone
  | case3 w rest _ ih =>
      obtain ⟨⟨hne, hw⟩, hrest⟩ := List.forall_mem_cons.mp h
      have hgap : runsFrom (fun c => !p c) ([d] ++ joinWords d rest) [] = rest := by
        rw [runsFrom_gap (by simp [hd]), ih hrest]
      rw [List.singleton_append] at hgap
      rw [runsFrom_word hne hw (by simp [hd]), hgap]

/-! ## What headings ask for -/

/-- **An identifier is made of words, joined by hyphens.** -/
theorem exists_slugify_eq (s : String) : ∃ ws, ws ≠ [] ∧ (∀ w ∈ ws, IsSlugWord w) ∧
    slugify s = String.ofList (joinWords '-' ws) := by
  unfold slugify
  dsimp only
  split
  · -- No word is left of the text, so a fixed one stands for it.
    refine ⟨["section".toList], by simp, ?_, rfl⟩
    have key : ("section".toList.all fun c =>
        isSlugChar c && !isSlugBreak c && lowerChar c == [c]) = true := by decide +kernel
    simp only [List.all_eq_true, Bool.and_eq_true, Bool.not_eq_true', beq_iff_eq] at key
    rw [List.forall_mem_singleton]
    exact ⟨by decide, fun c hc => (key c hc).1, fun c hc => (key c hc).2⟩
  · next hjoined =>
      refine ⟨_, ?_, fun w hw => ⟨ne_nil_of_mem_runsFrom hw, fun c hc => ?_, fun c hc => ?_⟩, rfl⟩
      · intro hempty
        rw [hempty] at hjoined
        exact hjoined rfl
      · obtain ⟨hmem, hkeep⟩ := (mem_runsFrom hw hc).resolve_left (by simp)
        exact ⟨(List.mem_filter.mp hmem).2, by simpa using hkeep⟩
      · obtain ⟨hmem, -⟩ := (mem_runsFrom hw hc).resolve_left (by simp)
        exact lowerChar_of_mem_lower (List.mem_filter.mp hmem).1

/-- An identifier is in normal form. -/
theorem isSlug_slugify (s : String) : IsSlug (slugify s).toList := by
  obtain ⟨ws, hne, hwords, hslug⟩ := exists_slugify_eq s
  rw [hslug, String.toList_ofList]
  exact isSlug_joinWords hne hwords

/-- What is made from words joined by hyphens is these words, joined by hyphens. -/
theorem slugify_joinWords (hne : ws ≠ []) (h : ∀ w ∈ ws, IsSlugWord w) :
    slugify (String.ofList (joinWords '-' ws)) = String.ofList (joinWords '-' ws) := by
  have hchars (c : Char) (hc : c ∈ joinWords '-' ws) :
      lowerChar c = [c] ∧ isSlugChar c = true := by
    rcases mem_joinWords hc with rfl | ⟨w, hw, hc⟩
    · decide
    · exact ⟨(h w hw).small c hc, ((h w hw).chars c hc).1⟩
  have hlower : lower (joinWords '-' ws) = joinWords '-' ws :=
    lower_of_forall fun c hc => (hchars c hc).1
  have hkept : (joinWords '-' ws).filter isSlugChar = joinWords '-' ws :=
    List.filter_eq_self.mpr fun c hc => (hchars c hc).2
  have hruns : runsFrom (fun c => !isSlugBreak c) (joinWords '-' ws) [] = ws :=
    runsFrom_joinWords (by decide) fun w hw => ⟨(h w hw).ne_nil, fun c hc => ((h w hw).chars c hc).2⟩
  rw [slugify, String.toList_ofList, hlower, hkept, hruns]
  split
  · next hempty => exact absurd hempty (isSlug_joinWords hne h).ne_nil
  · rfl

/-- **Identifiers are in normal form**, and the identifier made from one is the same. -/
theorem slugify_normal (s : String) :
    IsSlug (slugify s).toList ∧ slugify (slugify s) = slugify s := by
  refine ⟨isSlug_slugify s, ?_⟩
  obtain ⟨ws, hne, hwords, hslug⟩ := exists_slugify_eq s
  rw [hslug]
  exact slugify_joinWords hne hwords

-- What stands between hyphens may be dropped, and the hyphens that meet are one.
example : slugify "A -!- B_" = "a-b" := by decide +kernel

end Form

/-! ## The characters of identifiers -/

/-- A character that is left in an identifier. -/
def isIdentifierChar (c : Char) : Bool := isAlphanumeric c || c == '-'

/-- **An identifier holds letters, numbers and hyphens.** -/
theorem isIdentifierChar_of_mem_slugify {s : String} {c : Char} (h : c ∈ (slugify s).toList) :
    isIdentifierChar c = true := by
  rcases (isSlug_slugify s).chars c h with rfl | ⟨hword, hne⟩
  · rfl
  · have halphanumeric : isAlphanumeric c = true := by simpa [isWord, hne] using hword
    simp [isIdentifierChar, halphanumeric]

/-- Whether no forbidden point lies in a range. -/
def isAllowedRange (r : CharRange) : Bool :=
  0x9F < r.1 && (r.2 < 0xFDD0 || 0xFDEF < r.1) && r.1 / 0x10000 == r.2 / 0x10000 &&
    r.2 % 0x10000 < 0xFFFE

theorem isAllowedRange_alphanumeric : alphanumericRanges.all isAllowedRange = true := by
  decide +kernel

theorem isForbiddenPoint_of_isAllowedRange {r : CharRange} {n : Nat} (h : isAllowedRange r = true)
    (hfirst : r.1 ≤ n) (hlast : n ≤ r.2) : isForbiddenPoint n = false := by
  simp only [isAllowedRange, Bool.and_eq_true, Bool.or_eq_true, decide_eq_true_eq,
    beq_iff_eq] at h
  have hmod : n % 0x10000 ≤ r.2 % 0x10000 := by omega
  simp only [isForbiddenPoint, Bool.or_eq_false_iff, Bool.and_eq_false_iff,
    decide_eq_false_iff_not, beq_eq_false_iff_ne]
  omega

/-- **What is in an identifier is read back as it is.** -/
theorem readBack_of_isIdentifierChar {c : Char} (h : isIdentifierChar c = true) :
    readBack c = [c] := by
  by_cases hwide : c.toNat ≤ 0x7F
  · rw [readBack, if_pos hwide]
  · apply readBack_of_not_forbidden
    have hne : c ≠ '-' := by
      rintro rfl
      exact hwide (by decide)
    have halphanumeric : inRanges alphanumericRanges c = true := by
      simp only [isIdentifierChar, Bool.or_eq_true, beq_iff_eq, hne, or_false] at h
      rwa [isAlphanumeric, if_neg (by omega)] at h
    obtain ⟨r, hr, hfirst, hlast⟩ := inRanges_iff.mp halphanumeric
    have hallowed := List.all_eq_true.mp isAllowedRange_alphanumeric r hr
    exact isForbiddenPoint_of_isAllowedRange hallowed hfirst hlast

/-- The value of an attribute that holds an identifier is the identifier. -/
theorem decodeReferences_identifier {cs : List Char} (h : ∀ c ∈ cs, isIdentifierChar c = true) :
    decodeReferences (escapeAttribute cs) = cs := by
  rw [decodeReferences_escapeAttribute, flatMap_eq_self_iff length_readBack_le]
  exact fun c hc => readBack_of_isIdentifierChar (h c hc)

/-! ## Tags of headings -/

/-- The names of the elements of headings. -/
def headingNames : List (List Char) := ["h1", "h2", "h3", "h4", "h5", "h6"].map String.toList

/-- The identifiers in the tag of a heading, as they are read from a page. -/
def Piece.headingIds : Piece → List (List Char)
  | opening name attributes =>
    if headingNames.contains name then
      (attributes.filter fun a => a.1 == "id".toList).map fun a => decodeReferences a.2
    else []
  | _ => []

/-- An identifier as it is read where it was written as the value of an attribute. -/
def readId (id : String) : List Char := decodeReferences (escapeAttribute id.toList)

theorem contains_headingNames (tag : Tag) :
    headingNames.contains tag.text.toList = tag.isHeading := by
  cases tag <;> decide

theorem not_contains_headingNames (tag : VoidTag) :
    headingNames.contains tag.text.toList = false := by
  cases tag <;> decide

theorem name_eq_id (key : AttributeName) :
    (key.text.toList == "id".toList) = decide (key = .id) := by
  cases key <;> decide

/-- The tag of a heading holds the identifiers that it was given. -/
theorem headingIds_openingPiece (tag : Tag) (attributes : List Attribute) :
    (openingPiece tag.text attributes).headingIds =
      (if tag.isHeading then idsOf attributes else []).map readId := by
  rw [openingPiece, Piece.headingIds, contains_headingNames]
  split
  · have hname (a : Attribute) : (a.written.1 == "id".toList) = decide (a.name = .id) :=
      name_eq_id a.name
    simp only [idsOf, List.filter_map, Function.comp_def, hname, List.map_map]
    rfl
  · rfl

mutual

theorem headingIds_pieces : (m : Markup) →
    m.pieces.flatMap Piece.headingIds = (headingView.of m).map readId
  | .text s => by simp [pieces, Piece.headingIds]
  | .verbatim s => by simp [pieces, Piece.headingIds]
  | .element tag attributes children => by
      simp only [pieces, List.flatMap_append, List.flatMap_cons, headingIds_openingPiece,
        headingIds_piecesAll children, View.of_element, List.map_append]
      simp [Piece.headingIds, headingView]
  | .void tag attributes => by
      have hvoid : (openingPiece tag.text attributes).headingIds = [] := by
        rw [openingPiece, Piece.headingIds, not_contains_headingNames]
        rfl
      simp [pieces, hvoid]

/-- **The identifiers that are read are those in the markup.** -/
theorem headingIds_piecesAll : (ms : List Markup) →
    (piecesAll ms).flatMap Piece.headingIds = (headingView.all ms).map readId
  | [] => by simp [piecesAll]
  | m :: rest => by
      rw [piecesAll, List.flatMap_append, headingIds_pieces m, headingIds_piecesAll rest,
        View.all_cons, List.map_append]

end

/-- Texts hold no identifiers, however they are read. -/
theorem headingIds_joined (run : List Char) (ps : List Piece) :
    (joined run ps).flatMap Piece.headingIds = ps.flatMap Piece.headingIds := by
  have htext (run : List Char) : (textPiece run).flatMap Piece.headingIds = [] := by
    cases run <;> simp [textPiece, Piece.headingIds]
  induction ps generalizing run with
  | nil => simp [joined, htext]
  | cons p ps ih =>
      obtain ⟨cs, rfl⟩ | htag := p.exists_text_or_isTag
      · simp [joined, ih, Piece.headingIds]
      · simp [joined_tag htag, htext, ih]

/-- What is printed is read as pieces with the identifiers of its headings. -/
theorem exists_headingIds_printAll {ms : List Markup} (h : PlainVerbatims (contentsAll ms)) :
    ∃ found, readPieces? (printAll ms) = some found ∧
      found.flatMap Piece.headingIds = (headingView.all ms).map readId := by
  refine ⟨joined [] (piecesAll ms), ?_, ?_⟩
  · rw [printAll_eq_written, readPieces?_written (sound_piecesAll ms h)]
  · rw [headingIds_joined, headingIds_piecesAll]

/-! ## Identifiers that are made from texts -/

/-- What the headings with these texts ask for. -/
def slugsOf (texts : List String) : List String := texts.map slugify

theorem mapM_claimFor (texts : List String) :
    (texts.mapM claimFor []).1 = identifiers (slugsOf texts) := by
  rw [← mapM_claimId, slugsOf, List.mapM_map]
  rfl

/-- A number does not change what an identifier is made of. -/
theorem isIdentifierChar_of_mem_numbered {slug : String} {count : Nat} {c : Char}
    (h : ∀ c ∈ slug.toList, isIdentifierChar c = true) (hc : c ∈ (numbered slug count).toList) :
    isIdentifierChar c = true := by
  rcases Nat.eq_zero_or_pos count with rfl | hcount
  · exact h c hc
  · rw [numbered_of_pos slug hcount, List.mem_append, List.mem_cons] at hc
    rcases hc with hc | rfl | hc
    · exact h c hc
    · rfl
    · have hdigit : c.isDigit = true :=
        Nat.isDigit_of_mem_toDigits (b := 10) (by decide) (by decide) hc
      have hbounds := hdigit
      simp only [Char.isDigit, Bool.and_eq_true, decide_eq_true_eq] at hbounds
      have hsmall : c.toNat < 128 := by
        have : c.val.toNat ≤ 57 := hbounds.2
        show c.val.toNat < 128
        omega
      simp [isIdentifierChar, isAlphanumeric, hsmall, Char.isAlphanum, hdigit]

/-- The identifiers of headings are read as they were given. -/
theorem map_readId_identifiers (texts : List String) :
    (identifiers (slugsOf texts)).map readId = (identifiers (slugsOf texts)).map String.toList := by
  refine List.map_congr_left fun id hid => ?_
  obtain ⟨⟨slug, count⟩, hslug, rfl⟩ := List.mem_map.mp hid
  have hmem : slug ∈ slugsOf texts := by
    have := mem_occurrences.mp hslug
    exact List.count_pos_iff.mp (by omega)
  obtain ⟨text, -, rfl⟩ := List.mem_map.mp hmem
  exact decodeReferences_identifier fun c hc =>
    isIdentifierChar_of_mem_numbered (fun c hc => isIdentifierChar_of_mem_slugify hc) hc

/-! ## Documents -/

/-- What the headings of a document ask for, in the order of the document. -/
def slugs (d : Document) : List String :=
  slugsOf (Node.headingTextsAll d.children)

/-- **The identifiers of the headings in a page** are those of headings that ask one after the
other, in the order of the document. -/
theorem exists_headingIds_render (d : Document) (p : Presentation) :
    ∃ body found,
      (render d p).toList = (if p.standalone then declaration.toList else []) ++ body ∧
        readPieces? body = some found ∧
        found.flatMap Piece.headingIds = (identifiers (slugs d)).map String.toList := by
  have hids (ms : List Markup) (ids : List String)
      (hms : headingView.all ms = ids)
      (hclaims : ids = ((Node.headingTextsAll d.children).mapM claimFor []).1) :
      (headingView.all ms).map readId = (identifiers (slugs d)).map String.toList := by
    rw [hms, hclaims, mapM_claimFor]
    exact map_readId_identifiers _
  unfold render
  cases p.standalone with
  | true =>
      obtain ⟨found, hfound, hheadings⟩ := exists_headingIds_printAll (plainVerbatims_pageOf p d)
      refine ⟨printAll (pageOf p d), found, by simp, hfound, ?_⟩
      have hwrapped := (wrappedContent_claims p.shownType d.children []).2
      rw [hheadings, hids _ _ ((headingView_pageOf p d).trans hwrapped) rfl]
  | false =>
      have hplain := plainVerbatims_of_solid (contentOf_gives d.children [])
      obtain ⟨found, hfound, hheadings⟩ := exists_headingIds_printAll hplain
      refine ⟨printAll (contentOf d.children []).1, found, by simp, hfound, ?_⟩
      rw [hheadings, hids _ _ (contentOf_claims d.children []).2 rfl]

/-- **The identifiers of headings are distinct** exactly if no heading asks for the identifier
that one is given because it is not the first to ask for its own, wherever the headings stand
and as whatever the document is shown. -/
theorem render_headingIds_nodup_iff (d : Document) (p : Presentation) :
    ∃ body found,
      (render d p).toList = (if p.standalone then declaration.toList else []) ++ body ∧
        readPieces? body = some found ∧
        found.flatMap Piece.headingIds = (identifiers (slugs d)).map String.toList ∧
        ((found.flatMap Piece.headingIds).Nodup ↔
          ∀ base ∈ slugs d, ∀ count, 0 < count → count < (slugs d).count base →
            numbered base count ∉ slugs d) := by
  obtain ⟨body, found, hbody, hfound, hids⟩ := exists_headingIds_render d p
  have hinjective : Function.Injective String.toList := fun _ _ => String.toList_inj.mp
  refine ⟨body, found, hbody, hfound, hids, ?_⟩
  rw [hids, List.nodup_map_iff hinjective, identifiers_nodup_iff]

/-- Two headings that ask for the same, and one that asks for what the second of them gets. -/
def contested : Document where
  children :=
    [.heading 1 [.text "A" .unknown] .unknown, .heading 1 [.text "A" .unknown] .unknown,
      .heading 1 [.text "A 1" .unknown] .unknown]

/-- The last two headings get the same identifier. -/
theorem render_headingIds_contested :
    ∃ body found, (render contested { standalone := false }).toList = body ∧
      readPieces? body = some found ∧
      found.flatMap Piece.headingIds = ["a", "a-1", "a-1"].map String.toList ∧
      ¬ (found.flatMap Piece.headingIds).Nodup := by
  obtain ⟨body, found, hbody, hfound, hids⟩ :=
    exists_headingIds_render contested { standalone := false }
  have hcontested : identifiers (slugs contested) = ["a", "a-1", "a-1"] := by decide +kernel
  rw [hcontested] at hids
  refine ⟨body, found, hbody, hfound, hids, ?_⟩
  rw [hids]
  decide

end Livedoc.Html
