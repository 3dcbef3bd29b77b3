import Livedoc.Proofs.Document.QuotedSource
import Livedoc.Proofs.Document.QuoteType
import Livedoc.Proofs.Markdown.BehindMarker

/-!
# A label adds the type and nothing else

The label of a typed quotation is rewritten into a marker, the marker stays in front of the first
paragraph while the lines are read (`behindMarker_labelled`), and it is taken off that paragraph
again (`bareBlock_quote_labelled`).  So a quotation that would be one paragraph without its label is
the same paragraph with it, and has a type (`read_labelled`).
-/

namespace Livedoc.Document

open Livedoc.Source Livedoc.Text Livedoc.Tree Livedoc.Tree.Node Livedoc.Markdown

/-! ## The label -/

/-- Small letters are small letters of ASCII. -/
private theorem toNat_lt_of_toLower {c letter : Char} (h : c.toLower = letter)
    (hletter : letter.toNat < 128) : c.toNat < 128 := by
  unfold Char.toLower at h
  split at h
  · next hupper =>
      have hlast : c.val ≤ 90 := hupper.2
      have hcode : c.toNat ≤ 90 := UInt32.le_iff_toNat_le.mp hlast
      omega
  · rwa [h]

/-- The capital letter of a letter in either case. -/
theorem upperChar_of_toLower {c letter : Char} (h : c.toLower = letter)
    (hletter : letter.toNat < 128) : upperChar c = [letter.toUpper] := by
  have hcode := toNat_lt_of_toLower h hletter
  have key : ∀ n < 128, (Char.ofNat n).toUpper = (Char.ofNat n).toLower.toUpper := by decide
  have hc := key c.toNat hcode
  rw [Char.ofNat_toNat] at hc
  rw [upperChar, if_pos hcode, hc, h]

/-- A label in capital letters names the marker. -/
theorem upper_eq_markerName {label : List Char} (h : ∀ c ∈ label, c.toLower.toNat < 128) :
    upper label = markerName (label.map Char.toLower) := by
  induction label with
  | nil => rfl
  | cons c label ih =>
      rw [List.forall_mem_cons] at h
      rw [upper, List.flatMap_cons, upperChar_of_toLower rfl h.1]
      exact congrArg (c.toLower.toUpper :: ·) (ih h.2)

variable {label : List Char}

/-- **A label is recognised** in whatever case it is written. -/
theorem takeLabel?_label (h : label.map Char.toLower ∈ quoteLabels) (rest : List Char) :
    takeLabel? (label ++ rest) = some (label, rest) := by
  refine takeLabel?_eq_some_iff.mpr ⟨⟨label.map Char.toLower, h, ?_⟩, rfl⟩
  rw [List.forall₂_map_left_iff, List.forall₂_same]
  intro c _
  simp [sameLetter]

theorem isAscii_of_label (h : label.map Char.toLower ∈ quoteLabels) :
    ∀ c ∈ label, c.toLower.toNat < 128 := by
  intro c hc
  have hall : (quoteLabels.all fun word => word.all fun c => c.toNat < 128) = true := by decide
  have hword := List.all_eq_true.mp hall _ h
  exact of_decide_eq_true (List.all_eq_true.mp hword _ (List.mem_map_of_mem hc))

/-! ## The line of the label -/

/-- What stands behind the marker that a label becomes: the text without white space in front. -/
def behindLabel (text : List Char) : List Char :=
  if isBlankLine text then [] else ' ' :: text.dropWhile isGap

/-- Where a text does not end in white space, no more than spaces and tabs in front of it are
dropped. -/
theorem trimEnd_label {text : List Char}
    (hend : isBlankLine text = true ∨ ∀ c ∈ text.getLast?, isBlank c = false) (name : List Char) :
    trimEnd ("> ".toList ++ quoteMarker name ++ ' ' :: text.dropWhile isGap) =
      '>' :: ' ' :: (quoteMarker name ++ behindLabel text) := by
  have hmarker (after : List Char) :
      trimEnd ("> ".toList ++ quoteMarker name ++ after) =
        '>' :: ' ' :: (quoteMarker name ++ trimEnd after) :=
    trimEnd_quoteMarker "> ".toList name after
  rw [hmarker, behindLabel]
  cases hblank : isBlankLine text with
  | true =>
      have hgaps : ∀ c ∈ ' ' :: text.dropWhile isGap, isBlank c = true := by
        refine List.forall_mem_cons.mpr ⟨by decide, fun c hc => ?_⟩
        exact isBlank_of_isLineGap (isBlankLine_iff.mp hblank c ((List.dropWhile_sublist _).subset hc))
      rw [trimEnd, dropEndWhile_of_all hgaps]
      rfl
  | false =>
      obtain ⟨before, last, rfl⟩ : ∃ before last, text = before ++ [last] := by
        have hne : text ≠ [] := by
          rintro rfl
          cases hblank
        exact ⟨text.dropLast, text.getLast hne, (List.dropLast_concat_getLast hne).symm⟩
      have hlast : isBlank last = false :=
        hend.resolve_left (by simp [hblank]) last (by simp)
      have hgap : isGap last = false := by
        rw [← Bool.not_eq_true]
        exact fun hgap => by simp [isBlank_of_isGap hgap] at hlast
      have hdrop : (before ++ [last]).dropWhile isGap = before.dropWhile isGap ++ [last] := by
        rw [List.dropWhile_append, List.dropWhile_cons_of_neg (by simp [hgap])]
        split
        · next hempty => rw [List.isEmpty_iff.mp hempty, List.nil_append]
        · rfl
      have hkept := dropEndWhile_append_cons hlast (' ' :: before.dropWhile isGap) []
      rw [hdrop, trimEnd]
      simpa [dropEndWhile] using hkept

/-- **The line of a label is rewritten into a line of a marker.** -/
theorem markLabel?_label (h : label.map Char.toLower ∈ quoteLabels) {text : List Char}
    (hend : isBlankLine text = true ∨ ∀ c ∈ text.getLast?, isBlank c = false) :
    markLabel? ('>' :: ' ' :: (label ++ ':' :: ' ' :: text)) =
      some ('>' :: ' ' ::
        (quoteMarker (markerName (label.map Char.toLower)) ++ behindLabel text)) := by
  have hmark : takeQuoteMark? ('>' :: ' ' :: (label ++ ':' :: ' ' :: text)) =
      some (['>'], ' ' :: (label ++ ':' :: ' ' :: text)) := rfl
  have hgap : (' ' :: text).dropWhile isGap = text.dropWhile isGap := rfl
  have htext : ['>'] ++ [' '] ++ "[!".toList ++ markerName (label.map Char.toLower) ++ "] ".toList ++
      text.dropWhile isGap =
        "> ".toList ++ quoteMarker (markerName (label.map Char.toLower)) ++
          ' ' :: text.dropWhile isGap := by
    simp [quoteMarker]
  simp only [markLabel?, hmark, takeLabel?_label h]
  rw [hgap, upper_eq_markerName (isAscii_of_label h), htext, trimEnd_label hend]

/-! ## The lines behind the label -/

/-- What follows a label is text: the first line of it that is not blank starts neither HTML nor the
definition of a reference, and it does not underline the line of the label. -/
structure LeavesText (line : Line) (rest : List Line) : Prop where
  here : isBlankLine line.chars = false → StartsText line rest
  below : isBlankLine line.chars = true → ∀ next after, continuing? rest = some (next, after) →
    StartsText next after ∧ underline? next.chars = none

/-- **Lines behind a label are read behind a marker.** -/
theorem behindMarker_labelled (rules : Rules) {name text : List Char} {rest : List Line}
    (hletters : ∀ c ∈ name, c.isAlpha = true) (hout : rules.outermost = false)
    (htext : LeavesText (quotedLine (' ' :: text)) rest) (refs : References) :
    BehindMarker (quoteMarker name)
      (readLines rules 0 (quotedLine (' ' :: text) :: rest) ⟨[], refs⟩)
      (readLines rules 0 (quotedLine (' ' :: (quoteMarker name ++ behindLabel text)) :: rest)
        ⟨[], refs⟩) := by
  have hline : (quotedLine (' ' :: (quoteMarker name ++ behindLabel text))).chars =
      quoteMarker name ++ behindLabel text := rfl
  have hdrop : (quotedLine (' ' :: text)).chars.dropWhile isGap = text.dropWhile isGap :=
    dropWhile_quotedLine (' ' :: text)
  have hblank : isBlankLine (quotedLine (' ' :: text)).chars = isBlankLine text := by
    rw [isBlankLine_quotedLine]
    rfl
  have htail : ∀ c ∈ (behindLabel text).head?, c = ' ' := by
    rw [behindLabel]
    split <;> simp
  have hstep := stepBlock_marker hletters htail hout rest ⟨[], refs⟩ hline
  cases htextBlank : isBlankLine text with
  | true =>
      refine behindMarker_of_blank hout (hblank.trans htextBlank)
        (htext.below (hblank.trans htextBlank)) ?_ hstep
      rw [hline, behindLabel, htextBlank, if_pos rfl, List.append_nil]
  | false =>
      refine behindMarker_of_text hout (hblank.trans htextBlank)
        (htext.here (hblank.trans htextBlank)) ?_ hstep
      rw [hline, behindLabel, htextBlank, hdrop]
      rfl

/-! ## The paragraph behind the label -/

/-- A text in front of markup is a text node in front of its nodes. -/
theorem bareLine_consText (raw : List Char) (is : List Inline) :
    bareLine (Inline.consText raw is) =
      joinTextNodes (.text (String.ofList raw) .unknown :: is.map bareNode) := by
  fun_cases Inline.consText raw is with
  | case1 next others =>
      have hjoined : String.ofList (raw ++ next) = String.ofList raw ++ String.ofList next :=
        String.ofList_append
      rw [bareLine, List.map_cons, List.map_cons]
      show joinAfter (.text (String.ofList (raw ++ next)) .unknown) _ = _
      rw [hjoined]
      rfl
  | case2 => rfl

/-- A text and a line break in front of markup. -/
theorem bareLine_text_softBreak (raw : List Char) (is : List Inline) :
    bareLine (.text raw :: .softBreak :: is) =
      joinTextNodes (.text (String.ofList (raw ++ ['\n'])) .unknown :: is.map bareNode) := by
  rw [String.ofList_append]
  rfl

theorem isBlank_of_isEdge {c : Char} (h : isEdge c = true) : isBlank c = true := by
  have hcases : c = ' ' ∨ c = '\r' ∨ c = '\n' ∨ c = '\t' ∨ c = '\x0c' := by
    simpa [isEdge, or_assoc] using h
  rcases hcases with rfl | rfl | rfl | rfl | rfl <;> decide

theorem isEdge_eq_false {c : Char} (h : isBlank c = false) : isEdge c = false := by
  rw [← Bool.not_eq_true]
  exact fun hedge => by simp [isBlank_of_isEdge hedge] at h

/-- The text of a block is trimmed at its end alone where it starts with something else than white
space. -/
theorem trimWhile_cons {c : Char} (hc : isBlank c = false) (cs : List Char) :
    trimWhile isEdge (c :: cs) = c :: dropEndWhile isEdge cs := by
  rw [trimWhile, List.dropWhile_cons_of_neg (by simp [isEdge_eq_false hc])]
  exact dropEndWhile_append_cons (isEdge_eq_false hc) [] cs

/-- A marker in front of a text is trimmed with it. -/
theorem trimWhile_quoteMarker (name : List Char) (cs : List Char) :
    trimWhile isEdge (quoteMarker name ++ cs) = quoteMarker name ++ dropEndWhile isEdge cs := by
  have htext (after : List Char) :
      quoteMarker name ++ after = ('[' :: '!' :: name) ++ ']' :: after := by
    simp [quoteMarker]
  rw [htext, htext, trimWhile, List.cons_append, List.dropWhile_cons_of_neg (by decide),
    ← List.cons_append]
  exact dropEndWhile_append_cons (by decide) _ cs

section Paragraph

variable {refs : References} (hlabel : label ∈ quoteLabels)
  (hrefs : refs.lookup (labelKey ('!' :: markerName label)) = none)

include hlabel hrefs

/-- **The marker is taken off a paragraph** and leaves it as it would be without the marker. -/
theorem takeQuoteType_continued {gap indent body : List Char} {c : Char} (hgap : IsMarkerGap gap)
    (hindent : ∀ d ∈ indent, isGap d = true) (hc : isBlank c = false) (rest : List Node) :
    takeQuoteType (bareBlock refs
        (.paragraph (quoteMarker (markerName label) ++ gap ++ c :: body)) ++ rest) =
      (bareBlock refs (.paragraph (indent ++ c :: body)) ++ rest, some (String.ofList label)) := by
  obtain ⟨hletters, hname⟩ := isAlpha_markerName hlabel
  let text := c :: dropEndWhile isEdge body
  have hindented : trimWhile isEdge (indent ++ c :: body) = text := by
    have hedges : ∀ d ∈ indent, isEdge d = true := by
      intro d hd
      have hgap := hindent d hd
      rw [isGap, Bool.or_eq_true, beq_iff_eq, beq_iff_eq] at hgap
      rcases hgap with rfl | rfl <;> rfl
    rw [trimWhile, List.dropWhile_append_of_pos hedges]
    exact trimWhile_cons hc body
  have hmarked : trimWhile isEdge (quoteMarker (markerName label) ++ gap ++ c :: body) =
      quoteMarker (markerName label) ++ (gap ++ text) := by
    rw [List.append_assoc, trimWhile_quoteMarker, dropEndWhile_append_cons (isEdge_eq_false hc)]
  rw [bareBlock_paragraph, bareBlock_paragraph, hindented, hmarked, List.singleton_append,
    List.singleton_append]
  have hstarts : Inline.Starts (readInline refs text) := readInline_starts refs hc _
  obtain rfl | ⟨blanks, rfl, hblanks⟩ := hgap
  · have hspace : quoteMarker (markerName label) ++ ([' '] ++ text) =
        quoteMarker (markerName label) ++ ' ' :: text := rfl
    rw [hspace, readInline_marker_space hletters hname hrefs hc, bareLine_consText]
    exact takeQuoteType_marked
      (fun cs hcs => takeMarker?_quoteMarker hlabel (.inr (.inl rfl)) hcs) hstarts
  · have hhead : ∀ d ∈ text.head?, isBlank d = false := by simp [text, hc]
    rw [List.cons_append, readInline_marker_break hletters hname hrefs hblanks hhead,
      bareLine_text_softBreak, ← readInline_eq_markup (List.cons_ne_nil _ _)]
    exact takeQuoteType_marked
      (fun cs hcs => takeMarker?_quoteMarker hlabel (.inr (.inr rfl)) hcs) hstarts

/-- **A paragraph that is nothing but a marker is taken away.** -/
theorem takeQuoteType_parted {blanks : List Char} (hblanks : ∀ c ∈ blanks, isBlank c = true)
    (rest : List Node) :
    takeQuoteType (bareBlock refs
        (.paragraph (quoteMarker (markerName label) ++ '\n' :: blanks)) ++ rest) =
      (rest, some (String.ofList label)) := by
  obtain ⟨hletters, hname⟩ := isAlpha_markerName hlabel
  rw [bareBlock_paragraph, trimWhile_quoteMarker, dropEndWhile_cons]
  split
  · rw [List.append_nil, readInline_marker hletters hname hrefs]
    have hmarker : takeMarker? (quoteMarker (markerName label) ++ [] ++ []) =
        some (String.ofList label, []) := takeMarker?_quoteMarker hlabel (.inl rfl) nofun
    rw [List.append_nil, List.append_nil] at hmarker
    exact takeQuoteType_alone (by rw [String.toList_ofList]; exact hmarker) _
  · have hgap : ∀ c ∈ dropEndWhile isEdge blanks, isBlank c = true :=
      fun c hc => hblanks c ((prefix_dropEndWhile _ _).subset hc)
    have hread : readInline refs (quoteMarker (markerName label) ++
        '\n' :: (dropEndWhile isEdge blanks ++ [])) =
          [.text (quoteMarker (markerName label)), .softBreak] :=
      readInline_marker_break hletters hname hrefs hgap nofun
    rw [List.append_nil] at hread
    rw [hread, bareLine_text_softBreak]
    have hmarker : takeMarker? (quoteMarker (markerName label) ++ ['\n'] ++ []) =
        some (String.ofList label, []) := takeMarker?_quoteMarker hlabel (.inr (.inr rfl)) nofun
    rw [List.append_nil] at hmarker
    exact takeQuoteType_alone (by rw [String.toList_ofList]; exact hmarker) _

end Paragraph

/-! ## The quotation behind the label -/

/-- A block that stands out is one node, which is no paragraph. -/
theorem bareBlock_of_standsOut (refs : References) {b : Block} (h : b.standsOut = true) :
    ∃ n, bareBlock refs b = [n] ∧ ∀ cs s, n ≠ .paragraph cs s := by
  cases b with
  | blank | paragraph | tightText | html => cases h
  | heading | code | math | thematicBreak | list | table => exact ⟨_, rfl, nofun⟩
  | quote children => exact ⟨_, bareBlock_quote refs children, nofun⟩

/-- Blank lines are no nodes. -/
theorem flatMap_bareBlock_blank (refs : References) {bs : List Block}
    (h : ∀ b ∈ bs, b = Block.blank) : bs.flatMap (bareBlock refs) = [] :=
  List.flatMap_eq_nil_iff.mpr fun b hb => (bareBlock_eq_nil_iff refs).mpr (h b hb)

/-- Nodes that a marker is not taken off stay as they are. -/
theorem takeQuoteType_of_snd_eq_none {ns : List Node} (h : (takeQuoteType ns).2 = none) :
    (takeQuoteType ns).1 = ns := by
  unfold takeQuoteType at h ⊢
  split
  · split
    · rfl
    · next hmarker =>
        simp only [hmarker] at h
        cases h
  · rfl

/-- **A quotation that is one paragraph is the same paragraph behind a marker, and has the type of
the marker.** -/
theorem bareBlock_quote_labelled {r s : Reading} (hlabel : label ∈ quoteLabels)
    (h : BehindMarker (quoteMarker (markerName label)) r s)
    (hrefs : r.references.lookup (labelKey ('!' :: markerName label)) = none) {cs : List Node}
    (hr : bareBlock r.references (.quote r.blocks.reverse) =
      [.blockquote [.paragraph cs .unknown] none .unknown]) :
    bareBlock s.references (.quote s.blocks.reverse) =
      [.blockquote [.paragraph cs .unknown] (some (String.ofList label)) .unknown] := by
  have hnodes : r.blocks.reverse.flatMap (bareBlock r.references) = [.paragraph cs .unknown] := by
    rw [bareBlock_quote, List.singleton_inj, Node.blockquote.injEq] at hr
    obtain ⟨hchildren, htype, -⟩ := hr
    rwa [takeQuoteType_of_snd_eq_none htype] at hchildren
  have hreversed (top below : List Block) (b : Block) :
      (top ++ b :: below).reverse.flatMap (bareBlock r.references) =
        below.reverse.flatMap (bareBlock r.references) ++ bareBlock r.references b ++
          top.reverse.flatMap (bareBlock r.references) := by
    simp
  cases h with
  | @other b top below hb hbelow hblocks =>
      obtain ⟨n, hn, hparagraph⟩ := bareBlock_of_standsOut r.references hb
      rw [hblocks, hreversed, flatMap_bareBlock_blank _ (by simpa using hbelow), hn] at hnodes
      exact absurd (List.cons.inj hnodes).1 (hparagraph _ _)
  | nothing hblocks =>
      rw [flatMap_bareBlock_blank _ (by simpa using hblocks)] at hnodes
      cases hnodes
  | @continued gap indent body c top below hgap hindent hc hbelow hblocks hmarked hsame =>
      rw [hblocks, hreversed, flatMap_bareBlock_blank _ (by simpa using hbelow),
        List.nil_append] at hnodes
      rw [bareBlock_quote, hmarked, ← hsame, hreversed, List.reverse_nil, List.flatMap_nil,
        List.nil_append, takeQuoteType_continued hlabel hrefs hgap hindent hc, hnodes]
  | @parted blanks top hblanks hblocks hmarked hsame =>
      rw [hblocks, hreversed, List.reverse_nil, List.flatMap_nil, bareBlock_blank] at hnodes
      have hsplit : top ++ [.blank, .paragraph (quoteMarker (markerName label) ++ '\n' :: blanks)] =
          (top ++ [.blank]) ++
            .paragraph (quoteMarker (markerName label) ++ '\n' :: blanks) :: [] := by simp
      rw [bareBlock_quote, hmarked, ← hsame, hsplit, hreversed, List.reverse_nil, List.flatMap_nil,
        List.nil_append, takeQuoteType_parted hlabel hrefs hblanks, List.reverse_append,
        List.flatMap_append]
      exact congrArg (fun ns => [Node.blockquote ns _ .unknown]) hnodes

/-! ## Sources -/

/-- The source of a quotation. -/
def quotation (ls : List String) : String := intercalate "\n" (ls.map ("> " ++ ·))

/-- A line of a quotation as the quotation holds it. -/
def heldLine (l : String) : Line := quotedLine (' ' :: l.toList)

theorem toList_intercalate (ss : List String) :
    (intercalate "\n" ss).toList = unlines (ss.map String.toList) := by
  induction ss with
  | nil => rfl
  | cons s ss ih =>
      cases ss with
      | nil => rfl
      | cons next ss =>
          rw [List.map_cons, List.map_cons, unlines_cons_cons, ← List.map_cons, ← ih, intercalate]
          · simp
          · exact fun hnil => nomatch hnil

theorem toList_quotation (ls : List String) :
    (quotation ls).toList = unlines (quotedLines (ls.map fun l => ' ' :: l.toList)) := by
  rw [quotation, toList_intercalate, quotedLines, List.map_map, List.map_map]
  exact congrArg unlines (List.map_congr_left fun l _ => by simp)

/-- The blocks of the lines of a quotation, and the references that they define. -/
def heldBlocks (ls : List String) : List Block × References :=
  readQuoted (ls.map fun l => ' ' :: l.toList)

/-- The rules for the lines of a quotation that is not nested. -/
def quotedRules : Rules := ⟨false, some (readNested false 18)⟩

theorem heldBlocks_eq {ls : List String} {held : List Line} (h : ls.map heldLine = held) :
    (heldBlocks ls).1 = (readLines quotedRules 0 held ⟨[], []⟩).blocks.reverse ∧
      (heldBlocks ls).2 = (readLines quotedRules 0 held ⟨[], []⟩).references := by
  rw [← h, heldBlocks, readQuoted, List.map_map]
  exact ⟨rfl, rfl⟩

/-- A text may have a label in front where it is followed by the given lines of a quotation: the text
does not end in white space, if it is not blank, it carries no label of its own, nothing but text
follows the label, and the marker of the label is defined as no reference. -/
structure TakesLabel (label text : String) (more : List String) : Prop where
  lines : ∀ l ∈ text :: more, '\n' ∉ l.toList ∧ '\r' ∉ l.toList
  ending : isBlankLine text.toList = true ∨ ∀ c ∈ text.toList.getLast?, isBlank c = false
  unlabelled : markLabel? ("> " ++ text).toList = none
  leaves : LeavesText (heldLine text) (more.map heldLine)
  undefined : (heldBlocks (text :: more)).2.lookup
    (labelKey ('!' :: markerName label.toLower.toList)) = none

/-- A source of a quotation is one quotation, and its first line may carry a label. -/
theorem bareAll_read_quotation {text marked : String} {more : List String}
    (hlines : ∀ l ∈ text :: more, '\n' ∉ l.toList ∧ '\r' ∉ l.toList)
    (hmarked : (markLabel? ("> " ++ text).toList).getD ("> " ++ text).toList =
      ("> " ++ marked).toList) :
    bareAll (read (quotation (text :: more))).result.children =
      bareBlock (heldBlocks (marked :: more)).2 (.quote (heldBlocks (marked :: more)).1) := by
  have hquote (l : String) : ("> " ++ l).toList = '>' :: ' ' :: l.toList := String.toList_append
  rw [hquote, hquote] at hmarked
  have hheld : ∀ l ∈ (' ' :: text.toList) :: more.map (fun l => ' ' :: l.toList),
      '\n' ∉ l ∧ '\r' ∉ l := by
    rw [← List.map_cons (f := fun l : String => ' ' :: l.toList)]
    intro l hl
    obtain ⟨line, hline, rfl⟩ := List.mem_map.mp hl
    obtain ⟨hnewline, hreturn⟩ := hlines line hline
    exact ⟨by simp [hnewline], by simp [hreturn]⟩
  have hsource := toList_quotation (text :: more)
  rw [List.map_cons] at hsource
  rw [heldBlocks, List.map_cons]
  exact bareAll_read_quotedLines hheld hmarked hsource

/-- The text that a label is rewritten into, with what follows it on its line. -/
def markedText (label text : String) : String :=
  String.ofList (quoteMarker (markerName label.toLower.toList) ++ behindLabel text.toList)

section Label

variable {label text : String} {more : List String}
  (hlabel : label.toLower ∈ ["note", "tip", "warning", "info"])

include hlabel

theorem map_toLower_mem_quoteLabels : label.toList.map Char.toLower ∈ quoteLabels := by
  have hsmall : label.toLower.toList = label.toList.map Char.toLower := String.toList_map
  rw [← hsmall]
  exact List.mem_map_of_mem hlabel

/-- The line of a label is rewritten. -/
theorem markLabel?_labelled (htakes : TakesLabel label text more) :
    markLabel? ("> " ++ (label ++ ": " ++ text)).toList =
      some ("> " ++ markedText label text).toList := by
  have hsmall : label.toLower.toList = label.toList.map Char.toLower := String.toList_map
  have hline : ("> " ++ (label ++ ": " ++ text)).toList =
      '>' :: ' ' :: (label.toList ++ ':' :: ' ' :: text.toList) := by
    simp
  have hmarked : ("> " ++ markedText label text).toList = '>' :: ' ' ::
      (quoteMarker (markerName label.toLower.toList) ++ behindLabel text.toList) := by
    simp [markedText]
  rw [hline, hmarked, hsmall,
    markLabel?_label (map_toLower_mem_quoteLabels hlabel) htakes.ending]

/-- A label breaks no line. -/
theorem lines_labelled (htakes : TakesLabel label text more) :
    ∀ l ∈ (label ++ ": " ++ text) :: more, '\n' ∉ l.toList ∧ '\r' ∉ l.toList := by
  have hbreaks : (quoteLabels.all fun word => word.all fun c => c != '\n' && c != '\r') = true := by
    decide
  have hword := List.all_eq_true.mp hbreaks _ (map_toLower_mem_quoteLabels hlabel)
  have hletters (c : Char) (hc : c ∈ label.toList) : c.toLower ≠ '\n' ∧ c.toLower ≠ '\r' := by
    simpa using List.all_eq_true.mp hword _ (List.mem_map_of_mem hc)
  have hnewline : '\n' ∉ label.toList := fun hc => (hletters _ hc).1 rfl
  have hreturn : '\r' ∉ label.toList := fun hc => (hletters _ hc).2 rfl
  obtain ⟨htext, hmore⟩ := List.forall_mem_cons.mp htakes.lines
  exact List.forall_mem_cons.mpr ⟨by simp [hnewline, hreturn, htext], hmore⟩

end Label

/-- **A label only adds the type**: a quotation that reads as one paragraph without a type reads as
the same paragraph behind a label, and has the type that the label names. -/
theorem read_labelled {label text : String} {more : List String} {children : List Node}
    (hlabel : label.toLower ∈ ["note", "tip", "warning", "info"])
    (htakes : TakesLabel label text more)
    (hread : sameAll (read (quotation (text :: more))).result.children
      [.blockquote [.paragraph children .unknown] none .unknown] = true) :
    sameAll (read (quotation ((label ++ ": " ++ text) :: more))).result.children
      [.blockquote [.paragraph children .unknown] (some label.toLower) .unknown] = true := by
  have hword : label.toLower.toList ∈ quoteLabels := List.mem_map_of_mem hlabel
  have hbehind := behindMarker_labelled quotedRules (isAlpha_markerName hword).1 rfl
    htakes.leaves []
  have hheld : (text :: more).map heldLine =
      quotedLine (' ' :: text.toList) :: more.map heldLine := rfl
  have hheld' : (markedText label text :: more).map heldLine =
      quotedLine (' ' :: (quoteMarker (markerName label.toLower.toList) ++
        behindLabel text.toList)) :: more.map heldLine := by
    rw [List.map_cons, heldLine, markedText, String.toList_ofList]
  obtain ⟨hblocks, hreferences⟩ := heldBlocks_eq hheld
  obtain ⟨hblocks', hreferences'⟩ := heldBlocks_eq hheld'
  have hbare (type : Option String) :
      bareAll [.blockquote [.paragraph children .unknown] type .unknown] =
        [.blockquote [.paragraph (bareAll children) .unknown] type .unknown] := by
    simp only [bareAll, bare]
  have hundefined := htakes.undefined
  rw [sameAll_iff, hbare, bareAll_read_quotation htakes.lines (by rw [htakes.unlabelled]; rfl),
    hblocks, hreferences] at hread
  rw [sameAll_iff, hbare, bareAll_read_quotation (lines_labelled hlabel htakes)
    (by rw [markLabel?_labelled hlabel htakes]; rfl), hblocks', hreferences']
  rw [hreferences] at hundefined
  have hquote := bareBlock_quote_labelled hword hbehind hundefined hread
  rw [String.ofList_toList] at hquote
  exact hquote

/-! A label in front of emphasis, in a quotation of two lines. -/

theorem toLower_note : "Note".toLower = "note" := by
  rw [← String.toList_inj]
  exact String.toList_map

theorem takesLabel_emphasis : TakesLabel "Note" "see *this*" ["and that"] where
  lines := by simp
  ending := .inr (by simp [show isBlank '*' = false by decide])
  unlabelled := by decide +kernel
  leaves := {
    here := fun _ => ⟨rfl, rfl, fun c hc => by cases hc; decide⟩
    below := nofun }
  undefined := rfl

theorem read_labelled_emphasis :
    sameAll (read (quotation ["Note: see *this*", "and that"])).result.children
      [.blockquote [.paragraph [.text "see " .unknown,
        .emphasis [.text "this" .unknown] false .unknown, .text "\nand that" .unknown] .unknown]
        (some "note") .unknown] = true := by
  have hplain : sameAll (read (quotation ["see *this*", "and that"])).result.children
      [.blockquote [.paragraph [.text "see " .unknown,
        .emphasis [.text "this" .unknown] false .unknown, .text "\nand that" .unknown] .unknown]
        none .unknown] = true := by
    decide +kernel
  have hread := read_labelled (by rw [toLower_note]; decide) takesLabel_emphasis hplain
  rw [toLower_note] at hread
  exact hread

/-- HTML that starts a quotation does not start it behind a label, so the emphasis on its second line
is read there. -/
theorem read_labelled_html :
    sameAll (read (quotation ["<div>", "*a*"])).result.children
      [.blockquote [.paragraph [.text "<div>\n*a*" .unknown] .unknown] none .unknown] = true ∧
    sameAll (read (quotation ["Note: <div>", "*a*"])).result.children
      [.blockquote [.paragraph [.text "<div>\n*a*" .unknown] .unknown] (some "note") .unknown] =
        false := by
  decide +kernel

end Livedoc.Document
