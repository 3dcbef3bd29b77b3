import Livedoc.Proofs.Markdown.FirstLine
import Livedoc.Proofs.Markdown.QuoteMarker

/-!
# Lines behind a marker

A line that starts with the marker of a quotation is text (`stepBlock_marker`), and the lines after it
are read as they would be without it, provided that the text after the marker is text on its own,
be it on the same line (`behindMarker_of_text`) or on a later one (`behindMarker_of_blank`).  The
paragraph of this text then has the marker in front; where a blank line parts them, the marker is a
paragraph of its own.
-/

namespace Livedoc.Markdown

open Livedoc.Text

variable {name tail : List Char} {rules : Rules}

/-! ## The line of the marker -/

theorem takeLabelFrom?_letters (hletters : ∀ c ∈ name, c.isAlpha = true) (after : List Char) :
    takeLabelFrom? (name ++ ']' :: after) = some (name, after) := by
  induction name with
  | nil => rfl
  | cons c name ih =>
      rw [List.forall_mem_cons] at hletters
      have hne (d : Char) (hd : d.isAlpha = false) : c ≠ d := by
        rintro rfl
        rw [hletters.1] at hd
        cases hd
      rw [List.cons_append, takeLabelFrom?, ih hletters.2]
      · rfl
      · exact hne ']' (by decide)
      · exact hne '[' (by decide)
      · exact fun _ _ hc => absurd hc (hne '\\' (by decide))
      · exact fun hc => absurd hc (hne '\\' (by decide))

/-- A marker defines no reference, if no colon follows it. -/
theorem takeDefinitionLabel?_marker (hletters : ∀ c ∈ name, c.isAlpha = true) {after : List Char}
    (hafter : ∀ c ∈ after.head?, c ≠ ':') :
    takeDefinitionLabel? ('[' :: '!' :: (name ++ ']' :: after)) = none := by
  have hlabel : takeLabelFrom? ('!' :: (name ++ ']' :: after)) = some ('!' :: name, after) := by
    rw [takeLabelFrom?, takeLabelFrom?_letters hletters]
    · rfl
    all_goals nofun
  unfold takeDefinitionLabel?
  simp only [dropIndent?_cons (show '[' ≠ ' ' by decide)]
  split
  · next heq =>
      have hfound := (Option.filter_eq_some_iff.mp heq).1
      rw [hlabel] at hfound
      cases hfound
      exact absurd rfl (hafter ':' rfl)
  · rfl

/-- A line that starts with a marker is text, if white space follows the marker. -/
theorem stepBlock_marker (hletters : ∀ c ∈ name, c.isAlpha = true)
    (htail : ∀ c ∈ tail.head?, c = ' ') (hout : rules.outermost = false) (rest : List Line)
    (r : Reading) {line : Line} (hline : line.chars = quoteMarker name ++ tail) :
    stepBlock rules line rest r = stepText line r := by
  have hchars : line.chars = '[' :: '!' :: (name ++ ']' :: tail) := by
    rw [hline]
    simp [quoteMarker]
  have hindent (most : Nat) : dropIndent? most line.chars =
      some (0, '[' :: '!' :: (name ++ ']' :: tail)) := by
    rw [hchars, dropIndent?_cons (by decide)]
  have hfence : fence? 3 line.chars = none := by
    rw [fence?, hindent]
    rfl
  have hcode : isIndentedCode line.chars = false := by
    rw [hchars]
    simp [isIndentedCode, indentOf]
  have hheading : markedHeading? line.chars = none := by
    rw [markedHeading?, hindent]
    simp
  have hunderline : underline? line.chars = none := by
    rw [underline?, hindent]
    simp [dropEndWhile_cons, show isGap '[' = false by decide]
  have hrule : isThematicBreak 3 line.chars = false := by
    rw [isThematicBreak, hindent]
    rfl
  have hquote : (rules.nested.bind fun nested =>
      (quote? (line :: rest)).map fun q => (nested, q)) = none := by
    have hnone : quote? (line :: rest) = none := by
      rw [quote?, afterQuoteMark?, hindent]
      rfl
    rw [hnone]
    cases rules.nested <;> rfl
  have hlist : stepList rules line rest r = none := by
    have hmarker : marker? 3 line.chars = none := by
      rw [marker?, markerWith?, hindent]
      simp [isBullet, show isDecimalDigit '[' = false by decide]
    unfold stepList
    rw [hmarker]
    cases rules.nested <;> rfl
  have hhtml : htmlEndOf? line rest = none := by
    rw [htmlEndOf?, hindent]
    rfl
  have htag : startsHtml line.chars = false := by
    rw [startsHtml, hindent]
    rfl
  have hblank : isBlankLine line.chars = false := by
    rw [hchars]
    rfl
  have hdefinition : startsDefinition (line :: rest) = false := by
    have htext : textOfLines (line :: rest) =
        '[' :: '!' :: (name ++ ']' :: (tail ++ '\n' :: textOfLines rest)) := by
      rw [textOfLines, List.flatMap_cons, hchars]
      simp [textOfLines]
    rw [startsDefinition, htext, takeDefinitionLabel?_marker hletters, Option.isSome_none,
      Bool.and_false]
    intro c hc
    cases tail with
    | nil =>
        cases hc
        decide
    | cons d tail =>
        cases hc
        rw [htail _ rfl]
        decide
  simp only [stepBlock, hfence, hcode, hheading, hunderline, hrule, hquote, hout, hlist, hdefinition,
    hhtml, htag, hblank, Bool.false_eq_true, if_false]

/-! ## The lines after it -/

/-- One block is `b` in both. -/
def Fixed (b : Block) (x y : Block) : Prop := x = b ∧ y = b

/-- Two paragraphs which start with different texts, or headings made of them. -/
def Extends (front front' : List Char) (x y : Block) : Prop :=
  ∃ text, (x = .paragraph (front ++ text) ∧ y = .paragraph (front' ++ text)) ∨
    ∃ level, x = .heading level (front ++ text) ∧ y = .heading level (front' ++ text)

theorem fixed_grows {b : Block} (hb : b.isParagraph = false) : Grows (Fixed b) := by
  rintro x y ⟨rfl, rfl⟩
  exact .inl ⟨hb, hb⟩

theorem extends_grows (front front' : List Char) : Grows (Extends front front') := by
  rintro x y ⟨text, ⟨rfl, rfl⟩ | ⟨level, rfl, rfl⟩⟩
  · refine .inr ⟨_, _, rfl, rfl, fun more => ⟨text ++ more, .inl ?_⟩, fun level => ⟨text, .inr ⟨level, rfl, rfl⟩⟩⟩
    rw [List.append_assoc, List.append_assoc]
    exact ⟨rfl, rfl⟩
  · exact .inl ⟨rfl, rfl⟩

theorem isParagraph_of_standsOut {b : Block} (h : b.standsOut = true) : b.isParagraph = false := by
  cases b <;> first | rfl | cases h

theorem Twins.exists_append {Base : Block → Block → Prop} {below below' bs bs' : List Block}
    (h : Twins Base below below' bs bs') : ∃ top x y, Base x y ∧ bs = top ++ x :: below ∧
      bs' = top ++ y :: below' := by
  induction h with
  | base h => exact ⟨[], _, _, h, rfl, rfl⟩
  | cons b _ ih =>
      obtain ⟨top, x, y, hbase, rfl, rfl⟩ := ih
      exact ⟨b :: top, x, y, hbase, rfl, rfl⟩

/-- What was read stays, if it is no paragraph. -/
theorem exists_blocks_readLines {b : Block} (hb : b.isParagraph = false) (rules : Rules) (skip : Nat)
    (ls : List Line) (below : List Block) (refs : References) :
    ∃ top, (readLines rules skip ls ⟨b :: below, refs⟩).blocks = top ++ b :: below := by
  have hstart : Reading.Twin (Fixed b) below below ⟨b :: below, refs⟩ ⟨b :: below, refs⟩ :=
    ⟨.base ⟨rfl, rfl⟩, rfl⟩
  obtain ⟨top, x, y, ⟨rfl, -⟩, hblocks, -⟩ :=
    (readLines_twins (fixed_grows hb) rules skip ls hstart).blocks.exists_append
  exact ⟨top, hblocks⟩

/-- The line of text that continues the paragraph of a marker, with the lines after it: blank lines
part the two, unless they are so wide that a paragraph takes them as text. -/
def continuing? : List Line → Option (Line × List Line)
  | [] => none
  | line :: rest =>
    if isBlankLine line.chars then
      if isIndentedCode line.chars then continuing? rest else none
    else some (line, rest)

/-- A line starts neither HTML nor the definition of a reference, nor with white space other than
spaces and tabs. -/
structure StartsText (line : Line) (rest : List Line) : Prop where
  html : htmlEndOf? line rest = none
  definition : definition? (line :: rest) = none
  start : ∀ c ∈ (line.chars.dropWhile isGap).head?, isBlank c = false

/-- What stands between a marker and the text that continues its paragraph. -/
def IsMarkerGap (gap : List Char) : Prop :=
  gap = [' '] ∨ ∃ blanks, gap = '\n' :: blanks ∧ ∀ c ∈ blanks, isBlank c = true

/-- How lines read without a marker (`r`) and behind it (`s`). -/
inductive BehindMarker (mark : List Char) (r s : Reading) : Prop
  /-- Without the marker, the first block is no paragraph. -/
  | other {b : Block} {top below : List Block} (hb : b.standsOut = true)
      (hbelow : ∀ x ∈ below, x = .blank) (hr : r.blocks = top ++ b :: below)
  /-- There is nothing but the marker. -/
  | nothing (hr : ∀ x ∈ r.blocks, x = .blank)
  /-- The first paragraph has the marker in front. -/
  | continued {gap indent body : List Char} {c : Char} {top below : List Block}
      (hgap : IsMarkerGap gap) (hindent : ∀ d ∈ indent, isGap d = true) (hc : isBlank c = false)
      (hbelow : ∀ x ∈ below, x = .blank)
      (hr : r.blocks = top ++ .paragraph (indent ++ c :: body) :: below)
      (hs : s.blocks = top ++ [.paragraph (mark ++ gap ++ c :: body)])
      (hrefs : r.references = s.references)
  /-- The marker is a paragraph of its own. -/
  | parted {blanks : List Char} {top : List Block} (hblanks : ∀ c ∈ blanks, isBlank c = true)
      (hr : r.blocks = top ++ [.blank])
      (hs : s.blocks = top ++ [.blank, .paragraph (mark ++ '\n' :: blanks)])
      (hrefs : r.references = s.references)

theorem isBlank_of_isLineGap {c : Char} (h : isLineGap c = true) : isBlank c = true := by
  have hcases : c = ' ' ∨ c = '\t' ∨ c = '\x0b' ∨ c = '\x0c' := by
    simpa [isLineGap, isGap, or_assoc] using h
  rcases hcases with rfl | rfl | rfl | rfl <;> decide

theorem isBlank_of_mem_textOfLines {ls : List Line} (h : ∀ l ∈ ls, isBlankLine l.chars = true) :
    ∀ c ∈ textOfLines ls, isBlank c = true := by
  intro c hc
  obtain ⟨l, hl, hc⟩ := List.mem_flatMap.mp hc
  rcases List.mem_append.mp hc with hc | hc
  · exact isBlank_of_isLineGap (isBlankLine_iff.mp (h l hl) c hc)
  · cases List.mem_singleton.mp hc
    decide

/-- A line that is not blank, and does not start with other white space than spaces and tabs. -/
theorem StartsText.exists_eq {line : Line} {rest : List Line} (h : StartsText line rest)
    (hblank : isBlankLine line.chars = false) : ∃ indent c body,
      line.chars = indent ++ c :: body ∧ line.chars.dropWhile isGap = c :: body ∧
        (∀ d ∈ indent, isGap d = true) ∧ isBlank c = false := by
  have hsplit := List.takeWhile_append_dropWhile (p := isGap) (l := line.chars)
  cases hdrop : line.chars.dropWhile isGap with
  | nil =>
      rw [hdrop, List.append_nil] at hsplit
      rw [← hsplit, ← Bool.not_eq_true, isBlankLine_iff] at hblank
      refine absurd (fun c hc => ?_) hblank
      rw [isLineGap, List.mem_takeWhile_imp hc]
      rfl
  | cons c body =>
      rw [hdrop] at hsplit
      exact ⟨_, c, body, hsplit.symm, rfl, fun d hd => List.mem_takeWhile_imp hd,
        h.start c (by rw [hdrop]; rfl)⟩

variable {mark : List Char} {refs : References}

theorem behindMarker_other {b : Block} (hb : b.standsOut = true) {below : List Block}
    (hbelow : ∀ x ∈ below, x = .blank) (rules : Rules) (skip : Nat) (ls : List Line)
    (refs : References) (s : Reading) :
    BehindMarker mark (readLines rules skip ls ⟨b :: below, refs⟩) s := by
  obtain ⟨top, htop⟩ :=
    exists_blocks_readLines (isParagraph_of_standsOut hb) rules skip ls below refs
  exact .other hb hbelow htop

/-- Two paragraphs, the second of which has the marker in front, go on alike. -/
theorem behindMarker_continued {gap indent body : List Char} {c : Char} {below : List Block}
    (hgap : IsMarkerGap gap) (hindent : ∀ d ∈ indent, isGap d = true) (hc : isBlank c = false)
    (hbelow : ∀ x ∈ below, x = .blank) (rules : Rules) (skip : Nat) (ls : List Line)
    (refs : References) :
    BehindMarker mark
      (readLines rules skip ls ⟨.paragraph (indent ++ c :: body) :: below, refs⟩)
      (readLines rules skip ls ⟨[.paragraph (mark ++ gap ++ c :: body)], refs⟩) := by
  have hstart : Reading.Twin (Extends (indent ++ c :: body) (mark ++ gap ++ c :: body)) below []
      ⟨.paragraph (indent ++ c :: body) :: below, refs⟩
      ⟨[.paragraph (mark ++ gap ++ c :: body)], refs⟩ :=
    ⟨.base ⟨[], .inl (by rw [List.append_nil, List.append_nil]; exact ⟨rfl, rfl⟩)⟩, rfl⟩
  obtain ⟨hblocks, hrefs⟩ := readLines_twins (extends_grows _ _) rules skip ls hstart
  obtain ⟨top, x, y, ⟨text, ⟨rfl, rfl⟩ | ⟨level, rfl, rfl⟩⟩, hr, hs⟩ := hblocks.exists_append
  · have hextended (front : List Char) :
        front ++ c :: body ++ text = front ++ c :: (body ++ text) := by simp
    rw [hextended] at hr hs
    exact .continued hgap hindent hc hbelow hr hs hrefs
  · exact .other rfl hbelow hr

/-- Behind a blank line the lines after a marker go on as without it. -/
theorem behindMarker_parted {blanks : List Char} (hblanks : ∀ c ∈ blanks, isBlank c = true)
    (rules : Rules) (skip : Nat) (ls : List Line) (refs : References) :
    BehindMarker mark (readLines rules skip ls ⟨[.blank], refs⟩)
      (readLines rules skip ls ⟨[.blank, .paragraph (mark ++ '\n' :: blanks)], refs⟩) := by
  have hstart : Reading.Twin (Fixed .blank) [] [.paragraph (mark ++ '\n' :: blanks)]
      ⟨[.blank], refs⟩ ⟨[.blank, .paragraph (mark ++ '\n' :: blanks)], refs⟩ :=
    ⟨.base ⟨rfl, rfl⟩, rfl⟩
  obtain ⟨hblocks, hrefs⟩ := readLines_twins (fixed_grows rfl) rules skip ls hstart
  obtain ⟨top, x, y, ⟨rfl, rfl⟩, hr, hs⟩ := hblocks.exists_append
  exact .parted hblanks hr hs hrefs

/-- A line of text that continues the paragraph of the marker, and starts one without it unless it
starts a block that stands out. -/
theorem behindMarker_of_line {line : Line} {rest : List Line} {below : List Block}
    {gap : List Char} {s : Reading} (hout : rules.outermost = false)
    (hbelow : ∀ x ∈ below, x = .blank) (hblank : isBlankLine line.chars = false)
    (hstart : StartsText line rest) (hgap : IsMarkerGap gap)
    (hs : (underline? line.chars = none → ∀ r, stepBlock rules line rest r = stepText line r) →
      s = readLines rules 0 rest
        ⟨[.paragraph (mark ++ gap ++ line.chars.dropWhile isGap ++ ['\n'])], refs⟩) :
    BehindMarker mark (readLines rules 0 (line :: rest) ⟨below, refs⟩) s := by
  obtain ⟨indent, c, body, hline, hdrop, hindent, hc⟩ := hstart.exists_eq hblank
  have hr : Reading.inParagraph ⟨below, refs⟩ = false := by
    cases below with
    | nil => rfl
    | cons b below =>
        cases hbelow b List.mem_cons_self
        rfl
  rw [readLines_cons]
  obtain ⟨b, refs', taken, hb, hfirst⟩ | ⟨hfirst, htext⟩ :=
    stepBlock_first (r := ⟨below, refs⟩) hout hr hblank hstart.html hstart.definition
  · rw [hfirst]
    exact behindMarker_other hb hbelow rules 0 _ refs' _
  · have hparagraph : (stepText line ⟨below, refs⟩) =
        (⟨.paragraph (indent ++ c :: (body ++ ['\n'])) :: below, refs⟩, 0) := by
      rw [stepText, Reading.addText_of_inParagraph_eq_false hr, hline, List.append_assoc,
        List.cons_append]
      rfl
    have hfront : mark ++ gap ++ line.chars.dropWhile isGap ++ ['\n'] =
        mark ++ gap ++ c :: (body ++ ['\n']) := by
      rw [hdrop, List.append_assoc, List.cons_append]
    rw [hfirst, hparagraph, hs htext, hfront]
    exact behindMarker_continued hgap hindent hc hbelow rules 0 rest refs

/-- A marker with text behind it on its line. -/
theorem behindMarker_of_text {line marked : Line} {rest : List Line}
    (hout : rules.outermost = false) (hblank : isBlankLine line.chars = false)
    (hstart : StartsText line rest)
    (hmarked : marked.chars = mark ++ ' ' :: line.chars.dropWhile isGap)
    (hstep : stepBlock rules marked rest ⟨[], refs⟩ = stepText marked ⟨[], refs⟩) :
    BehindMarker mark (readLines rules 0 (line :: rest) ⟨[], refs⟩)
      (readLines rules 0 (marked :: rest) ⟨[], refs⟩) := by
  refine behindMarker_of_line hout (List.forall_mem_nil _) hblank hstart (.inl rfl) fun _ => ?_
  have hfront : mark ++ [' '] ++ line.chars.dropWhile isGap = marked.chars := by
    rw [hmarked, List.append_assoc, List.singleton_append]
  rw [readLines_cons, hstep, hfront]
  rfl

/-- Blank lines after a marker: wide ones are text of its paragraph, others end it. -/
theorem readLines_blanks {blanks : List Line} (hblanks : ∀ l ∈ blanks, isBlankLine l.chars = true)
    (hout : rules.outermost = false) {rest : List Line}
    (hrest : ∀ l ∈ rest.head?, isBlankLine l.chars = false) (text : List Char) :
    (readLines rules 0 (blanks ++ rest) ⟨[.paragraph text], refs⟩ =
        readLines rules 0 rest ⟨[.paragraph (text ++ textOfLines blanks)], refs⟩ ∧
      continuing? (blanks ++ rest) = continuing? rest) ∨
    ∃ wide, (∀ l ∈ wide, isBlankLine l.chars = true) ∧
      readLines rules 0 (blanks ++ rest) ⟨[.paragraph text], refs⟩ =
        readLines rules 0 rest ⟨[.blank, .paragraph (text ++ textOfLines wide)], refs⟩ := by
  induction blanks generalizing text with
  | nil =>
      refine .inl ⟨?_, rfl⟩
      rw [textOfLines, List.flatMap_nil, List.append_nil, List.nil_append]
  | cons l blanks ih =>
      rw [List.forall_mem_cons] at hblanks
      obtain ⟨hl, hblanks⟩ := hblanks
      have hstep := stepBlock_blank hout hl (blanks ++ rest) ⟨[.paragraph text], refs⟩
      rw [List.cons_append, readLines_cons, hstep]
      cases hcode : isIndentedCode l.chars with
      | true =>
          have htext (ls : List Line) : text ++ textOfLines (l :: ls) =
              text ++ l.chars ++ ['\n'] ++ textOfLines ls := by
            simp [textOfLines]
          have hcontinuing : continuing? (l :: (blanks ++ rest)) = continuing? (blanks ++ rest) := by
            rw [continuing?, hl, hcode]
            rfl
          rw [hcontinuing, htext]
          refine (ih hblanks (text ++ l.chars ++ ['\n'])).imp id ?_
          rintro ⟨wide, hwide, hread⟩
          refine ⟨l :: wide, List.forall_mem_cons.mpr ⟨hl, hwide⟩, ?_⟩
          rw [htext]
          exact hread
      | false =>
          refine .inr ⟨[], List.forall_mem_nil _, ?_⟩
          have htaken : ((blanks ++ rest).takeWhile fun l => isBlankLine l.chars) = blanks := by
            rw [List.takeWhile_append_of_pos hblanks]
            cases rest with
            | nil => rw [List.takeWhile_nil, List.append_nil]
            | cons first rest =>
                rw [List.takeWhile_cons_of_neg (by simp [hrest first rfl]), List.append_nil]
          rw [htaken]
          show readLines rules 0 ((blanks ++ rest).drop blanks.length) ⟨[.blank, .paragraph text], refs⟩ = _
          rw [List.drop_left, textOfLines, List.flatMap_nil, List.append_nil]

/-- Lines are blank up to one that is not. -/
theorem exists_blanks_append (ls : List Line) : ∃ blanks rest, ls = blanks ++ rest ∧
    ls.drop (ls.takeWhile fun l => isBlankLine l.chars).length = rest ∧
    (∀ l ∈ blanks, isBlankLine l.chars = true) ∧
      ∀ l ∈ rest.head?, isBlankLine l.chars = false := by
  let isGapLine (l : Line) : Bool := isBlankLine l.chars
  refine ⟨ls.takeWhile isGapLine, ls.dropWhile isGapLine, List.takeWhile_append_dropWhile.symm,
    drop_length_takeWhile isGapLine ls, fun l hl => List.mem_takeWhile_imp (p := isGapLine) hl,
    fun l hl => ?_⟩
  have hstop := List.head?_dropWhile_not isGapLine ls
  rw [hl] at hstop
  exact hstop

/-- A marker alone on its line. -/
theorem behindMarker_of_blank {line marked : Line} {rest : List Line}
    (hout : rules.outermost = false) (hblank : isBlankLine line.chars = true)
    (hnext : ∀ next after, continuing? rest = some (next, after) →
      StartsText next after ∧ underline? next.chars = none)
    (hmarked : marked.chars = mark)
    (hstep : stepBlock rules marked rest ⟨[], refs⟩ = stepText marked ⟨[], refs⟩) :
    BehindMarker mark (readLines rules 0 (line :: rest) ⟨[], refs⟩)
      (readLines rules 0 (marked :: rest) ⟨[], refs⟩) := by
  have hfirst := stepBlock_blank hout hblank rest ⟨[], refs⟩
  rw [readLines_cons rules line, readLines_cons rules marked, hstep, hfirst]
  cases hcode : isIndentedCode line.chars with
  | true => exact behindMarker_other rfl (List.forall_mem_nil _) rules 0 _ refs _
  | false =>
      obtain ⟨blanks, after, hsplit, hdrop, hgaps, hstop⟩ := exists_blanks_append rest
      show BehindMarker mark
        (readLines rules 0 (rest.drop (rest.takeWhile fun l => isBlankLine l.chars).length)
          ⟨[.blank], refs⟩)
        (readLines rules 0 rest ⟨[.paragraph (marked.chars ++ ['\n'])], refs⟩)
      rw [hdrop, hmarked, hsplit]
      obtain ⟨hread, hcontinuing⟩ | ⟨wide, hwide, hread⟩ :=
        readLines_blanks hgaps hout hstop (mark ++ ['\n'])
      · rw [hread]
        cases after with
        | nil => exact .nothing (by simp [readLines])
        | cons next after =>
            have hnextBlank := hstop next rfl
            obtain ⟨hstart, hunderline⟩ := hnext next after (by
              rw [hsplit, hcontinuing, continuing?, hnextBlank]
              rfl)
            let gap := '\n' :: (textOfLines blanks ++ next.chars.takeWhile isGap)
            have hgap : IsMarkerGap gap := by
              refine .inr ⟨_, rfl, fun d hd => ?_⟩
              rcases List.mem_append.mp hd with hd | hd
              · exact isBlank_of_mem_textOfLines hgaps d hd
              · refine isBlank_of_isLineGap ?_
                rw [isLineGap, List.mem_takeWhile_imp hd]
                rfl
            have hfront : mark ++ gap ++ next.chars.dropWhile isGap ++ ['\n'] =
                mark ++ ['\n'] ++ textOfLines blanks ++ next.chars ++ ['\n'] := by
              simp [gap]
            refine behindMarker_of_line hout (by simp) hnextBlank hstart hgap fun htext => ?_
            rw [readLines_cons, htext hunderline, hfront]
            rfl
      · have htext : mark ++ ['\n'] ++ textOfLines wide = mark ++ '\n' :: textOfLines wide := by simp
        rw [hread, htext]
        exact behindMarker_parted (isBlank_of_mem_textOfLines hwide) rules 0 after refs

end Livedoc.Markdown
