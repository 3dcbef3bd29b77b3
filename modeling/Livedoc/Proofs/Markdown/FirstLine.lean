import Livedoc.Proofs.Markdown.Fence

/-!
# What the first line of a text starts

Where no paragraph stands before it, a line that is neither blank nor HTML nor a definition starts
a block that is no paragraph, or it is text, and then it is text behind a paragraph too, unless it
underlines the paragraph (`stepBlock_first`).  A blank line ends a paragraph, unless it is wide
enough to be indented code, which a paragraph takes as text (`stepBlock_blank`).
-/

/-!
## What the first blocks are does not matter

The lines of a text are read one after the other, and what was read before a line matters only in so
far as it ends in a paragraph, which the line may continue or make a heading of.  So two readings
whose last blocks are two paragraphs, or the same, go on alike: the blocks that follow are equal, and
what is added to one paragraph is added to the other (`readLines_twins`).
-/

namespace Livedoc.Markdown

open Livedoc.Text

/-! ## Lines that continue no paragraph -/

/-- A line that continues no paragraph starts one. -/
theorem Reading.addText_of_inParagraph_eq_false {r : Reading} (h : r.inParagraph = false)
    (line : List Char) : r.addText line = r.push (.paragraph (line ++ ['\n'])) := by
  unfold addText
  split
  · next heq =>
      rw [inParagraph, heq] at h
      cases h
  · rfl

/-- Marks that underline no paragraph are a rule or a list, if they are not text. -/
theorem stepUnderline_of_inParagraph_eq_false {r : Reading} (h : r.inParagraph = false)
    (rules : Rules) (level : Nat) (line : Line) (rest : List Line) :
    stepUnderline rules level line rest r =
      if isThematicBreak 3 line.chars then (r.push .thematicBreak, 0)
      else (stepList rules line rest r).getD (r.addText line.chars, 0) := by
  unfold stepUnderline
  split
  · next heq =>
      rw [Reading.inParagraph, heq] at h
      cases h
  · rfl

/-! ## Two readings that go on alike -/

/-- A relation between blocks that text which is added to both of them keeps, and also making
headings of both. -/
def Grows (Base : Block → Block → Prop) : Prop :=
  ∀ b b', Base b b' → (b.isParagraph = false ∧ b'.isParagraph = false) ∨
    ∃ text text', b = .paragraph text ∧ b' = .paragraph text' ∧
      (∀ more, Base (.paragraph (text ++ more)) (.paragraph (text' ++ more))) ∧
      ∀ level, Base (.heading level text) (.heading level text')

/-- The blocks of two readings, last one first: the same blocks stand on top, below them two related
ones, and whatever below these. -/
inductive Twins (Base : Block → Block → Prop) (below below' : List Block) :
    List Block → List Block → Prop
  | base {b b' : Block} (h : Base b b') : Twins Base below below' (b :: below) (b' :: below')
  | cons (b : Block) {bs bs' : List Block} (h : Twins Base below below' bs bs') :
      Twins Base below below' (b :: bs) (b :: bs')

/-- Two readings that go on alike. -/
structure Reading.Twin (Base : Block → Block → Prop) (below below' : List Block)
    (r s : Reading) : Prop where
  blocks : Twins Base below below' r.blocks s.blocks
  references : r.references = s.references

variable {Base : Block → Block → Prop} {below below' : List Block} {r s : Reading}

/-- How the last blocks of two readings that go on alike may differ. -/
theorem Reading.Twin.last (hgrows : Grows Base) (h : Twin Base below below' r s) :
    (r.inParagraph = false ∧ s.inParagraph = false) ∨
      ∃ text text' before before', r.blocks = .paragraph text :: before ∧
        s.blocks = .paragraph text' :: before' ∧
        (∀ more, Twins Base below below' (.paragraph (text ++ more) :: before)
          (.paragraph (text' ++ more) :: before')) ∧
        ∀ level, Twins Base below below' (.heading level text :: before)
          (.heading level text' :: before') := by
  have hblocks := h.blocks
  rw [inParagraph, inParagraph]
  generalize r.blocks = bs at hblocks ⊢
  generalize s.blocks = bs' at hblocks ⊢
  cases hblocks with
  | base hbase =>
      refine (hgrows _ _ hbase).imp id ?_
      rintro ⟨text, text', rfl, rfl, hmore, hheading⟩
      exact ⟨text, text', below, below', rfl, rfl, fun more => .base (hmore more),
        fun level => .base (hheading level)⟩
  | @cons b bs bs' hbs =>
      cases b with
      | paragraph text =>
          exact .inr ⟨text, text, bs, bs', rfl, rfl, fun more => .cons _ hbs,
            fun level => .cons _ hbs⟩
      | _ => exact .inl ⟨rfl, rfl⟩

namespace Reading.Twin

theorem inParagraph (hgrows : Grows Base) (h : Twin Base below below' r s) :
    r.inParagraph = s.inParagraph := by
  obtain ⟨hr, hs⟩ | ⟨text, text', before, before', hr, hs, -⟩ := h.last hgrows
  · rw [hr, hs]
  · rw [Reading.inParagraph, Reading.inParagraph, hr, hs]
    rfl

theorem push (h : Twin Base below below' r s) (b : Block) :
    Twin Base below below' (r.push b) (s.push b) :=
  ⟨.cons b h.blocks, h.references⟩

theorem addText (hgrows : Grows Base) (h : Twin Base below below' r s) (line : List Char) :
    Twin Base below below' (r.addText line) (s.addText line) := by
  obtain ⟨hr, hs⟩ | ⟨text, text', before, before', hr, hs, hmore, -⟩ := h.last hgrows
  · rw [addText_of_inParagraph_eq_false hr, addText_of_inParagraph_eq_false hs]
    exact h.push _
  · unfold Reading.addText
    rw [hr, hs]
    refine ⟨?_, h.references⟩
    show Twins Base below below' (.paragraph (text ++ line ++ ['\n']) :: before)
      (.paragraph (text' ++ line ++ ['\n']) :: before')
    rw [List.append_assoc, List.append_assoc]
    exact hmore _

end Reading.Twin

/-- Two steps that go on alike: they take as many lines. -/
def TwinSteps (Base : Block → Block → Prop) (below below' : List Block) (x y : Reading × Nat) : Prop :=
  Reading.Twin Base below below' x.1 y.1 ∧ x.2 = y.2

/-- What a line starts that starts no code, heading, rule, quotation, formula or list. -/
def stepOther (rules : Rules) (line : Line) (rest : List Line) (r : Reading) : Reading × Nat :=
  if startsDefinition (line :: rest) then stepDefinition line rest r
  else
    match htmlEndOf? line rest with
    | some e => stepHtml e line rest r
    | none =>
      if startsHtml line.chars then stepText line r
      else if isBlankLine line.chars then
        (r.push .blank, (rest.takeWhile fun l => isBlankLine l.chars).length)
      else if rules.outermost then stepTable line rest r
      else stepText line r

section Steps

variable (hgrows : Grows Base) (h : Reading.Twin Base below below' r s)

include hgrows h

theorem stepText_twins (line : Line) :
    TwinSteps Base below below' (stepText line r) (stepText line s) :=
  ⟨h.addText hgrows line.chars, rfl⟩

theorem stepList_twins (rules : Rules) (line : Line) (rest : List Line) :
    Option.Rel (TwinSteps Base below below') (stepList rules line rest r)
      (stepList rules line rest s) := by
  unfold stepList
  cases rules.nested with
  | none => exact .none
  | some nested =>
      cases hmarker : marker? 3 line.chars with
      | none => exact .none
      | some m =>
          have hstart : canStartList m r = canStartList m s := by
            rw [canStartList, canStartList, h.inParagraph hgrows]
          dsimp only
          rw [hstart, h.references]
          split
          · exact .some ⟨⟨.cons _ h.blocks, rfl⟩, rfl⟩
          · exact .some (stepText_twins hgrows h line)

theorem stepUnderline_twins (rules : Rules) (level : Nat) (line : Line) (rest : List Line) :
    TwinSteps Base below below' (stepUnderline rules level line rest r)
      (stepUnderline rules level line rest s) := by
  have hother : TwinSteps Base below below'
      (if isThematicBreak 3 line.chars then (r.push .thematicBreak, 0)
        else (stepList rules line rest r).getD (r.addText line.chars, 0))
      (if isThematicBreak 3 line.chars then (s.push .thematicBreak, 0)
        else (stepList rules line rest s).getD (s.addText line.chars, 0)) := by
    have hlist := stepList_twins hgrows h rules line rest
    split
    · exact ⟨h.push _, rfl⟩
    · generalize stepList rules line rest r = x at hlist ⊢
      generalize stepList rules line rest s = y at hlist ⊢
      cases hlist with
      | none => exact stepText_twins hgrows h line
      | some hsteps => exact hsteps
  have htext := stepText_twins hgrows h line
  obtain ⟨hr, hs⟩ | ⟨text, text', before, before', hr, hs, -, hheading⟩ := h.last hgrows
  · rw [stepUnderline_of_inParagraph_eq_false hr, stepUnderline_of_inParagraph_eq_false hs]
    exact hother
  · unfold stepUnderline
    rw [hr, hs]
    dsimp only
    split
    · exact htext
    · exact ⟨⟨hheading level, h.references⟩, rfl⟩

omit hgrows in
theorem stepQuote_twins (nested : Nested) (inside : List Line) :
    TwinSteps Base below below' (stepQuote nested inside r) (stepQuote nested inside s) := by
  unfold stepQuote
  rw [h.references]
  exact ⟨⟨.cons _ h.blocks, rfl⟩, rfl⟩

theorem stepHtml_twins (e : HtmlEnd) (line : Line) (rest : List Line) :
    TwinSteps Base below below' (stepHtml e line rest r) (stepHtml e line rest s) := by
  have htext := stepText_twins hgrows h line
  unfold stepHtml
  dsimp only
  cases e with
  | atBlankAlone =>
      dsimp only
      rw [h.inParagraph hgrows]
      split
      · exact htext
      · exact ⟨h.push _, rfl⟩
  | _ => exact ⟨h.push _, rfl⟩

theorem stepDefinition_twins (line : Line) (rest : List Line) :
    TwinSteps Base below below' (stepDefinition line rest r)
      (stepDefinition line rest s) := by
  have htext := stepText_twins hgrows h line
  unfold stepDefinition
  rw [h.inParagraph hgrows, h.references]
  split
  · exact htext
  · cases definition? (line :: rest) with
    | none => exact htext
    | some found => exact ⟨⟨h.blocks, rfl⟩, rfl⟩

theorem stepTable_twins (line : Line) (rest : List Line) :
    TwinSteps Base below below' (stepTable line rest r) (stepTable line rest s) := by
  unfold stepTable
  cases table? line.chars rest with
  | none => exact stepText_twins hgrows h line
  | some found => exact ⟨h.push _, rfl⟩

/-- What a line starts that starts no fence, no list and no quotation. -/
theorem stepOther_twins (rules : Rules) (line : Line) (rest : List Line) :
    TwinSteps Base below below' (stepOther rules line rest r)
      (stepOther rules line rest s) := by
  have htext := stepText_twins hgrows h line
  unfold stepOther
  split
  · exact stepDefinition_twins hgrows h line rest
  · cases htmlEndOf? line rest with
    | some e => exact stepHtml_twins hgrows h e line rest
    | none =>
        dsimp only
        split
        · exact htext
        · split
          · exact ⟨h.push _, rfl⟩
          · split
            · exact stepTable_twins hgrows h line rest
            · exact htext

/-- **A line starts the same whatever stands below.** -/
theorem stepBlock_twins (rules : Rules) (line : Line) (rest : List Line) :
    TwinSteps Base below below' (stepBlock rules line rest r)
      (stepBlock rules line rest s) := by
  have htext := stepText_twins hgrows h line
  have hlist := stepList_twins hgrows h rules line rest
  unfold stepBlock
  dsimp only
  cases fence? 3 line.chars with
  | some f =>
      dsimp only
      split
      · exact ⟨h.push _, rfl⟩
      · exact htext
  | none =>
      dsimp only
      rw [h.inParagraph hgrows]
      split
      · split
        · exact htext
        · exact ⟨h.push _, rfl⟩
      · cases markedHeading? line.chars with
        | some found => exact ⟨h.push _, rfl⟩
        | none =>
            cases underline? line.chars with
            | some level => exact stepUnderline_twins hgrows h rules level line rest
            | none =>
                dsimp only
                split
                · exact ⟨h.push _, rfl⟩
                · cases rules.nested.bind fun nested =>
                      (quote? (line :: rest)).map fun q => (nested, q) with
                  | some found => exact stepQuote_twins h found.1 found.2
                  | none =>
                      cases if rules.outermost then formula? line.chars rest else none with
                      | some found => exact ⟨h.push _, rfl⟩
                      | none =>
                          generalize stepList rules line rest r = x at hlist ⊢
                          generalize stepList rules line rest s = y at hlist ⊢
                          cases hlist with
                          | some hsteps => exact hsteps
                          | none => exact stepOther_twins hgrows h rules line rest

end Steps

/-- **Two readings that go on alike stay so over all lines.** -/
theorem readLines_twins (hgrows : Grows Base) (rules : Rules) (skip : Nat) (ls : List Line)
    (h : Reading.Twin Base below below' r s) :
    Reading.Twin Base below below' (readLines rules skip ls r)
      (readLines rules skip ls s) := by
  induction ls generalizing skip r s with
  | nil =>
      cases skip <;> exact h
  | cons line rest ih =>
      cases skip with
      | succ skip => exact ih skip h
      | zero =>
          obtain ⟨hstep, htaken⟩ := stepBlock_twins hgrows h rules line rest
          rw [readLines, readLines]
          dsimp only
          rw [htaken]
          exact ih _ hstep

end Livedoc.Markdown

namespace Livedoc.Markdown

open Livedoc.Text

/-- A block that its first line decides: neither blank lines nor a paragraph nor HTML. -/
def Block.standsOut : Block → Bool
  | .heading .. | .code .. | .math _ | .thematicBreak | .quote _ | .list .. | .table .. => true
  | _ => false

variable {line : Line} {r : Reading} {rules : Rules}

/-! ## Blank lines -/

theorem isBlankLine_iff {cs : List Char} : isBlankLine cs = true ↔ ∀ c ∈ cs, isLineGap c = true :=
  List.all_eq_true

/-- A blank line has no mark of any block. -/
theorem head?_of_isBlankLine {cs body : List Char} (h : isBlankLine cs = true) {most indent : Nat}
    (hbody : dropIndent? most cs = some (indent, body)) : ∀ c ∈ body.head?, isLineGap c = true := by
  intro c hc
  have hmem : c ∈ body := List.mem_of_mem_head? hc
  rw [(dropIndent?_eq_some hbody).2] at h
  exact isBlankLine_iff.mp h c (List.mem_append_right _ hmem)

/-- A character of a blank line starts no block. -/
theorem not_mark_of_isLineGap {c : Char} (h : isLineGap c = true) :
    isDecimalDigit c = false ∧ isBullet c = false ∧ c ∉ blockMarks ∧ c ≠ '#' ∧ c ≠ '=' ∧ c ≠ '_' := by
  have hcases : c = ' ' ∨ c = '\t' ∨ c = '\x0b' ∨ c = '\x0c' := by
    simpa [isLineGap, isGap, or_assoc] using h
  rcases hcases with rfl | rfl | rfl | rfl <;> decide

theorem isPlain_of_isBlankLine {cs : List Char} (h : isBlankLine cs = true) : isPlain cs = true := by
  unfold isPlain marker? markerWith?
  cases hbody : dropIndent? 3 cs with
  | none => rfl
  | some found =>
      obtain ⟨indent, body⟩ := found
      have hhead := head?_of_isBlankLine h hbody
      cases body with
      | nil => rfl
      | cons c body =>
          obtain ⟨hdigit, hbullet, hmarks, -⟩ := not_mark_of_isLineGap (hhead c rfl)
          simp [hdigit, hbullet, hmarks]

theorem markedHeading?_of_isBlankLine {cs : List Char} (h : isBlankLine cs = true) :
    markedHeading? cs = none := by
  unfold markedHeading?
  cases hbody : dropIndent? 3 cs with
  | none => rfl
  | some found =>
      obtain ⟨indent, body⟩ := found
      have hhead := head?_of_isBlankLine h hbody
      cases body with
      | nil => rfl
      | cons c body =>
          obtain ⟨-, -, -, hmark, -⟩ := not_mark_of_isLineGap (hhead c rfl)
          simp [hmark]

theorem underline?_of_isBlankLine {cs : List Char} (h : isBlankLine cs = true) :
    underline? cs = none := by
  unfold underline?
  cases hbody : dropIndent? 3 cs with
  | none => rfl
  | some found =>
      obtain ⟨indent, body⟩ := found
      have hgaps : ∀ c ∈ dropEndWhile isGap body, isLineGap c = true := by
        intro c hc
        rw [(dropIndent?_eq_some hbody).2] at h
        exact isBlankLine_iff.mp h c (List.mem_append_right _ ((prefix_dropEndWhile _ _).subset hc))
      dsimp only
      rw [if_neg]
      intro hmarks
      rw [Bool.and_eq_true, Bool.not_eq_true', List.isEmpty_eq_false_iff, List.all_eq_true] at hmarks
      obtain ⟨c, rest, hcs⟩ := List.exists_cons_of_ne_nil hmarks.1
      have hmem : c ∈ dropEndWhile isGap body := by simp [hcs]
      obtain ⟨-, hbullet, -, -, hequals, -⟩ := not_mark_of_isLineGap (hgaps c hmem)
      have hc := hmarks.2 c hmem
      simp only [isBullet, Bool.or_eq_false_iff] at hbullet
      simp [hequals, hbullet] at hc

theorem isThematicBreak_of_isBlankLine {cs : List Char} (h : isBlankLine cs = true) :
    isThematicBreak 3 cs = false := by
  unfold isThematicBreak
  split
  · next mark rest hbody =>
      have hhead := head?_of_isBlankLine h hbody
      obtain ⟨-, hbullet, -, -, -, hline⟩ := not_mark_of_isLineGap (hhead mark rfl)
      simp only [isBullet, Bool.or_eq_false_iff] at hbullet
      simp [hbullet, hline]
  · rfl

theorem startsHtml_of_isBlankLine {cs : List Char} (h : isBlankLine cs = true) :
    startsHtml cs = false := by
  have hplain := isPlain_of_isBlankLine h
  unfold startsHtml
  split
  · next hbody => exact absurd (by decide) (not_mem_blockMarks_of_isPlain hplain hbody)
  · next hbody => exact absurd (by decide) (not_mem_blockMarks_of_isPlain hplain hbody)
  · rfl

/-- **A blank line ends a paragraph**, with the blank lines after it, unless it is wide enough to be
indented code: then it is a line of the paragraph, or code where there is none. -/
theorem stepBlock_blank (hout : rules.outermost = false) (h : isBlankLine line.chars = true)
    (rest : List Line) (r : Reading) :
    stepBlock rules line rest r =
      if isIndentedCode line.chars then
        if r.inParagraph then stepText line r
        else (r.push (.code (indentedText (line :: rest.take (indentedLength rest))) none),
          indentedLength rest)
      else (r.push .blank, (rest.takeWhile fun l => isBlankLine l.chars).length) := by
  have hplain := isPlain_of_isBlankLine h
  have hfence : fence? 3 line.chars = none := fence?_of_indented_or_blank (by simp [h])
  have hquote : (rules.nested.bind fun nested =>
      (quote? (line :: rest)).map fun q => (nested, q)) = none := by
    rw [quote?_of_isPlain hplain]
    cases rules.nested <;> rfl
  unfold stepBlock
  simp only [hfence, markedHeading?_of_isBlankLine h, underline?_of_isBlankLine h,
    isThematicBreak_of_isBlankLine h, hquote, hout, stepList_of_isPlain hplain,
    startsDefinition_of_isPlain hplain, htmlEndOf?_of_isPlain hplain, startsHtml_of_isBlankLine h, h,
    Bool.false_eq_true, if_false, if_true]

/-! ## Lines that are not blank -/

/-- A list starts where no paragraph stands before it, or not at all. -/
theorem stepList_first (hr : r.inParagraph = false) (rules : Rules) (line : Line)
    (rest : List Line) :
    (∃ b refs taken, b.standsOut = true ∧
        stepList rules line rest r = some (⟨b :: r.blocks, refs⟩, taken)) ∨
      ∀ s, stepList rules line rest s = none := by
  unfold stepList
  cases rules.nested with
  | none => exact .inr fun s => rfl
  | some nested =>
      cases marker? 3 line.chars with
      | none => exact .inr fun s => rfl
      | some m =>
          refine .inl ?_
          have hstart : canStartList m r = true := by rw [canStartList, hr]; rfl
          dsimp only
          rw [if_pos hstart]
          exact ⟨_, _, _, rfl, rfl⟩

/-- What is neither HTML nor a definition nor blank is text. -/
theorem stepOther_text (hout : rules.outermost = false) {rest : List Line}
    (hblank : isBlankLine line.chars = false) (hhtml : htmlEndOf? line rest = none)
    (hdefinition : definition? (line :: rest) = none) (s : Reading) :
    stepOther rules line rest s = stepText line s := by
  have hstep : stepDefinition line rest s = stepText line s := by
    unfold stepDefinition
    rw [hdefinition]
    split <;> rfl
  unfold stepOther
  rw [hhtml, hstep]
  simp only [hblank, hout, Bool.false_eq_true, if_false, ite_self]

/-- **The first line of a text starts a block that stands out, or is text.**  In the latter case it is
text behind a paragraph too, unless it underlines the paragraph. -/
theorem stepBlock_first (hout : rules.outermost = false) (hr : r.inParagraph = false)
    {rest : List Line} (hblank : isBlankLine line.chars = false)
    (hhtml : htmlEndOf? line rest = none) (hdefinition : definition? (line :: rest) = none) :
    (∃ b refs taken, b.standsOut = true ∧
        stepBlock rules line rest r = (⟨b :: r.blocks, refs⟩, taken)) ∨
      stepBlock rules line rest r = stepText line r ∧
        (underline? line.chars = none → ∀ s, stepBlock rules line rest s = stepText line s) := by
  cases hfence : fence? 3 line.chars with
  | some f =>
      cases hopens : f.opens with
      | true =>
          refine .inl ⟨.code (f.raw (f.content rest).1) f.infoText, r.references,
            (f.content rest).2, rfl, ?_⟩
          simp only [stepBlock, hfence, hopens, if_true]
          rfl
      | false => exact .inr (by simp [stepBlock, hfence, hopens])
  | none =>
  cases hcode : isIndentedCode line.chars with
  | true =>
      refine .inl ⟨.code (indentedText (line :: rest.take (indentedLength rest))) none,
        r.references, indentedLength rest, rfl, ?_⟩
      simp only [stepBlock, hfence, hcode, hr, if_true, Bool.false_eq_true, if_false]
      rfl
  | false =>
  cases hheading : markedHeading? line.chars with
  | some found =>
      refine .inl ⟨.heading found.1 found.2, r.references, 0, rfl, ?_⟩
      simp only [stepBlock, hfence, hcode, hheading, Bool.false_eq_true, if_false]
      rfl
  | none =>
  have hlist := stepList_first hr rules line rest
  cases hunderline : underline? line.chars with
  | some level =>
      have hstep : stepBlock rules line rest r = stepUnderline rules level line rest r := by
        simp only [stepBlock, hfence, hcode, hheading, hunderline, Bool.false_eq_true, if_false]
      rw [hstep, stepUnderline_of_inParagraph_eq_false hr]
      split
      · exact .inl ⟨.thematicBreak, r.references, 0, rfl, rfl⟩
      · obtain ⟨b, refs, taken, hb, hlist⟩ | hlist := hlist
        · exact .inl ⟨b, refs, taken, hb, by rw [hlist]; rfl⟩
        · exact .inr ⟨by rw [hlist]; rfl, by simp⟩
  | none =>
  cases hrule : isThematicBreak 3 line.chars with
  | true =>
      refine .inl ⟨.thematicBreak, r.references, 0, rfl, ?_⟩
      simp only [stepBlock, hfence, hcode, hheading, hunderline, hrule, Bool.false_eq_true,
        if_false, if_true]
      rfl
  | false =>
  cases hquote : rules.nested.bind fun nested =>
      (quote? (line :: rest)).map fun q => (nested, q) with
  | some found =>
      refine .inl ⟨.quote (found.1 found.2 r.references).1, (found.1 found.2 r.references).2,
        found.2.length - 1, rfl, ?_⟩
      simp only [stepBlock, hfence, hcode, hheading, hunderline, hrule, hquote, Bool.false_eq_true,
        if_false]
      rfl
  | none =>
  -- Within a quotation neither formulas nor tables are set apart.
  have hstep (s : Reading) : stepBlock rules line rest s =
      (stepList rules line rest s).getD (stepOther rules line rest s) := by
    cases hresult : stepList rules line rest s <;>
      simp only [stepBlock, stepOther, hfence, hcode, hheading, hunderline, hrule, hquote, hout, hhtml,
        hresult, Option.getD_some, Option.getD_none, Bool.false_eq_true, if_false]
  obtain ⟨b, refs, taken, hb, hlist⟩ | hlist := hlist
  · exact .inl ⟨b, refs, taken, hb, by rw [hstep, hlist, Option.getD_some]⟩
  · have htext (s : Reading) : stepBlock rules line rest s = stepText line s := by
      rw [hstep, hlist, Option.getD_none]
      exact stepOther_text hout hblank hhtml hdefinition s
    exact .inr ⟨htext r, fun _ => htext⟩

end Livedoc.Markdown
