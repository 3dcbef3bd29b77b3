import Livedoc.Markdown.Block.Structure
import Livedoc.Proofs.Text.Blank
import Livedoc.Proofs.Text.Lines
import Mathlib.Data.List.TakeWhile

/-!
# Fences among the lines of a text

A fenced block takes all lines up to the one that closes it.  Blocks of other kinds may take
lines as well, and then a fence among these opens nothing.  Where no such block starts outside
of a fence, the fence that is open at the end of a text is the one that its lines leave open
one after the other, and a last line belongs to it or is a line of text
(`readLines_append_dot`).
-/

namespace Livedoc.Markdown

open Livedoc.Text

variable {cs : List Char} {f : Fence}

/-! ## Lines -/

theorem dropIndent?_eq_some {most indent : Nat} {body : List Char}
    (h : dropIndent? most cs = some (indent, body)) :
    indent ≤ most ∧ cs = spaces indent ++ body := by
  unfold dropIndent? at h
  dsimp only at h
  split at h
  · next hindent =>
      rw [Option.some.injEq, Prod.mk.injEq] at h
      obtain ⟨rfl, rfl⟩ := h
      have hspaces : cs.takeWhile (· == ' ') = spaces (indentOf cs) :=
        List.eq_replicate_iff.mpr
          ⟨rfl, fun c hc => by simpa using List.mem_takeWhile_imp hc⟩
      refine ⟨hindent, ?_⟩
      rw [← hspaces, indentOf, drop_length_takeWhile, List.takeWhile_append_dropWhile]
  · cases h

/-- A line that starts with no space has no indentation to drop. -/
theorem dropIndent?_cons {c : Char} (hc : c ≠ ' ') (most : Nat) (rest : List Char) :
    dropIndent? most (c :: rest) = some (0, c :: rest) := by
  simp [dropIndent?, indentOf, hc]

/-! ## Fences -/

/-- The marks of a fence. -/
def Fence.marks (f : Fence) : List Char := List.replicate f.size f.mark

/-- A fence is three or more backticks or tildes, after a limited indentation. -/
theorem fence?_eq_some {most : Nat} (h : fence? most cs = some f) :
    3 ≤ f.size ∧ (f.mark = backtick ∨ f.mark = '~') ∧
      ∃ indent ≤ most, ∃ rest, cs = spaces indent ++ f.mark :: rest := by
  unfold fence? at h
  split at h
  · next indent mark rest hcs =>
      split at h
      · next hmark =>
          dsimp only at h
          split at h
          · next hsize =>
              obtain rfl := Option.some.inj h
              obtain ⟨hindent, hcs⟩ := dropIndent?_eq_some hcs
              exact ⟨hsize, by simpa using hmark, indent, hindent, rest, hcs⟩
          · cases h
      · cases h
  · cases h

/-- The fence that is open after a line, given the one that is open before it. -/
def fenceAfterLine : Option Fence → List Char → Option Fence
  | none, line => fence? 3 line
  | some f, line => if f.closedBy line then none else some f

/-- A mark of a fence is no white space, in any sense. -/
theorem mark_not_blank {c : Char} (h : c = backtick ∨ c = '~') :
    isBlank c = false ∧ isLineGap c = false ∧ c ≠ ' ' ∧ c ≠ '\t' := by
  rcases h with rfl | rfl <;> decide

/-- A line that is indented code or blank is no fence. -/
theorem fence?_of_indented_or_blank (h : (isIndentedCode cs || isBlankLine cs) = true) :
    fence? 3 cs = none := by
  cases hfence : fence? 3 cs with
  | none => rfl
  | some f =>
      obtain ⟨-, hmark, indent, hindent, rest, rfl⟩ := fence?_eq_some hfence
      obtain ⟨-, hgap, hspace, htab⟩ := mark_not_blank hmark
      have hspaces : ∀ c ∈ spaces indent, (c == ' ') = true := by simp [spaces]
      have hdrop : (spaces indent ++ f.mark :: rest).dropWhile (· == ' ') = f.mark :: rest := by
        rw [List.dropWhile_append_of_pos hspaces, List.dropWhile_cons_of_neg (by simpa using hspace)]
      have hwidth : indentOf (spaces indent ++ f.mark :: rest) = indent := by
        rw [indentOf, List.takeWhile_append_of_pos hspaces,
          List.takeWhile_cons_of_neg (by simpa using hspace)]
        simp [spaces]
      have hcode : isIndentedCode (spaces indent ++ f.mark :: rest) = false := by
        rw [isIndentedCode, hdrop, hwidth, Bool.or_eq_false_iff]
        refine ⟨by simp only [Bool.and_eq_false_iff, decide_eq_false_iff_not]; omega, ?_⟩
        split
        · next heq => exact absurd (List.cons.inj heq).1 htab
        · rfl
      have hblank : isBlankLine (spaces indent ++ f.mark :: rest) = false := by
        simp [isBlankLine, hgap]
      rw [hcode, hblank] at h
      cases h

/-! ## Plain lines -/

/-- The characters that a quotation, a formula, a definition of a reference and a block of HTML
start with. -/
def blockMarks : List Char := ['>', '$', '[', '<']

/-- Whether a line is text, a heading, a rule, blank, code or part of a table: it has no marker
of a list item and starts with none of the marks above. -/
def isPlain (cs : List Char) : Bool :=
  (marker? 3 cs).isNone && !(dropIndent? 3 cs).any fun p => p.2.head?.any blockMarks.contains

/-- What a plain line starts with is none of the marks. -/
theorem not_mem_blockMarks_of_isPlain (h : isPlain cs = true) {indent : Nat} {c : Char}
    {rest : List Char} (hcs : dropIndent? 3 cs = some (indent, c :: rest)) : c ∉ blockMarks := by
  have hstart := (Bool.and_eq_true_iff.mp h).2
  rw [hcs] at hstart
  simpa using hstart

theorem marker?_of_isPlain (h : isPlain cs = true) : marker? 3 cs = none := by
  simp only [isPlain, Bool.and_eq_true, Option.isNone_iff_eq_none] at h
  exact h.1

theorem quote?_of_isPlain {line : Line} (h : isPlain line.chars = true) (rest : List Line) :
    quote? (line :: rest) = none := by
  have hmark : afterQuoteMark? line.chars = none := by
    unfold afterQuoteMark?
    split
    · next hcs => exact absurd (by decide) (not_mem_blockMarks_of_isPlain h hcs)
    · rfl
  rw [quote?, hmark]

theorem formula?_of_isPlain (h : isPlain cs = true) (rest : List Line) :
    formula? cs rest = none := by
  have hdollars : afterDollars? cs = none := by
    unfold afterDollars?
    split
    · next hcs => exact absurd (by decide) (not_mem_blockMarks_of_isPlain h hcs)
    · rfl
  rw [formula?, hdollars]

theorem stepList_of_isPlain {line : Line} (h : isPlain line.chars = true) (rules : Rules)
    (rest : List Line) (r : Reading) : stepList rules line rest r = none := by
  rw [stepList, marker?_of_isPlain h]
  split
  · next hnone => cases hnone
  · rfl

theorem startsDefinition_of_isPlain {line : Line} (h : isPlain line.chars = true)
    (rest : List Line) : startsDefinition (line :: rest) = false := by
  rw [startsDefinition, Bool.and_eq_false_iff]
  left
  rw [List.head?_cons, Option.bind_some]
  cases hcs : dropIndent? 3 line.chars with
  | none => rfl
  | some p =>
      obtain ⟨indent, body⟩ := p
      cases body with
      | nil => rfl
      | cons c body =>
          have hc : c ≠ '[' := by
            rintro rfl
            exact not_mem_blockMarks_of_isPlain h hcs (by decide)
          simpa using hc

theorem htmlEndOf?_of_isPlain {line : Line} (h : isPlain line.chars = true) (rest : List Line) :
    htmlEndOf? line rest = none := by
  unfold htmlEndOf?
  split
  · next hcs => exact absurd (by decide) (not_mem_blockMarks_of_isPlain h hcs)
  · rfl

/-- A line without a pipe starts no table. -/
theorem table?_of_not_mem (hpipe : '|' ∉ cs) (rest : List Line) : table? cs rest = none := by
  have hafter : ∀ {indent body}, dropIndent? 3 cs = some (indent, body) → '|' ∉ body := by
    intro indent body hcs hmem
    rw [(dropIndent?_eq_some hcs).2] at hpipe
    exact hpipe (List.mem_append_right _ hmem)
  have hpiped : piped? cs = none := by
    unfold piped?
    split
    · next hcs => exact absurd List.mem_cons_self (hafter hcs)
    · rfl
  have hopen : open? cs = none := by
    unfold open?
    split
    · next c rest hcs =>
        have hrest : '|' ∉ rest := fun hmem => hafter hcs (List.mem_cons_of_mem c hmem)
        simp [hrest]
    · rfl
  rw [table?, hpiped]
  show tableWith? open? openRow? cs rest = none
  unfold tableWith?
  rw [hopen]

private theorem length_takeWhile_le_of_imp {α : Type} {p q : α → Bool}
    (h : ∀ x, p x = true → q x = true) (xs : List α) :
    (xs.takeWhile p).length ≤ (xs.takeWhile q).length := by
  induction xs with
  | nil => exact Nat.le_refl 0
  | cons x xs ih =>
      by_cases hp : p x = true
      · rw [List.takeWhile_cons_of_pos hp, List.takeWhile_cons_of_pos (h x hp)]
        exact Nat.succ_le_succ ih
      · rw [List.takeWhile_cons_of_neg hp]
        exact Nat.zero_le _

/-- The underlining of a heading, or a rule, takes no further line. -/
theorem stepUnderline_of_isPlain {line : Line} (h : isPlain line.chars = true) (rules : Rules)
    (level : Nat) (rest : List Line) (r : Reading) :
    (stepUnderline rules level line rest r).2 = 0 := by
  unfold stepUnderline
  rw [stepList_of_isPlain h]
  split <;> split <;> rfl

/-- **A plain line without a pipe takes no fence with it**: the lines that its block takes after it, if any,
are indented or blank. -/
theorem stepBlock_of_isPlain {line : Line} (h : isPlain line.chars = true)
    (hpipe : '|' ∉ line.chars) (hfence : fence? 3 line.chars = none) (rules : Rules) (rest : List Line) (r : Reading) :
    (stepBlock rules line rest r).2 ≤ indentedLength rest := by
  have hquote : (rules.nested.bind fun nested =>
      (quote? (line :: rest)).map fun q => (nested, q)) = none := by
    rw [quote?_of_isPlain h]
    cases rules.nested <;> rfl
  have hformula : (if rules.outermost then formula? line.chars rest else none) = none := by
    rw [formula?_of_isPlain h, ite_self]
  have hblank : (rest.takeWhile fun l => isBlankLine l.chars).length ≤ indentedLength rest :=
    length_takeWhile_le_of_imp (fun l hl => by simp [hl]) rest
  unfold stepBlock
  simp only [hfence, hquote, hformula, stepList_of_isPlain h, startsDefinition_of_isPlain h,
    htmlEndOf?_of_isPlain h, stepTable, table?_of_not_mem hpipe, stepText, Bool.false_eq_true, if_false]
  split
  · split
    · exact Nat.zero_le _
    · exact Nat.le_refl _
  · split
    · exact Nat.zero_le _
    · split
      · rw [stepUnderline_of_isPlain h]
        exact Nat.zero_le _
      · repeat' split
        all_goals first | exact Nat.zero_le _ | exact hblank

/-! ## A last line that starts with a point -/

section LastLine

variable {last : Line} {rest : List Char}

/-- A line that starts with a point is plain. -/
theorem isPlain_dot (rest : List Char) : isPlain ('.' :: rest) = true := by
  have hmarker : marker? 3 ('.' :: rest) = none := by
    rw [marker?, markerWith?, dropIndent?_cons (by decide)]
    simp [isBullet, show isDecimalDigit '.' = false by decide]
  rw [isPlain, hmarker, dropIndent?_cons (by decide)]
  rfl

theorem isIndentedCode_dot (rest : List Char) : isIndentedCode ('.' :: rest) = false := by
  simp [isIndentedCode, indentOf]

theorem isBlankLine_dot (rest : List Char) : isBlankLine ('.' :: rest) = false := by
  simp [isBlankLine, show isLineGap '.' = false by decide]

/-- A line that starts with a point is a line of text, if none follows it. -/
theorem stepBlock_dot (hlast : last.chars = '.' :: rest) (rules : Rules) (r : Reading) :
    stepBlock rules last [] r = (r.addText last.chars, 0) := by
  have hindent : ∀ most, dropIndent? most last.chars = some (0, '.' :: rest) := by
    intro most
    rw [hlast, dropIndent?_cons (by decide)]
  have hplain : isPlain last.chars = true := hlast ▸ isPlain_dot rest
  have hfence : fence? 3 last.chars = none := by
    rw [fence?, hindent]
    rfl
  have hcode : isIndentedCode last.chars = false := hlast ▸ isIndentedCode_dot rest
  have hheading : markedHeading? last.chars = none := by
    rw [markedHeading?, hindent]
    simp
  have hunderline : underline? last.chars = none := by
    rw [underline?, hindent]
    simp [dropEndWhile_cons, show isGap '.' = false by decide]
  have hrule : isThematicBreak 3 last.chars = false := by
    rw [isThematicBreak, hindent]
    rfl
  have hquote : (rules.nested.bind fun nested =>
      (quote? [last]).map fun q => (nested, q)) = none := by
    rw [quote?_of_isPlain hplain]
    cases rules.nested <;> rfl
  have hformula : (if rules.outermost then formula? last.chars [] else none) = none := by
    rw [formula?_of_isPlain hplain, ite_self]
  have hhtml : startsHtml last.chars = false := by
    rw [startsHtml, hindent]
    rfl
  have hblank : isBlankLine last.chars = false := hlast ▸ isBlankLine_dot rest
  have htable : table? last.chars [] = none := by
    unfold table? tableWith?
    simp
  simp only [stepBlock, hfence, hcode, hheading, hunderline, hrule, hquote, hformula,
    stepList_of_isPlain hplain, startsDefinition_of_isPlain hplain, htmlEndOf?_of_isPlain hplain,
    hhtml, hblank, stepTable, htable, stepText, Bool.false_eq_true, if_false, ite_self]

/-- It is no line of an indented block. -/
theorem indentedLength_append_dot (hlast : last.chars = '.' :: rest) (ls : List Line) :
    indentedLength (ls ++ [last]) = indentedLength ls := by
  have hnot : (isIndentedCode last.chars || isBlankLine last.chars) = false := by
    rw [hlast, isIndentedCode_dot, isBlankLine_dot, Bool.or_self]
  rw [indentedLength, List.takeWhile_append, List.takeWhile_cons_of_neg (by simp [hnot]),
    List.append_nil, indentedLength]
  split
  · next hall => exact hall.symm
  · rfl

/-- It closes no fence. -/
theorem closedBy_dot (hlast : last.chars = '.' :: rest) (hsize : 0 < f.size)
    (hmark : f.mark ≠ '.') : f.closedBy last.chars = false := by
  rw [Fence.closedBy, hlast, dropIndent?_cons (by decide)]
  have hnone : ('.' :: rest).takeWhile (· == f.mark) = [] :=
    List.takeWhile_cons_of_neg (by simpa using Ne.symm hmark)
  simp [hnone, Nat.not_le.mpr hsize]

end LastLine

/-! ## Reading on -/

/-- Lines that belong to the last block are passed over. -/
theorem readLines_skip (rules : Rules) (skip : Nat) (ls : List Line) (r : Reading) :
    readLines rules skip ls r = readLines rules 0 (ls.drop skip) r := by
  induction ls generalizing skip with
  | nil =>
      rw [List.drop_nil]
      cases skip <;> rfl
  | cons line rest ih =>
      cases skip with
      | zero => rfl
      | succ skip => exact ih skip

/-- One block is read, and then what comes after it. -/
theorem readLines_cons (rules : Rules) (line : Line) (rest : List Line) (r : Reading) :
    readLines rules 0 (line :: rest) r =
      readLines rules 0 (rest.drop (stepBlock rules line rest r).2) (stepBlock rules line rest r).1 :=
  readLines_skip rules _ rest _

/-- The fence that is open after lines, given the one that is open before them. -/
def openAfter (fence : Option Fence) (ls : List Line) : Option Fence :=
  ls.foldl (fun fence line => fenceAfterLine fence line.chars) fence

/-- Lines with the fence that is open before each of them. -/
def withFences : Option Fence → List Line → List (Option Fence × List Char)
  | _, [] => []
  | fence, line :: rest =>
    (fence, line.chars) :: withFences (fenceAfterLine fence line.chars) rest

theorem withFences_append (fence : Option Fence) (before after : List Line) :
    withFences fence (before ++ after) =
      withFences fence before ++ withFences (openAfter fence before) after := by
  induction before generalizing fence with
  | nil => rfl
  | cons line before ih => exact congrArg _ (ih _)

/-- Whether a line is plain and without a pipe, opens a fenced block, or is in the fence that is open
before it. -/
def isFlat : Option Fence → List Char → Bool
  | some _, _ => true
  | none, line => (fence? 3 line).elim (isPlain line && !line.contains '|') Fence.opens

theorem openAfter_append (fence : Option Fence) (before after : List Line) :
    openAfter fence (before ++ after) = openAfter (openAfter fence before) after :=
  List.foldl_append

/-- A fence stays open after lines that do not close it. -/
theorem openAfter_of_not_closed {ls : List Line} (h : ∀ l ∈ ls, f.closedBy l.chars = false) :
    openAfter (some f) ls = some f := by
  induction ls with
  | nil => rfl
  | cons line rest ih =>
      have hline : fenceAfterLine (some f) line.chars = some f := by
        rw [fenceAfterLine, h line (by simp)]
        rfl
      show openAfter (fenceAfterLine (some f) line.chars) rest = some f
      rw [hline]
      exact ih fun l hl => h l (by simp [hl])

/-- Indented and blank lines open no fence. -/
theorem openAfter_take_indentedLength {ls : List Line} {n : Nat} (h : n ≤ indentedLength ls) :
    openAfter none (ls.take n) = none := by
  induction ls generalizing n with
  | nil =>
      rw [List.take_nil]
      rfl
  | cons line rest ih =>
      cases n with
      | zero => rfl
      | succ n =>
          unfold indentedLength at h ih
          rw [List.takeWhile_cons] at h
          split at h
          · next hline =>
              show openAfter (fence? 3 line.chars) (rest.take n) = none
              rw [fence?_of_indented_or_blank hline]
              exact ih (Nat.le_of_succ_le_succ h)
          · cases h

/-- A block takes the lines up to the one that closes it. -/
theorem Fence.content_append_closer (f : Fence) {inside : List Line} {closer : Line}
    (hinside : ∀ l ∈ inside, f.closedBy l.chars = false) (hcloses : f.closedBy closer.chars = true)
    (outside : List Line) :
    f.content (inside ++ closer :: outside) = (inside.map (·.chars), inside.length + 1) := by
  have htake : (inside ++ closer :: outside).takeWhile (fun l => !f.closedBy l.chars) = inside := by
    rw [List.takeWhile_append_of_pos (by simpa using hinside),
      List.takeWhile_cons_of_neg (by simpa using hcloses), List.append_nil]
  rw [Fence.content, htake]
  simp

/-- A block that is not closed takes all lines. -/
theorem Fence.content_of_not_closed (f : Fence) {inside : List Line}
    (hinside : ∀ l ∈ inside, f.closedBy l.chars = false) :
    f.content inside = (inside.map (·.chars), inside.length) := by
  have htake : inside.takeWhile (fun l => !f.closedBy l.chars) = inside :=
    List.takeWhile_eq_self_iff.mpr (by simpa using hinside)
  rw [Fence.content, htake]
  simp

/-- A line that starts with a point stays as it is in a block. -/
theorem Fence.raw_append_dot (f : Fence) {last : Line} {after : List Char}
    (hlast : last.chars = '.' :: after) (content : List (List Char)) :
    f.raw (content ++ [last.chars]) = f.raw content ++ last.chars ++ ['\n'] := by
  have hkeep : dropSpaces f.indent last.chars = last.chars := by
    rw [hlast]
    cases f.indent <;> rfl
  simp [Fence.raw, hkeep]

section Run

variable {last line : Line} {rest : List Line} {after : List Char}

/-- What a line that opens no fence takes leaves no fence open. -/
theorem readLines_plain (hlast : last.chars = '.' :: after) (hplain : isPlain line.chars = true)
    (hpipe : '|' ∉ line.chars) (hfence : fence? 3 line.chars = none) (rules : Rules) (r : Reading) :
    ∃ taken r', openAfter none (line :: rest.take taken) = none ∧
      readLines rules 0 (line :: (rest ++ [last])) r =
        readLines rules 0 (rest.drop taken ++ [last]) r' := by
  have htaken := stepBlock_of_isPlain hplain hpipe hfence rules (rest ++ [last]) r
  rw [indentedLength_append_dot hlast] at htaken
  rw [readLines_cons]
  generalize stepBlock rules line (rest ++ [last]) r = step at htaken ⊢
  refine ⟨step.2, step.1, ?_, ?_⟩
  · show openAfter (fence? 3 line.chars) (rest.take step.2) = none
    rw [hfence]
    exact openAfter_take_indentedLength htaken
  · rw [List.drop_append_of_le_length]
    exact htaken.trans (List.takeWhile_sublist _).length_le

/-- A fenced block ends at the line that closes it, or takes all lines. -/
theorem readLines_fence (hlast : last.chars = '.' :: after) (hfence : fence? 3 line.chars = some f)
    (hopens : f.opens = true) (rules : Rules) (r : Reading) :
    (∃ taken r', openAfter none (line :: rest.take taken) = none ∧
      readLines rules 0 (line :: (rest ++ [last])) r =
        readLines rules 0 (rest.drop taken ++ [last]) r') ∨
    (openAfter none (line :: rest) = some f ∧ ∃ text,
      readLines rules 0 (line :: (rest ++ [last])) r =
        r.push (.code (text ++ last.chars ++ ['\n']) f.infoText)) := by
  have hopen : ∀ ls, openAfter none (line :: ls) = openAfter (some f) ls := by
    intro ls
    show openAfter (fence? 3 line.chars) ls = _
    rw [hfence]
  have hstep : stepBlock rules line (rest ++ [last]) r =
      (r.push (.code (f.raw (f.content (rest ++ [last])).1) f.infoText),
        (f.content (rest ++ [last])).2) := by
    rw [stepBlock, hfence]
    exact if_pos hopens
  rw [readLines_cons, hstep]
  cases hclosing : rest.find? fun l => f.closedBy l.chars with
  | none =>
      right
      have hinside : ∀ l ∈ rest, f.closedBy l.chars = false := by simpa using hclosing
      obtain ⟨hsize, hmark, -⟩ := fence?_eq_some hfence
      have hlastInside : f.closedBy last.chars = false :=
        closedBy_dot hlast (by omega) (by rcases hmark with h | h <;> rw [h] <;> decide)
      have hcontent : f.content (rest ++ [last]) = _ :=
        f.content_of_not_closed (by simpa [or_imp, forall_and] using ⟨hinside, hlastInside⟩)
      rw [hopen, openAfter_of_not_closed hinside, hcontent, List.drop_length]
      refine ⟨rfl, f.raw (rest.map (·.chars)), ?_⟩
      rw [List.map_append, List.map_singleton, f.raw_append_dot hlast]
      rfl
  | some closer =>
      left
      obtain ⟨hcloses, inside, outside, rfl, hinside⟩ := List.find?_eq_some_iff_append.mp hclosing
      have hinside : ∀ l ∈ inside, f.closedBy l.chars = false := by simpa using hinside
      refine ⟨inside.length + 1, r.push (.code (f.raw (inside.map (·.chars))) f.infoText), ?_, ?_⟩
      · rw [hopen, List.take_length_add_append, openAfter_append, openAfter_of_not_closed hinside]
        show fenceAfterLine (some f) closer.chars = none
        rw [fenceAfterLine, hcloses]
        rfl
      · rw [List.append_assoc, List.cons_append, f.content_append_closer hinside hcloses,
          List.drop_length_add_append, List.drop_length_add_append]
        rfl

/-- A line of text ends a paragraph. -/
theorem Reading.blocks_addText (r : Reading) (cs : List Char) :
    ∃ text before, (r.addText cs).blocks = .paragraph (text ++ cs ++ ['\n']) :: before := by
  unfold Reading.addText
  split
  · next text before _ => exact ⟨text, before, rfl⟩
  · exact ⟨[], r.blocks, rfl⟩

/-- **A last line that starts with a point belongs to the fence that is open before it**, and is
a line of text if there is none. -/
theorem readLines_append_dot (hlast : last.chars = '.' :: after) (rules : Rules)
    {ls : List Line} (hflat : ∀ p ∈ withFences none ls, isFlat p.1 p.2 = true) (r : Reading) :
    ∃ text before, (readLines rules 0 (ls ++ [last]) r).blocks =
      ((openAfter none ls).elim (Block.paragraph (text ++ last.chars ++ ['\n']))
        fun f => .code (text ++ last.chars ++ ['\n']) f.infoText) :: before := by
  induction hlength : ls.length using Nat.strong_induction_on generalizing ls r with
  | _ n ih =>
    subst hlength
    cases ls with
    | nil =>
        rw [List.nil_append, readLines_cons, stepBlock_dot hlast]
        exact r.blocks_addText last.chars
    | cons line rest =>
        have hline : isFlat none line.chars = true := hflat (none, line.chars) (by simp [withFences])
        -- What is left after a block is flat again and has the same fence at its end.
        have hresume : ∀ {taken r'}, openAfter none (line :: rest.take taken) = none →
            readLines rules 0 (line :: (rest ++ [last])) r =
              readLines rules 0 (rest.drop taken ++ [last]) r' →
            ∃ text before, (readLines rules 0 (line :: (rest ++ [last])) r).blocks =
              ((openAfter none (line :: rest)).elim (Block.paragraph (text ++ last.chars ++ ['\n']))
                fun f => .code (text ++ last.chars ++ ['\n']) f.infoText) :: before := by
          intro taken r' hopen hread
          have hsplit : line :: rest = (line :: rest.take taken) ++ rest.drop taken := by
            rw [List.cons_append, List.take_append_drop]
          rw [hread, hsplit, openAfter_append, hopen]
          refine ih _ ?_ ?_ r' rfl
          · rw [List.length_drop, List.length_cons]
            omega
          · intro p hp
            rw [hsplit, withFences_append, hopen] at hflat
            exact hflat p (List.mem_append_right _ hp)
        rw [List.cons_append]
        cases hfence : fence? 3 line.chars with
        | none =>
            rw [isFlat, hfence] at hline
            obtain ⟨hplain, hpipe⟩ := Bool.and_eq_true_iff.mp hline
            obtain ⟨taken, r', hopen, hread⟩ :=
              readLines_plain hlast hplain (by simpa using hpipe) hfence rules r
            exact hresume hopen hread
        | some f =>
            rw [isFlat, hfence] at hline
            obtain ⟨taken, r', hopen, hread⟩ | ⟨hopen, text, hread⟩ :=
              readLines_fence hlast hfence hline rules r
            · exact hresume hopen hread
            · rw [hopen, hread]
              exact ⟨text, r.blocks, rfl⟩

end Run

/-! ## The end of a text -/

mutual

/-- Whether a block ends in fenced code, the given line being its last.  The text of indented
code has no newline at its end. -/
def Block.endsInCode (line : List Char) : Block → Bool
  | .code raw _ => (line ++ ['\n']).isSuffixOf raw
  | .quote children => endsInCode line children
  | .list _ _ items => itemsEndInCode line items
  | _ => false

/-- Whether blocks end in fenced code, the given line being its last. -/
def endsInCode (line : List Char) : List Block → Bool
  | [] => false
  | [block] => block.endsInCode line
  | _ :: next :: rest => endsInCode line (next :: rest)

/-- Whether the last item of a list ends in fenced code, the given line being its last. -/
def itemsEndInCode (line : List Char) : List (List Block) → Bool
  | [] => false
  | [item] => endsInCode line item
  | _ :: next :: rest => itemsEndInCode line (next :: rest)

end

theorem endsInCode_append_singleton (line : List Char) (blocks : List Block) (block : Block) :
    endsInCode line (blocks ++ [block]) = block.endsInCode line := by
  induction blocks with
  | nil => rfl
  | cons first blocks ih =>
      cases blocks with
      | nil => exact ih
      | cons next blocks => exact ih

/-- Lines that are no line of a quotation. -/
def plainLines (ls : List (List Char)) : List Line := ls.map fun cs => { chars := cs }

/-- Joined lines are read as lines of their own, if the last one is not empty. -/
theorem linesOf_unlines {ls : List (List Char)} {last : List Char} (hlast : last ≠ [])
    (hlines : ∀ line ∈ ls ++ [last], '\n' ∉ line) :
    linesOf (unlines (ls ++ [last])) = plainLines (ls ++ [last]) := by
  have hdivided : lines (unlines (ls ++ [last])) = ls ++ [last] := lines_unlines (by simp) hlines
  unfold linesOf
  split
  · next hnil =>
      rw [hnil] at hdivided
      have hempty := congrArg List.getLast? hdivided
      rw [List.getLast?_concat] at hempty
      exact absurd (Option.some.inj hempty).symm hlast
  · rw [hdivided]
    simp [hlast, plainLines]

/-- **The last line of a flat text belongs to a fenced block if a fence is open before it.** -/
theorem endsInCode_readBlocks {ls : List (List Char)} {last after : List Char}
    (hlast : last = '.' :: after) (hlines : ∀ line ∈ ls ++ [last], '\n' ∉ line)
    (hflat : ∀ p ∈ withFences none (plainLines ls), isFlat p.1 p.2 = true) :
    endsInCode last (readBlocks (unlines (ls ++ [last]))).1 =
      (openAfter none (plainLines ls)).isSome := by
  rw [readBlocks, linesOf_unlines (by simp [hlast]) hlines, plainLines, List.map_append]
  show endsInCode last (readLines ⟨true, some (readNested false 19)⟩ 0
    (plainLines ls ++ [{ chars := last }]) ⟨[], []⟩).blocks.reverse = _
  have hchars : ({ chars := last } : Line).chars = '.' :: after := hlast
  obtain ⟨text, before, hblocks⟩ := readLines_append_dot hchars
    ⟨true, some (readNested false 19)⟩ hflat ⟨[], []⟩
  rw [hblocks, List.reverse_cons, endsInCode_append_singleton]
  cases openAfter none (plainLines ls) with
  | none => rfl
  | some f =>
      show (last ++ ['\n']).isSuffixOf (text ++ last ++ ['\n']) = true
      rw [List.isSuffixOf_iff_suffix, List.append_assoc]
      exact List.suffix_append _ _

end Livedoc.Markdown
