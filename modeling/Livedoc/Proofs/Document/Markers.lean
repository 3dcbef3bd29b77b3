import Livedoc.Proofs.Document.NodeTally
import Livedoc.Proofs.Document.Origin

/-!
# Markers that are left in a tree

Each label that is rewritten puts one opening bracket into the lines of a document, and reading the
lines adds none: they are divided into segments, a block call has its arguments, its line and its
body, and a quotation gives a bracket for its type.  So the brackets in the contents of the tree and
the typed quotations are together no more than the labels (`weight_read_le`), and where every label
gives a quotation its type, no marker is left (`read_markers`).
-/

namespace Livedoc.Document

open Livedoc.Call Livedoc.Markdown Livedoc.Source Livedoc.Text Livedoc.Tree Livedoc.Tree.Node

variable {ls : List (List Char)} {line marked : List Char}

/-! ## Labels -/

/-- How many lines have their labels rewritten, `afterQuoted` telling whether the line before them
is quoted. -/
def rewrittenLines (afterQuoted : Bool) : List (List Char) → Nat
  | [] => 0
  | line :: rest =>
    (if !afterQuoted && (markLabel? line).isSome then 1 else 0) + rewrittenLines (isQuoted line) rest

/-- How many labels of a source are rewritten into markers. -/
def rewrittenLabels (source : String) : Nat :=
  rewrittenLines false (lines (normalizeBreaks source.toList))

theorem tally_upper_le (cs : List Char) : tally (upper cs) ≤ tally cs := by
  induction cs with
  | nil => exact Nat.le_refl _
  | cons c cs ih =>
      have hletter : tally (upperChar c) ≤ if c = '[' then 1 else 0 := by
        split
        · next hc => rw [hc]; decide
        · next hc =>
            refine (tally_eq_zero_iff.mpr fun hmem => hc ?_).le
            exact eq_of_mem_upperChar (by decide) (by decide) hmem
      rw [upper, List.flatMap_cons, tally_append, tally_cons]
      exact (Nat.add_comm _ _).trans_le (Nat.add_le_add ih hletter)

/-- A marker is one bracket more. -/
theorem tally_markLabel?_le (h : markLabel? line = some marked) :
    tally marked ≤ tally line + 1 := by
  obtain ⟨mark, label, body, rfl, -, -, rfl⟩ := markLabel?_eq_some h
  have hlabel := tally_upper_le label
  have hbody := tally_dropWhile_le isGap body
  have hopen : tally "[!".toList = 1 := rfl
  have hclose : tally "] ".toList = 0 := rfl
  refine Nat.le_trans (tally_dropEndWhile_le _ _) ?_
  simp only [tally_append, tally_cons_of_ne (show ':' ≠ '[' by decide)]
  omega

theorem tallyAll_markLabels_le (afterQuoted : Bool) (ls : List (List Char)) :
    tallyAll (markLabels afterQuoted ls) ≤ tallyAll ls + rewrittenLines afterQuoted ls := by
  induction ls generalizing afterQuoted with
  | nil => exact Nat.le_refl _
  | cons line rest ih =>
      have hrest := ih (isQuoted line)
      have hline : tally (if afterQuoted then line else (markLabel? line).getD line) ≤
          tally line + if !afterQuoted && (markLabel? line).isSome then 1 else 0 := by
        cases afterQuoted with
        | true => exact Nat.le_add_right _ _
        | false =>
            cases hmarked : markLabel? line with
            | none => exact Nat.le_add_right _ _
            | some marked => exact tally_markLabel?_le hmarked
      rw [markLabels, rewrittenLines, tallyAll_cons, tallyAll_cons]
      omega

theorem tally_normalizeBreaks_le (cs : List Char) : tally (normalizeBreaks cs) ≤ tally cs := by
  fun_induction normalizeBreaks cs with
  | case1 => exact Nat.le_refl _
  | case2 rest ih =>
      simp only [tally_cons]
      omega
  | case3 c rest _ ih =>
      rw [tally_cons, tally_cons]
      split <;> simp_all

/-! ## Segments -/

/-- The number of opening brackets in the lines of a segment. -/
def Segment.tally : Segment → Nat
  | .markdown ls _ => tallyAll ls
  | .call c => Text.tally c.line + tallyAll c.body

/-- **The segments of lines have the brackets of the lines.** -/
theorem Divides.sum_tally {number : Nat} {ss : List Segment} (h : Divides number ls ss) :
    (ss.map Segment.tally).sum = tallyAll ls := by
  induction h with
  | nil => rfl
  | @markdown number ms after ss hne hnext hafter ih =>
      rw [List.map_cons, List.sum_cons, ih, Segment.tally, tallyAll_append]
  | @call number c after ss hcall hafter ih =>
      rw [List.map_cons, List.sum_cons, ih, Segment.tally, tallyAll_cons, tallyAll_append,
        Nat.add_assoc]

/-! ## Reading -/

theorem weight_flatMap_le {α : Type} {f : α → List Node} {g : α → Nat} {as : List α}
    (h : ∀ a ∈ as, weight (f a) ≤ g a) : weight (as.flatMap f) ≤ (as.map g).sum := by
  induction as with
  | nil => exact Nat.le_refl _
  | cons a as ih =>
      rw [List.forall_mem_cons] at h
      rw [List.flatMap_cons, weight_append, List.map_cons, List.sum_cons]
      exact Nat.add_le_add h.1 (ih h.2)

theorem weight_readMarkdown_le (index : LineIndex) (ls : List (List Char)) (number indent : Nat) :
    weight (readMarkdown index ls number indent).result ≤ tallyAll ls := by
  unfold readMarkdown
  dsimp only
  split
  · exact Nat.zero_le _
  · rw [← tally_unlines]
    exact (weight_markdownNodes_le (unlines ls) _ trivial).1

theorem weight_readCallLine_le (index : LineIndex) (c : BlockCall) (indent : Nat) :
    weight (readCallLine index c indent).result ≤ tally (c.line.drop c.head.stop) := by
  unfold readCallLine
  dsimp only
  split
  · exact Nat.zero_le _
  · refine Nat.le_trans ?_ (tally_trimWhile_le isBlank _)
    exact (weight_inlineNodes_le [] _ _ trivial).1

/-- A block call has its arguments, its line and its body. -/
theorem weight_callNode (index : LineIndex) (c : BlockCall) (indent : Nat)
    (onLine below : List Node) :
    weight [callNode index c indent onLine below] =
      tallyGroups c.head.groups + weight onLine + weight below := by
  have hfirst : weight (if onLine.isEmpty || c.body.isEmpty then onLine
      else [.paragraph onLine (coverNodes onLine)]) = weight onLine := by
    split
    · rfl
    · exact weight_paragraph _ _
  unfold callNode
  dsimp only
  rw [weight_call c.head (by rw [List.map_map]; rfl) (by rw [List.map_map]; rfl), weight_append,
    hfirst, Nat.add_assoc]

/-- **What is read from lines weighs no more than the lines have brackets.** -/
theorem weight_readParts_le (index : LineIndex) (number indent : Nat) (ls : List (List Char)) :
    weight (readParts index number indent ls).result ≤ tallyAll ls := by
  -- By induction on the number of lines: the body of a call has fewer.
  induction hlength : ls.length using Nat.strong_induction_on generalizing number indent ls with
  | _ n ih =>
    subst hlength
    have hsegment : ∀ s ∈ segments number ls,
        weight (readSegment index indent s).result ≤ s.tally := by
      intro s hs
      cases s with
      | markdown ms number => exact weight_readMarkdown_le index ms number indent
      | call c =>
          obtain ⟨before, after, -, hcall⟩ := segments_standAt hs
          obtain ⟨-, -, -, hhead, hclosed⟩ := blockCall?_line hcall
          have hgroups := tally_groups_headAt? hhead hclosed
          have honLine := weight_readCallLine_le index c indent
          have hbelow := ih (c.body.map (List.drop (commonIndent c.body))).length
            (by simpa using body_length_lt hs) (c.number + 1) (indent + commonIndent c.body) _ rfl
          have hbody := tallyAll_map_le (tally_drop_le (commonIndent c.body)) c.body
          simp only [readSegment, weight_callNode, Segment.tally]
          omega
    rw [readParts_eq, Parsed.join, List.flatMap_map]
    exact (weight_flatMap_le hsegment).trans_eq (segments_divides number ls).sum_tally

/-- **Reading adds a bracket for each label**, and each quotation with a type has used one up. -/
theorem weight_read_le (source : String) :
    brackets (read source).result.children + typedQuotes (read source).result.children ≤
      tally source.toList + rewrittenLabels source := by
  have hparts := weight_readParts_le (.ofText source.toList) 1 0
    (lines (normalizeQuotes (normalizeBreaks source.toList)))
  have hmarked := tallyAll_markLabels_le false (lines (normalizeBreaks source.toList))
  have hbreaks := tally_normalizeBreaks_le source.toList
  rw [← lines_normalizeQuotes, tallyAll_lines (normalizeBreaks _)] at hmarked
  exact Nat.le_trans hparts (Nat.le_trans hmarked (Nat.add_le_add_right hbreaks _))

/-- **Markers are left only of labels that gave no quotation its type.** In a tree that is read from
a source without opening brackets, the brackets in the contents of text, code and mathematics and
in arguments are no more than the labels that were rewritten without the quotations that have a
type.  If each of these labels types a quotation, there are none. -/
theorem read_markers {source : String} (h : '[' ∉ source.toList) :
    brackets (read source).result.children + typedQuotes (read source).result.children ≤
        rewrittenLabels source ∧
      (rewrittenLabels source ≤ typedQuotes (read source).result.children →
        ∀ m ∈ walkAll (read source).result.children, ∀ content ∈ m.contents,
          '[' ∉ content.toList) := by
  have hweight := weight_read_le source
  rw [tally_eq_zero_iff.mpr h, Nat.zero_add] at hweight
  refine ⟨hweight, fun htyped => brackets_eq_zero_iff.mp ?_⟩
  omega

/-- Two labels, each with a quotation of its own. -/
theorem read_markers_two :
    '[' ∉ "> Note: a\n\n> Tip: b".toList ∧ rewrittenLabels "> Note: a\n\n> Tip: b" = 2 ∧
      typedQuotes (read "> Note: a\n\n> Tip: b").result.children = 2 ∧
      ∀ m ∈ walkAll (read "> Note: a\n\n> Tip: b").result.children, ∀ content ∈ m.contents,
        '[' ∉ content.toList := by
  have hsource : '[' ∉ "> Note: a\n\n> Tip: b".toList := by decide
  have hlabels : rewrittenLabels "> Note: a\n\n> Tip: b" = 2 := by decide +kernel
  have htyped : typedQuotes (read "> Note: a\n\n> Tip: b").result.children = 2 := by
    decide +kernel
  exact ⟨hsource, hlabels, htyped, (read_markers hsource).2 (hlabels.trans_le htyped.ge)⟩

/-- **A label within a fence is rewritten, and its marker is left**: the code is not what the source
says. -/
theorem read_markers_fence :
    '[' ∉ "\x60\x60\x60\n> Note: x\n\x60\x60\x60".toList ∧
      (walkAll (read "\x60\x60\x60\n> Note: x\n\x60\x60\x60").result.children).flatMap contents =
        ["> [!NOTE] x"] ∧
      '[' ∈ "> [!NOTE] x".toList := by
  decide +kernel

end Livedoc.Document
