import Livedoc.Document.TypedQuote
import Livedoc.Proofs.Call.Drawn
import Livedoc.Proofs.Markdown.QuoteMarker
import Livedoc.Proofs.Text.Case
import Mathlib.Data.List.Forall2

/-!
# Where labels are rewritten

Rewriting the labels of typed quotations works line by line.  A rewritten line keeps its
quotation mark and what stands before it (`markLabel?_eq_some`), so it is neither blank nor
indented otherwise than before, and it holds no newline and no new name.  A line that is not quoted
stays as it is, and what was quoted before it does not matter for the lines after it
(`markLabels_append_cons`).

So the lines of a text keep their numbers, and a line is changed exactly if it is quoted, no quoted
line stands before it, and it carries a label; it keeps what stands in front of the label and the
text behind it.  A rewritten line is still quoted and carries no label any more (`rewritten_spec`), so
rewriting a second time changes nothing (`markLabels_markLabels`).
-/

namespace Livedoc.Document

open Livedoc.Call Livedoc.Markdown Livedoc.Text

variable {line marked : List Char}

/-! ## Quoted lines -/

/-- **The mark of a quoted line stands at its start**, after three spaces at most. -/
theorem takeQuoteMark?_eq_some_iff {mark rest : List Char} :
    takeQuoteMark? line = some (mark, rest) ↔
      ∃ n ≤ 3, mark = List.replicate n ' ' ++ ['>'] ∧ line = mark ++ rest := by
  constructor
  · intro h
    unfold takeQuoteMark? at h
    dsimp only at h
    rw [drop_length_takeWhile] at h
    split at h
    · next after hafter =>
        split at h
        · next hshort =>
            rw [Option.some.injEq, Prod.mk.injEq] at h
            obtain ⟨rfl, rfl⟩ := h
            refine ⟨_, hshort, congrArg (· ++ ['>']) (List.eq_replicate_iff.mpr ⟨rfl, ?_⟩), ?_⟩
            · exact fun c hc => by simpa using List.mem_takeWhile_imp hc
            · rw [List.append_assoc, List.singleton_append, ← hafter,
                List.takeWhile_append_dropWhile]
        · cases h
    · cases h
  · rintro ⟨n, hn, rfl, rfl⟩
    have hindent : (List.replicate n ' ' ++ '>' :: rest).takeWhile (· == ' ') =
        List.replicate n ' ' := by
      rw [List.takeWhile_append_of_pos (by simp), List.takeWhile_cons_of_neg (by decide),
        List.append_nil]
    rw [List.append_assoc, List.singleton_append, takeQuoteMark?]
    have hdrop : (List.replicate n ' ' ++ '>' :: rest).drop n = '>' :: rest := by
      rw [List.drop_append_of_le_length (by simp), List.drop_replicate, Nat.sub_self]
      rfl
    simp only [hindent, List.length_replicate, hdrop, hn, if_true]

/-- A line that starts with neither a space nor the mark is not quoted. -/
theorem takeQuoteMark?_cons {c : Char} (hspace : c ≠ ' ') (hmark : c ≠ '>') (cs : List Char) :
    takeQuoteMark? (c :: cs) = none := by
  unfold takeQuoteMark?
  simp [hspace, hmark]

/-- A line indented by four spaces is not quoted. -/
theorem takeQuoteMark?_indented (cs : List Char) :
    takeQuoteMark? (List.replicate 4 ' ' ++ cs) = none := by
  unfold takeQuoteMark?
  dsimp only
  split
  · rw [if_neg]
    have hindent : List.replicate 4 ' ' <+: (List.replicate 4 ' ' ++ cs).takeWhile (· == ' ') := by
      rw [List.takeWhile_append_of_pos (by simp)]
      exact List.prefix_append _ _
    have := hindent.length_le
    rw [List.length_replicate] at this
    omega
  · rfl

theorem markLabel?_eq_none (h : takeQuoteMark? line = none) : markLabel? line = none := by
  rw [markLabel?, h]

theorem isQuoted_eq_false (h : takeQuoteMark? line = none) : isQuoted line = false := by
  rw [isQuoted, h]
  rfl

/-- A quoted line starts with the quotation mark, after three spaces at most. -/
def Quoted (line : List Char) : Prop :=
  ∃ n ≤ 3, ∃ rest, line = List.replicate n ' ' ++ '>' :: rest

theorem isQuoted_iff : isQuoted line = true ↔ Quoted line := by
  rw [isQuoted, Option.isSome_iff_exists]
  constructor
  · rintro ⟨⟨mark, rest⟩, h⟩
    obtain ⟨n, hn, rfl, rfl⟩ := takeQuoteMark?_eq_some_iff.mp h
    exact ⟨n, hn, rest, by simp⟩
  · rintro ⟨n, hn, rest, rfl⟩
    exact ⟨(List.replicate n ' ' ++ ['>'], rest),
      takeQuoteMark?_eq_some_iff.mpr ⟨n, hn, rfl, by simp⟩⟩

/-! ## Rewritten lines -/

/-- **What a word leaves of a text** is what stands behind the word, in letters of either case. -/
theorem dropWord?_eq_some_iff {word cs rest : List Char} :
    dropWord? word cs = some rest ↔
      ∃ label, List.Forall₂ (fun letter c => sameLetter letter c = true) word label ∧
        cs = label ++ rest := by
  constructor
  · intro h
    fun_induction dropWord? word cs with
    | case1 cs =>
        cases h
        exact ⟨[], .nil, rfl⟩
    | case2 => cases h
    | case3 letter word c cs hletter ih =>
        obtain ⟨label, hlabel, rfl⟩ := ih h
        exact ⟨c :: label, .cons hletter hlabel, rfl⟩
    | case4 => cases h
  · rintro ⟨label, hlabel, rfl⟩
    induction hlabel with
    | nil => rfl
    | cons hletter _ ih => rw [List.cons_append, dropWord?, if_pos hletter, ih]

/-- A label as it may be written: the letters of one of the words, in either case. -/
def IsLabel (label : List Char) : Prop :=
  ∃ word ∈ quoteLabels, List.Forall₂ (fun letter c => sameLetter letter c = true) word label

/-- A character is in either case that of one letter only. -/
private theorem eq_of_sameLetter {first second c : Char} (hfirst : first.toNat < 128)
    (hsecond : second.toNat < 128) (h : sameLetter first c = true)
    (h' : sameLetter second c = true) : first = second := by
  simp only [sameLetter, Bool.or_eq_true, Bool.and_eq_true, beq_iff_eq] at h h'
  have hform (hc : c = '\u0131' ∨ c = '\u0130') : 128 ≤ c.toLower.toNat := by
    rcases hc with rfl | rfl <;> decide
  rcases h with rfl | ⟨rfl, hc⟩
  · rcases h' with h' | ⟨-, hc⟩
    · exact h'
    · exact absurd (hform hc) (by omega)
  · rcases h' with rfl | ⟨rfl, -⟩
    · exact absurd (hform hc) (by omega)
    · rfl

namespace IsLabel

variable {label label' rest rest' : List Char}

/-- A label starts with a letter of a word. -/
theorem exists_cons (h : IsLabel label) : ∃ letter word c others, letter :: word ∈ quoteLabels ∧
    sameLetter letter c = true ∧ label = c :: others ∧ others.length = word.length := by
  obtain ⟨word, hword, hlabel⟩ := h
  cases hlabel with
  | nil => exact absurd hword (by decide)
  | cons hletter hothers => exact ⟨_, _, _, _, hword, hletter, rfl, hothers.length_eq.symm⟩

/-- A character that is no letter of a word in either case is in no label. -/
theorem not_mem (h : IsLabel label) {c : Char}
    (hc : (quoteLabels.all fun word => word.all fun letter => !sameLetter letter c) = true) :
    c ∉ label := by
  obtain ⟨word, hword, hlabel⟩ := h
  have hletters := List.all_eq_true.mp hc word hword
  clear hword
  induction hlabel with
  | nil => exact List.not_mem_nil
  | @cons letter d word label hletter _ ih =>
      rw [List.all_cons, Bool.and_eq_true] at hletters
      rw [List.mem_cons, not_or]
      refine ⟨?_, ih hletters.2⟩
      rintro rfl
      simp [hletter] at hletters

/-- The words differ in their first letters, so a text starts with one label at most. -/
theorem unique (h : IsLabel label) (h' : IsLabel label') (heq : label ++ rest = label' ++ rest') :
    label = label' ∧ rest = rest' := by
  have hascii : ∀ word ∈ quoteLabels, word.head?.all (·.toNat < 128) = true := by decide
  have hheads : ∀ word ∈ quoteLabels, ∀ word' ∈ quoteLabels, word.head? = word'.head? →
      word.length = word'.length := by decide
  obtain ⟨letter, word, c, others, hword, hletter, rfl, hlength⟩ := h.exists_cons
  obtain ⟨letter', word', c', others', hword', hletter', rfl, hlength'⟩ := h'.exists_cons
  obtain rfl : c = c' := (List.cons.inj heq).1
  have hsame : letter = letter' := eq_of_sameLetter (by simpa using hascii _ hword)
    (by simpa using hascii _ hword') hletter hletter'
  have hwords := hheads _ hword _ hword' (congrArg some hsame)
  simp only [List.length_cons] at hwords
  exact List.append_inj heq (by simp only [List.length_cons]; omega)

end IsLabel

/-- **A label is taken off a text that starts with it.** -/
theorem takeLabel?_eq_some_iff {cs label rest : List Char} :
    takeLabel? cs = some (label, rest) ↔ IsLabel label ∧ cs = label ++ rest := by
  have hsome {label rest : List Char} (h : takeLabel? cs = some (label, rest)) :
      IsLabel label ∧ cs = label ++ rest := by
    obtain ⟨word, hword, hmap⟩ := List.exists_of_findSome?_eq_some h
    obtain ⟨after, hafter, heq⟩ := Option.map_eq_some_iff.mp hmap
    obtain ⟨other, hother, rfl⟩ := dropWord?_eq_some_iff.mp hafter
    rw [hother.length_eq, List.take_left, Prod.mk.injEq] at heq
    obtain ⟨rfl, rfl⟩ := heq
    exact ⟨⟨word, hword, hother⟩, rfl⟩
  refine ⟨hsome, ?_⟩
  rintro ⟨hlabel, hcs⟩
  cases htake : takeLabel? cs with
  | none =>
      obtain ⟨word, hword, hsame⟩ := hlabel
      have hnone := List.findSome?_eq_none_iff.mp htake word hword
      rw [dropWord?_eq_some_iff.mpr ⟨label, hsame, hcs⟩] at hnone
      cases hnone
  | some taken =>
      obtain ⟨label', rest'⟩ := taken
      obtain ⟨hlabel', hcs'⟩ := hsome htake
      obtain ⟨rfl, rfl⟩ := hlabel.unique hlabel' (hcs.symm.trans hcs')
      rfl

/-- What stands in front of a label: three spaces at most, the quotation mark, and a space or a tab
if there is one. -/
def IsQuoteMark (mark : List Char) : Prop :=
  ∃ n ≤ 3, ∃ gap, (gap = [] ∨ gap = [' '] ∨ gap = ['\t']) ∧
    mark = List.replicate n ' ' ++ '>' :: gap

/-- A line with a label: the label stands behind the mark, a colon behind the label, and the text
behind the spaces and tabs that follow. -/
structure Labelled (line mark label text : List Char) : Prop where
  isMark : IsQuoteMark mark
  isLabel : IsLabel label
  eq_append : ∃ gap, (∀ c ∈ gap, isGap c = true) ∧ line = mark ++ label ++ ':' :: (gap ++ text)
  head_text : ∀ c ∈ text.head?, isGap c = false

/-- A space or a tab in front of a text belongs to the quotation mark before it. -/
private theorem eq_of_takeGap {m gap rest mark rest' : List Char}
    (hgap : gap = [] ∨ gap = [' '] ∨ gap = ['\t']) (hrest : ∀ c ∈ rest.head?, isGap c = false)
    (h : (match gap ++ rest with
      | ' ' :: more => (m ++ [' '], more)
      | '\t' :: more => (m ++ ['\t'], more)
      | _ => (m, gap ++ rest)) = (mark, rest')) : mark = m ++ gap ∧ rest' = rest := by
  rcases hgap with rfl | rfl | rfl
  · rw [List.nil_append] at h
    split at h
    · exact absurd (hrest ' ' rfl) (by decide)
    · exact absurd (hrest '\t' rfl) (by decide)
    · cases h
      exact ⟨(List.append_nil _).symm, rfl⟩
  · cases h
    exact ⟨rfl, rfl⟩
  · cases h
    exact ⟨rfl, rfl⟩

/-- Behind a quotation mark the label decides. -/
theorem markLabel?_append {mark rest : List Char} (hmark : IsQuoteMark mark)
    (hrest : ∀ c ∈ rest.head?, isGap c = false) :
    (∀ label body, takeLabel? rest = some (label, ':' :: body) → markLabel? (mark ++ rest) =
      some (trimEnd (mark ++ "[!".toList ++ upper label ++ "] ".toList ++ body.dropWhile isGap))) ∧
    (takeLabel? rest = none → markLabel? (mark ++ rest) = none) := by
  obtain ⟨n, hn, gap, hgap, rfl⟩ := hmark
  have hquote : takeQuoteMark? (List.replicate n ' ' ++ '>' :: gap ++ rest) =
      some (List.replicate n ' ' ++ ['>'], gap ++ rest) :=
    takeQuoteMark?_eq_some_iff.mpr ⟨n, hn, rfl, by simp⟩
  fun_cases markLabel? (List.replicate n ' ' ++ '>' :: gap ++ rest) with
  | case1 hnone => exact absurd (hnone.symm.trans hquote) nofun
  | case2 m rest' hsome mark' rest'' htaken label body hlabel =>
      rw [hquote] at hsome
      cases hsome
      obtain ⟨rfl, rfl⟩ := eq_of_takeGap hgap hrest htaken
      rw [hlabel]
      refine ⟨?_, nofun⟩
      rintro _ _ heq
      cases heq
      simp
  | case3 m rest' hsome mark' rest'' htaken hnone =>
      rw [hquote] at hsome
      cases hsome
      obtain ⟨rfl, rfl⟩ := eq_of_takeGap hgap hrest htaken
      exact ⟨fun label body hlabel => absurd hlabel (hnone label body), fun _ => rfl⟩

/-- Spaces and tabs are dropped in front of a text that does not start with one. -/
private theorem dropWhile_gap {gap text : List Char} (hgap : ∀ c ∈ gap, isGap c = true)
    (htext : ∀ c ∈ text.head?, isGap c = false) : (gap ++ text).dropWhile isGap = text := by
  rw [List.dropWhile_append_of_pos hgap]
  cases text with
  | nil => rfl
  | cons c text => exact List.dropWhile_cons_of_neg (by simp [htext c rfl])

/-- **A label becomes a marker.** -/
theorem Labelled.markLabel? {mark label text : List Char} (h : Labelled line mark label text) :
    markLabel? line =
      some (trimEnd (mark ++ "[!".toList ++ upper label ++ "] ".toList ++ text)) := by
  obtain ⟨hmark, hlabel, ⟨gap, hgap, rfl⟩, htext⟩ := h
  have htake : takeLabel? (label ++ ':' :: (gap ++ text)) = some (label, ':' :: (gap ++ text)) :=
    takeLabel?_eq_some_iff.mpr ⟨hlabel, rfl⟩
  have hhead : ∀ c ∈ (label ++ ':' :: (gap ++ text)).head?, isGap c = false := by
    intro c hc
    obtain ⟨_, _, first, others, _, _, rfl, _⟩ := hlabel.exists_cons
    obtain rfl : first = c := by simpa using hc
    rw [isGap, Bool.or_eq_false_iff, beq_eq_false_iff_ne, beq_eq_false_iff_ne]
    constructor <;> rintro rfl
    · exact hlabel.not_mem (by decide) List.mem_cons_self
    · exact hlabel.not_mem (by decide) List.mem_cons_self
  rw [List.append_assoc, (markLabel?_append hmark hhead).1 label _ htake, dropWhile_gap hgap htext]

/-- A line that is rewritten has a label. -/
theorem exists_labelled (h : markLabel? line = some marked) :
    ∃ mark label text, Labelled line mark label text := by
  revert h
  fun_cases markLabel? line with
  | case1 => nofun
  | case2 mark rest hquote mark' rest' htaken label body hlabel =>
      intro _
      obtain ⟨n, hn, rfl, rfl⟩ := takeQuoteMark?_eq_some_iff.mp hquote
      obtain ⟨hisLabel, rfl⟩ := takeLabel?_eq_some_iff.mp hlabel
      obtain ⟨gap, hgap, rfl⟩ : ∃ gap, (gap = [] ∨ gap = [' '] ∨ gap = ['\t']) ∧
          rest = gap ++ (label ++ ':' :: body) := by
        split at htaken <;> cases htaken
        · exact ⟨[' '], by simp, rfl⟩
        · exact ⟨['\t'], by simp, rfl⟩
        · exact ⟨[], by simp, rfl⟩
      exact ⟨List.replicate n ' ' ++ '>' :: gap, label, body.dropWhile isGap, {
        isMark := ⟨n, hn, gap, hgap, rfl⟩
        isLabel := hisLabel
        eq_append := ⟨body.takeWhile isGap, List.all_eq_true.mp List.all_takeWhile, by
          rw [List.takeWhile_append_dropWhile]
          simp⟩
        head_text := fun c hc => by
          have hhead := List.head?_dropWhile_not isGap body
          rwa [Option.mem_def.mp hc] at hhead }⟩
  | case3 => nofun

/-- **A rewritten line keeps its mark and its content; its label, which has no dot, becomes a
marker.** -/
theorem markLabel?_eq_some (h : markLabel? line = some marked) :
    ∃ mark label body, line = mark ++ label ++ ':' :: body ∧ '.' ∉ label ∧
      (∃ indent after, mark = indent ++ '>' :: after ∧ ∀ c ∈ indent, c = ' ') ∧
      marked = trimEnd (mark ++ "[!".toList ++ upper label ++ "] ".toList ++ body.dropWhile isGap) := by
  obtain ⟨mark, label, text, hlabelled⟩ := exists_labelled h
  have hmarked := h.symm.trans hlabelled.markLabel?
  obtain ⟨⟨n, -, gap, -, rfl⟩, hlabel, ⟨gap', hgap', hline⟩, htext⟩ := hlabelled
  refine ⟨_, label, gap' ++ text, hline, hlabel.not_mem (by decide),
    ⟨_, gap, rfl, fun c hc => List.eq_of_mem_replicate hc⟩, ?_⟩
  rw [dropWhile_gap hgap' htext]
  exact Option.some.inj hmarked

/-- A rewritten line starts with a quotation mark after spaces, as the line that it comes from. -/
theorem markLabel?_mark (h : markLabel? line = some marked) :
    ∃ indent, (∀ c ∈ indent, c = ' ') ∧ (∃ more, marked = indent ++ '>' :: more) ∧
      ∃ more, line = indent ++ '>' :: more := by
  obtain ⟨mark, label, body, hline, -, ⟨indent, after, hmark, hindent⟩, hmarked⟩ :=
    markLabel?_eq_some h
  have hmark' : ∀ cs, mark ++ cs = indent ++ '>' :: (after ++ cs) := by
    intro cs
    rw [hmark, List.append_assoc, List.cons_append]
  refine ⟨indent, hindent, ?_, ?_⟩
  · rw [hmarked, List.append_assoc, List.append_assoc, List.append_assoc, hmark', trimEnd,
      dropEndWhile_append_cons (by decide)]
    exact ⟨_, rfl⟩
  · rw [hline, List.append_assoc, hmark']
    exact ⟨_, rfl⟩

/-- A rewritten line starts as before, and neither it nor the line it comes from is blank. -/
theorem markLabel?_start (h : markLabel? line = some marked) :
    marked.head? = line.head? ∧ allBlank marked = false ∧ allBlank line = false := by
  obtain ⟨indent, -, ⟨more, rfl⟩, ⟨more', rfl⟩⟩ := markLabel?_mark h
  have hblank : isBlank '>' = false := by decide
  refine ⟨?_, ?_, ?_⟩
  · cases indent <;> rfl
  · simp [allBlank, hblank]
  · simp [allBlank, hblank]

/-- Rewriting a line adds no newline. -/
theorem newline_not_mem_markLabel? (h : markLabel? line = some marked) (hline : '\n' ∉ line) :
    '\n' ∉ marked := by
  obtain ⟨mark, label, body, rfl, -, -, rfl⟩ := markLabel?_eq_some h
  simp only [List.mem_append, List.mem_cons, not_or] at hline
  intro hmem
  have hmem := (prefix_dropEndWhile _ _).subset hmem
  simp only [List.mem_append] at hmem
  rcases hmem with (((hmark | hopen) | hlabel) | hclose) | hbody
  · exact hline.1.1 hmark
  · revert hopen; decide
  · exact hline.1.2 (mem_of_mem_upper (by decide) (by decide) hlabel)
  · revert hclose; decide
  · exact hline.2.2 ((List.dropWhile_sublist _).subset hbody)

/-- Rewriting a line adds no name. -/
theorem markLabel?_drawn (h : markLabel? line = some marked) : DrawnFrom line marked := by
  obtain ⟨mark, label, body, rfl, hdot, -, rfl⟩ := markLabel?_eq_some h
  have hmark : DrawnFrom (mark ++ label ++ ':' :: body) mark := by
    refine .of_isPrefix (.refl _) ?_
    rw [List.append_assoc]
    exact List.prefix_append _ _
  have hbody : DrawnFrom (mark ++ label ++ ':' :: body) (body.dropWhile isGap) :=
    .of_isSuffix (.refl _) ((List.dropWhile_suffix _).trans
      ((List.suffix_cons ':' body).trans (List.suffix_append _ _)))
  have hupper : '.' ∉ upper label := fun hmem =>
    hdot (mem_of_mem_upper (by decide) (by decide) hmem)
  have hlabel := DrawnFrom.append_cons (c := ']') (by decide) (.of_dot_not_mem hupper)
    (hbody.cons (c := ' ') (by decide))
  have hall := DrawnFrom.append_cons (c := '[') (by decide) hmark
    (hlabel.cons (c := '!') (by decide))
  refine DrawnFrom.of_isPrefix ?_ (prefix_dropEndWhile _ _)
  simpa using hall

/-! ## Texts -/

theorem markLabels_ne_nil {ls : List (List Char)} (h : ls ≠ []) (afterQuoted : Bool) :
    markLabels afterQuoted ls ≠ [] := by
  cases ls with
  | nil => exact absurd rfl h
  | cons line rest => simp [markLabels]

theorem length_markLabels (ls : List (List Char)) (afterQuoted : Bool) :
    (markLabels afterQuoted ls).length = ls.length := by
  induction ls generalizing afterQuoted with
  | nil => rfl
  | cons line rest ih => rw [markLabels, List.length_cons, List.length_cons, ih]

theorem newline_not_mem_markLabels {ls : List (List Char)} (h : ∀ line ∈ ls, '\n' ∉ line)
    (afterQuoted : Bool) : ∀ line ∈ markLabels afterQuoted ls, '\n' ∉ line := by
  induction ls generalizing afterQuoted with
  | nil => nofun
  | cons line rest ih =>
      intro marked hmarked
      have hline := h line (by simp)
      rcases List.mem_cons.mp hmarked with rfl | hrest
      · split
        · exact hline
        · cases hnew : markLabel? line with
          | none => exact hline
          | some new => exact newline_not_mem_markLabel? hnew hline
      · exact ih (fun l hl => h l (by simp [hl])) _ marked hrest

/-- Whether the line before a line is quoted, `afterQuoted` telling it of the first one. -/
def quotedBefore (afterQuoted : Bool) (ls : List (List Char)) : Nat → Bool
  | 0 => afterQuoted
  | k + 1 => ls[k]?.any isQuoted

/-- **Lines are rewritten one by one**, but for those behind a quoted line. -/
theorem getElem?_markLabels_eq (afterQuoted : Bool) (ls : List (List Char)) (k : Nat) :
    (markLabels afterQuoted ls)[k]? = ls[k]?.map fun line =>
      if quotedBefore afterQuoted ls k then line else (markLabel? line).getD line := by
  induction ls generalizing afterQuoted k with
  | nil => rfl
  | cons line rest ih =>
      cases k with
      | zero => rfl
      | succ k =>
          rw [markLabels, List.getElem?_cons_succ, List.getElem?_cons_succ, ih]
          cases k <;> rfl

/-- Lines keep their numbers. -/
theorem getElem?_markLabels {ls : List (List Char)} {k : Nat} {afterQuoted : Bool}
    (h : (markLabels afterQuoted ls)[k]? = some marked) :
    ∃ line, ls[k]? = some line ∧ (marked = line ∨ markLabel? line = some marked) := by
  rw [getElem?_markLabels_eq] at h
  obtain ⟨line, hline, rfl⟩ := Option.map_eq_some_iff.mp h
  refine ⟨line, hline, ?_⟩
  split
  · exact .inl rfl
  · cases markLabel? line with
    | none => exact .inl rfl
    | some new => exact .inr rfl

theorem markLabels_drawn {source : List Char} {ls : List (List Char)}
    (h : ∀ line ∈ ls, DrawnFrom source line) (afterQuoted : Bool) :
    ∀ line ∈ markLabels afterQuoted ls, DrawnFrom source line := by
  intro marked hmarked
  obtain ⟨k, hk⟩ := List.mem_iff_getElem?.mp hmarked
  obtain ⟨line, hline, rfl | hnew⟩ := getElem?_markLabels hk
  · exact h marked (List.mem_of_getElem? hline)
  · exact (h line (List.mem_of_getElem? hline)).trans (markLabel?_drawn hnew)

/-- **The lines of a text whose labels are rewritten are its lines, rewritten.** -/
theorem lines_normalizeQuotes (cs : List Char) :
    lines (normalizeQuotes cs) = markLabels false (lines cs) :=
  lines_unlines (markLabels_ne_nil (lines_ne_nil cs) false)
    (newline_not_mem_markLabels (fun _ hl => newline_not_mem_of_mem_lines hl) false)

/-- **A line that is not quoted divides the lines to rewrite**: it stays as it is, and the lines
after it are rewritten as if nothing stood before them. -/
theorem markLabels_append_cons (h : takeQuoteMark? line = none) (before after : List (List Char))
    (afterQuoted : Bool) :
    markLabels afterQuoted (before ++ line :: after) =
      markLabels afterQuoted before ++ line :: markLabels false after := by
  induction before generalizing afterQuoted with
  | nil =>
      simp only [List.nil_append, markLabels, markLabel?_eq_none h, isQuoted_eq_false h,
        Option.getD_none, ite_self]
  | cons first before ih =>
      rw [List.cons_append, markLabels, markLabels, ih]
      rfl

/-- Lines of which none is quoted stay as they are. -/
theorem markLabels_of_unquoted {ls : List (List Char)} (h : ∀ line ∈ ls, takeQuoteMark? line = none)
    (afterQuoted : Bool) : markLabels afterQuoted ls = ls := by
  induction ls generalizing afterQuoted with
  | nil => rfl
  | cons line rest ih =>
      rw [markLabels, markLabel?_eq_none (h line (by simp)),
        ih fun l hl => h l (by simp [hl])]
      simp

/-- The first line that is not blank starts as before. -/
theorem head?_find?_markLabels (ls : List (List Char)) (afterQuoted : Bool) :
    ((markLabels afterQuoted ls).find? fun l => !allBlank l).map List.head? =
      (ls.find? fun l => !allBlank l).map List.head? := by
  induction ls generalizing afterQuoted with
  | nil => rfl
  | cons line rest ih =>
      have hline : (if afterQuoted then line else (markLabel? line).getD line).head? = line.head? ∧
          allBlank (if afterQuoted then line else (markLabel? line).getD line) = allBlank line := by
        split
        · exact ⟨rfl, rfl⟩
        · cases hnew : markLabel? line with
          | none => exact ⟨rfl, rfl⟩
          | some new =>
              obtain ⟨hhead, hnewBlank, hlineBlank⟩ := markLabel?_start hnew
              exact ⟨hhead, hnewBlank.trans hlineBlank.symm⟩
      rw [markLabels, List.find?_cons, List.find?_cons, hline.2]
      cases allBlank line with
      | true => exact ih _
      | false => exact congrArg some hline.1

/-! ## What is rewritten -/

variable {mark label text : List Char} {ls : List (List Char)} {k : Nat}

/-- The line before this one is quoted. -/
def FollowsQuoted (ls : List (List Char)) (k : Nat) : Prop :=
  ∃ j before, k = j + 1 ∧ ls[j]? = some before ∧ Quoted before

theorem quotedBefore_iff : quotedBefore false ls k = true ↔ FollowsQuoted ls k := by
  cases k with
  | zero => exact ⟨nofun, fun ⟨_, _, h, _⟩ => absurd h (by omega)⟩
  | succ k =>
      rw [quotedBefore, Option.any_eq_true]
      constructor
      · rintro ⟨before, hbefore, hquoted⟩
        exact ⟨k, before, rfl, hbefore, isQuoted_iff.mp hquoted⟩
      · rintro ⟨j, before, hj, hbefore, hquoted⟩
        obtain rfl : k = j := by omega
        exact ⟨before, hbefore, isQuoted_iff.mpr hquoted⟩

theorem Labelled.quoted (h : Labelled line mark label text) : Quoted line := by
  obtain ⟨⟨n, hn, gap, -, rfl⟩, -, ⟨gap', -, rfl⟩, -⟩ := h
  exact ⟨n, hn, gap ++ label ++ ':' :: (gap' ++ text), by simp⟩

/-- **What a line with a label is rewritten into**: the marker stands in place of the label, and
white space at the end is dropped. -/
theorem Labelled.markLabel?_eq (h : Labelled line mark label text) :
    Document.markLabel? line = some (mark ++ quoteMarker (upper label) ++ trimEnd (' ' :: text)) := by
  have htext : mark ++ "[!".toList ++ upper label ++ "] ".toList ++ text =
      mark ++ quoteMarker (upper label) ++ ' ' :: text := by simp [quoteMarker]
  rw [h.markLabel?, htext, trimEnd_quoteMarker]

/-- **A rewritten line is quoted as before and carries no label.** -/
theorem rewritten_spec (h : markLabel? line = some marked) :
    marked ≠ line ∧ isQuoted marked = isQuoted line ∧ markLabel? marked = none := by
  obtain ⟨mark, label, text, hlabelled⟩ := exists_labelled h
  obtain rfl := Option.some.inj (h.symm.trans hlabelled.markLabel?_eq)
  -- The marker starts with a bracket, which is no letter of a label.
  have hbracket (rest : List Char) : takeLabel? ('[' :: rest) = none := by
    rw [Option.eq_none_iff_forall_ne_some]
    rintro ⟨label, rest'⟩ htake
    obtain ⟨hlabel, hsplit⟩ := takeLabel?_eq_some_iff.mp htake
    obtain ⟨_, _, c, others, _, _, rfl, _⟩ := hlabel.exists_cons
    obtain rfl : '[' = c := (List.cons.inj hsplit).1
    exact hlabel.not_mem (by decide) List.mem_cons_self
  have hmarked : mark ++ quoteMarker (upper label) ++ trimEnd (' ' :: text) =
      mark ++ '[' :: ('!' :: upper label ++ ']' :: trimEnd (' ' :: text)) := by
    simp [quoteMarker]
  have hnone : markLabel? (mark ++ '[' :: ('!' :: upper label ++ ']' :: trimEnd (' ' :: text))) =
      none := (markLabel?_append hlabelled.isMark fun c hc => by
        obtain rfl : '[' = c := by simpa using hc
        decide).2 (hbracket _)
  rw [hmarked]
  refine ⟨?_, ?_, hnone⟩
  · rintro heq
    rw [heq, h] at hnone
    cases hnone
  · rw [isQuoted_iff.mpr hlabelled.quoted, isQuoted_iff]
    obtain ⟨n, hn, gap, -, rfl⟩ := hlabelled.isMark
    exact ⟨n, hn, _, by rw [List.append_assoc, List.cons_append]⟩

/-- A line is rewritten where it carries a label. -/
theorem markLabel?_isSome_iff :
    (markLabel? line).isSome = true ↔ ∃ mark label text, Labelled line mark label text := by
  rw [Option.isSome_iff_exists]
  constructor
  · rintro ⟨marked, h⟩
    exact exists_labelled h
  · rintro ⟨mark, label, text, h⟩
    exact ⟨_, h.markLabel?⟩

/-- **Rewriting labels twice is rewriting them once.** -/
theorem markLabels_markLabels (ls : List (List Char)) (afterQuoted : Bool) :
    markLabels afterQuoted (markLabels afterQuoted ls) = markLabels afterQuoted ls := by
  induction ls generalizing afterQuoted with
  | nil => rfl
  | cons line rest ih =>
      rw [markLabels, markLabels]
      cases hmarked : markLabel? line with
      | none => simp only [Option.getD_none, ite_self, hmarked, ih]
      | some marked =>
          -- The line is quoted as before, so what follows it is told apart as before.
          obtain ⟨-, hquoted, hagain⟩ := rewritten_spec hmarked
          cases afterQuoted with
          | true => simp only [if_true, ih]
          | false => simp [hquoted, hagain, ih]

/-- **Rewriting labels keeps the lines and does its work at once.**  A text has as many lines as
before.  A line is changed exactly if it is quoted, does not follow a quoted line and carries a label;
then it is what stands in front of the label, the marker, and the text behind the label without white
space at the end.  Rewriting once more changes nothing. -/
theorem normalizeQuotes_normal (cs : List Char) :
    (lines (normalizeQuotes cs)).length = (lines cs).length ∧
    (∀ (k : Nat) (before after : List Char), (lines cs)[k]? = some before →
      (lines (normalizeQuotes cs))[k]? = some after →
        (after ≠ before ↔ Quoted before ∧ ¬FollowsQuoted (lines cs) k ∧
          ∃ mark label text, Labelled before mark label text) ∧
        (after ≠ before → ∀ mark label text, Labelled before mark label text →
          after = mark ++ quoteMarker (upper label) ++ trimEnd (' ' :: text))) ∧
    normalizeQuotes (normalizeQuotes cs) = normalizeQuotes cs := by
  rw [lines_normalizeQuotes]
  refine ⟨length_markLabels _ false, fun k before after hbefore hafter => ?_, ?_⟩
  · rw [getElem?_markLabels_eq, hbefore, Option.map_some, Option.some.injEq] at hafter
    subst hafter
    rw [← quotedBefore_iff]
    by_cases hquoted : quotedBefore false (lines cs) k = true
    · simp [hquoted]
    · rw [if_neg hquoted]
      cases hmarked : markLabel? before with
      | none =>
          have hnone : ¬∃ mark label text, Labelled before mark label text := by
            rw [← markLabel?_isSome_iff, hmarked]
            exact Bool.false_ne_true
          simp [hnone]
      | some marked =>
          obtain ⟨hchanged, -, -⟩ := rewritten_spec hmarked
          obtain ⟨mark, label, text, hlabelled⟩ := exists_labelled hmarked
          refine ⟨⟨fun _ => ⟨hlabelled.quoted, hquoted, mark, label, text, hlabelled⟩,
            fun _ => hchanged⟩, fun _ mark label text hlabelled => ?_⟩
          exact Option.some.inj (hmarked.symm.trans hlabelled.markLabel?_eq)
  · rw [normalizeQuotes, lines_normalizeQuotes, markLabels_markLabels]
    rfl

/-- A label with spaces around its text, and a second line that would have a label of its own. -/
theorem normalizeQuotes_normal_first :
    (lines "> Tip:  a \n> Note: b".toList)[0]? = some "> Tip:  a ".toList ∧
      (lines (normalizeQuotes "> Tip:  a \n> Note: b".toList))[0]? = some "> [!TIP] a".toList ∧
      Labelled "> Tip:  a ".toList "> ".toList "Tip".toList "a ".toList ∧
      "> [!TIP] a".toList ≠ "> Tip:  a ".toList ∧
      "> [!TIP] a".toList =
        "> ".toList ++ quoteMarker (upper "Tip".toList) ++ trimEnd (' ' :: "a ".toList) ∧
      FollowsQuoted (lines "> Tip:  a \n> Note: b".toList) 1 ∧
      (lines (normalizeQuotes "> Tip:  a \n> Note: b".toList))[1]? = some "> Note: b".toList := by
  have hbefore : (lines "> Tip:  a \n> Note: b".toList)[0]? = some "> Tip:  a ".toList := by decide
  have hafter : (lines (normalizeQuotes "> Tip:  a \n> Note: b".toList))[0]? =
      some "> [!TIP] a".toList := by decide +kernel
  have hlabelled : Labelled "> Tip:  a ".toList "> ".toList "Tip".toList "a ".toList := {
    isMark := ⟨0, by decide, [' '], by simp, rfl⟩
    isLabel := ⟨"tip".toList, by decide, .cons rfl (.cons rfl (.cons rfl .nil))⟩
    eq_append := ⟨[' ', ' '], List.all_eq_true.mp rfl, rfl⟩
    head_text := by
      rintro c ⟨⟩
      rfl }
  have hchanged : "> [!TIP] a".toList ≠ "> Tip:  a ".toList := by decide
  obtain ⟨-, hlines, -⟩ := normalizeQuotes_normal "> Tip:  a \n> Note: b".toList
  obtain ⟨-, hkeeps⟩ := hlines 0 _ _ hbefore hafter
  exact ⟨hbefore, hafter, hlabelled, hchanged, hkeeps hchanged _ _ _ hlabelled,
    ⟨0, _, rfl, hbefore, 0, by decide, _, rfl⟩, by decide +kernel⟩

end Livedoc.Document
