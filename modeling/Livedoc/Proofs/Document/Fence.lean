import Livedoc.Proofs.Document.Segment
import Livedoc.Proofs.Markdown.Fence

/-!
# Fences for the segments and for Markdown

Fences are recognised twice: where a document is divided into segments, and where Markdown is
read.  Both find the same marks of an opening fence (`openedFence?_eq`), and a line that closes a
fence for Markdown closes it for the segments (`closesFence_of_closedBy`).  The converse fails,
because the division looks at the trimmed line: marks indented by four spaces close every fence
there and none in Markdown (`closesFence_indented`), and a call after them is torn out of the
code (`call_mem_segments_endsInCode`).  Where no line does so, and no block of another kind
hides a fence, both agree (`call_mem_segments_iff_not_endsInCode`).
-/

namespace Livedoc.Document

open Livedoc.Call Livedoc.Markdown Livedoc.Text

variable {line : List Char} {f : Fence}

/-! ## Single lines -/

/-- **Segments and Markdown know the same opening fences.** -/
theorem openedFence?_eq (line : List Char) :
    openedFence? line = (fence? 3 line).map Fence.marks := by
  unfold openedFence? fence? dropIndent?
  dsimp only
  rw [← indentOf]
  by_cases hindent : indentOf line ≤ 3
  · rw [if_pos hindent]
    cases hbody : line.drop (indentOf line) with
    | nil => rfl
    | cons mark rest =>
        have hmarks : mark :: rest.takeWhile (· == mark) = (mark :: rest).takeWhile (· == mark) := by
          simp
        have hreplicate : (mark :: rest).takeWhile (· == mark) =
            List.replicate ((mark :: rest).takeWhile (· == mark)).length mark :=
          List.eq_replicate_iff.mpr ⟨rfl, fun c hc => by simpa using List.mem_takeWhile_imp hc⟩
        dsimp only
        rw [hmarks]
        generalize (mark :: rest).takeWhile (· == mark) = marks at hreplicate
        rw [decide_eq_true hindent, Bool.true_and, ← backtick]
        cases mark == backtick || mark == '~' with
        | false => rfl
        | true =>
            by_cases hsize : marks.length ≥ 3
            · rw [decide_eq_true hsize, if_pos rfl, if_pos hsize]
              exact congrArg some hreplicate
            · rw [decide_eq_false hsize, if_pos rfl, if_neg hsize]
              rfl
  · rw [if_neg hindent]
    split
    · rfl
    · simp [hindent]

/-- A line that consists of enough marks, white space around them apart, closes a fence for the
segments. -/
private theorem closesFence_of_trim (hsize : 3 ≤ f.size) {n : Nat} (hlong : f.size ≤ n)
    (htrim : trim line = List.replicate n f.mark) : closesFence f.marks line = true := by
  have hhead : f.marks.head? = some f.mark := by
    rw [Fence.marks, List.head?_replicate, if_neg (by omega)]
  rw [closesFence, htrim, hhead, Bool.and_eq_true]
  constructor
  · rw [List.isPrefixOf_iff_prefix, Fence.marks]
    refine ⟨List.replicate (n - f.size) f.mark, ?_⟩
    rw [List.replicate_append_replicate, Nat.add_sub_cancel' hlong]
  · simp

/-- **A line that closes a fence for Markdown closes it for the segments.** -/
theorem closesFence_of_closedBy (hsize : 3 ≤ f.size) (hmark : f.mark = backtick ∨ f.mark = '~')
    (h : f.closedBy line = true) : closesFence f.marks line = true := by
  unfold Fence.closedBy at h
  split at h
  · next indent body hline =>
      dsimp only at h
      rw [drop_length_takeWhile, Bool.and_eq_true, decide_eq_true_eq, List.all_eq_true] at h
      obtain ⟨hlong, hgaps⟩ := h
      have hreplicate : body.takeWhile (· == f.mark) =
          List.replicate (body.takeWhile (· == f.mark)).length f.mark :=
        List.eq_replicate_iff.mpr ⟨rfl, fun c hc => by simpa using List.mem_takeWhile_imp hc⟩
      generalize (body.takeWhile (· == f.mark)).length = n at hlong hreplicate
      obtain ⟨n, rfl⟩ : ∃ m, n = m + 1 := ⟨n - 1, by omega⟩
      have htrim : trim line = List.replicate (n + 1) f.mark := by
        rw [(dropIndent?_eq_some hline).2, ← List.takeWhile_append_dropWhile (p := (· == f.mark)) (l := body),
          hreplicate]
        refine trimWhile_append_replicate (mark_not_blank hmark).1 ?_ ?_ n
        · intro c hc
          rw [List.eq_of_mem_replicate hc]
          decide
        · intro c hc
          rcases Bool.or_eq_true_iff.mp (hgaps c hc) with hc | hc <;>
            (rw [beq_iff_eq] at hc; subst hc; decide)
      exact closesFence_of_trim hsize hlong htrim
  · cases h

/-- **The converse fails for every fence**: marks indented by four spaces close it for the
segments and not for Markdown. -/
theorem closesFence_indented (hsize : 3 ≤ f.size) (hmark : f.mark = backtick ∨ f.mark = '~') :
    closesFence f.marks (spaces 4 ++ f.marks) = true ∧ f.closedBy (spaces 4 ++ f.marks) = false := by
  constructor
  · refine closesFence_of_trim hsize (Nat.le_refl f.size) ?_
    obtain ⟨n, hn⟩ : ∃ n, f.size = n + 1 := ⟨f.size - 1, by omega⟩
    have hblank : ∀ c ∈ spaces 4, isBlank c = true := fun c hc => by
      rw [List.eq_of_mem_replicate hc]
      decide
    have htrim := trimWhile_append_replicate (mark_not_blank hmark).1 hblank
      (fun c (hc : c ∈ []) => by cases hc) n
    rwa [List.append_nil, ← hn] at htrim
  · have hindent : dropIndent? 3 (spaces 4 ++ f.marks) = none := by
      have hstart : spaces 4 <+: (spaces 4 ++ f.marks).takeWhile (· == ' ') := by
        rw [List.takeWhile_append_of_pos (by simp [spaces])]
        exact List.prefix_append _ _
      have hwidth : 4 ≤ indentOf (spaces 4 ++ f.marks) := hstart.length_le
      rw [dropIndent?, if_neg (Nat.not_le.mpr hwidth)]
    rw [Fence.closedBy, hindent]

/-! ## Lines one after the other -/

/-- A line that does not start with a point starts no block call. -/
theorem blockCall?_of_head?_ne (h : line.head? ≠ some '.') (number : Nat)
    (rest : List (List Char)) : blockCall? number line rest = none := by
  cases hhead : headAt? 0 line with
  | none => rw [blockCall?, hhead]
  | some head =>
      obtain ⟨rest, rfl⟩ := headAt?_dot hhead
      exact absurd rfl h

/-- Whether a line that closes the fence open before it for the segments closes it for Markdown. -/
def closesAlike : Option Fence → List Char → Bool
  | none, _ => true
  | some f, line => !closesFence f.marks line || f.closedBy line

/-- **The same fence is open after lines without calls that close fences alike.** -/
theorem fenceAfter_eq_openAfter {ls : List (List Char)} (hdots : ∀ l ∈ ls, l.head? ≠ some '.')
    {fence : Option Fence}
    (hmarks : ∀ f ∈ fence, 3 ≤ f.size ∧ (f.mark = backtick ∨ f.mark = '~'))
    (halike : ∀ p ∈ withFences fence (plainLines ls), closesAlike p.1 p.2 = true) :
    fenceAfter (fence.map Fence.marks) 0 ls = (openAfter fence (plainLines ls)).map Fence.marks := by
  induction ls generalizing fence with
  | nil =>
      cases fence <;> rfl
  | cons line rest ih =>
      have hrest : ∀ l ∈ rest, l.head? ≠ some '.' := fun l hl => hdots l (by simp [hl])
      have hrestAlike : ∀ p ∈ withFences (fenceAfterLine fence line) (plainLines rest),
          closesAlike p.1 p.2 = true := fun p hp => halike p (List.mem_cons_of_mem _ hp)
      have hline : closesAlike fence line = true := halike (fence, line) List.mem_cons_self
      cases fence with
      | none =>
          have hnext := ih hrest (fun f hf => ⟨(fence?_eq_some hf).1, (fence?_eq_some hf).2.1⟩) hrestAlike
          show fenceAfter none 0 (line :: rest) = (openAfter (fence? 3 line) (plainLines rest)).map _
          rw [fenceAfter, openedFence?_eq, blockCall?_of_head?_ne (hdots line List.mem_cons_self)]
          change fenceAfter ((fence? 3 line).map Fence.marks) 0 rest = _ at hnext
          rw [← hnext]
          cases fence? 3 line <;> rfl
      | some f =>
          obtain ⟨hsize, hmark⟩ := hmarks f rfl
          have hcloses : closesFence f.marks line = f.closedBy line := by
            rw [Bool.eq_iff_iff]
            refine ⟨fun h => ?_, closesFence_of_closedBy hsize hmark⟩
            simpa [closesAlike, h] using hline
          have hnext := ih hrest (fun g hg => ?_) hrestAlike
          · show fenceAfter (some f.marks) 0 (line :: rest) =
              (openAfter (fenceAfterLine (some f) line) (plainLines rest)).map _
            rw [fenceAfter, hcloses, ← hnext, fenceAfterLine]
            split <;> rfl
          · rw [fenceAfterLine] at hg
            split at hg
            · cases hg
            · cases hg
              exact ⟨hsize, hmark⟩

/-! ## A call at the end -/

/-- Lines after which a fence is open hold no call, if none of them starts with a point. -/
private theorem call_not_mem_segmentsFrom {before : List (List Char)}
    (hdots : ∀ l ∈ before, l.head? ≠ some '.') {fence : Option (List Char)} {marks : List Char}
    (hopen : fenceAfter fence 0 before = some marks) (pending : List (List Char)) (number : Nat)
    (c : BlockCall) : Segment.call c ∉ segmentsFrom fence pending number 0 (before ++ [line]) := by
  have hbefore : ∀ p n, Segment.call c ∉ markdownBefore p n := by
    intro p n
    unfold markdownBefore
    split <;> simp
  induction before generalizing fence pending number with
  | nil =>
      obtain rfl : fence = some marks := hopen
      rw [List.nil_append, segmentsFrom, segmentsFrom]
      exact hbefore _ _
  | cons first before ih =>
      have hrest : ∀ l ∈ before, l.head? ≠ some '.' := fun l hl => hdots l (by simp [hl])
      rw [List.cons_append]
      cases fence with
      | some outer =>
          rw [fenceAfter] at hopen
          rw [segmentsFrom]
          exact ih hrest hopen _ _
      | none =>
          have hfirst := hdots first List.mem_cons_self
          rw [fenceAfter, blockCall?_of_head?_ne hfirst] at hopen
          rw [segmentsFrom, blockCall?_of_head?_ne hfirst]
          cases hopened : openedFence? first with
          | none =>
              rw [hopened] at hopen
              exact ih hrest hopen _ _
          | some marks =>
              rw [hopened] at hopen
              exact ih hrest hopen _ _

/-- **A complete call after lines without calls is a block call if no fence is open there.** -/
theorem call_mem_segments_iff {before : List (List Char)} {head : Head}
    (hhead : headAt? 0 line = some head) (hcall : head.isCall = true)
    (hdots : ∀ l ∈ before, l.head? ≠ some '.') (number : Nat) :
    Segment.call { head, line, number := number + before.length, body := [] } ∈
      segments number (before ++ [line]) ↔ openFence? before = none := by
  constructor
  · intro hmem
    cases hopen : openFence? before with
    | none => rfl
    | some marks => exact absurd hmem (call_not_mem_segmentsFrom hdots hopen [] number _)
  · intro hopen
    rw [segments_append_call before [] hhead hcall hopen rfl]
    simp

/-- **Segments and Markdown agree on fenced code**, in a text without calls whose blocks of
several lines are code, and whose lines close fences alike: a complete call after it is a block
call exactly if Markdown does not put it into a fenced block. -/
theorem call_mem_segments_iff_not_endsInCode {before : List (List Char)} {head : Head}
    (hhead : headAt? 0 line = some head) (hcall : head.isCall = true)
    (hdots : ∀ l ∈ before, l.head? ≠ some '.') (hlines : ∀ l ∈ before ++ [line], '\n' ∉ l)
    (hflat : ∀ p ∈ withFences none (plainLines before), isFlat p.1 p.2 = true)
    (halike : ∀ p ∈ withFences none (plainLines before), closesAlike p.1 p.2 = true) :
    Segment.call { head, line, number := 1 + before.length, body := [] } ∈
        segments 1 (before ++ [line]) ↔
      endsInCode line (readBlocks (unlines (before ++ [line]))).1 = false := by
  obtain ⟨rest, hdot⟩ := headAt?_dot hhead
  have hopen : openFence? before = (openAfter none (plainLines before)).map Fence.marks :=
    fenceAfter_eq_openAfter hdots (by simp) halike
  rw [call_mem_segments_iff hhead hcall hdots, endsInCode_readBlocks hdot hlines hflat, hopen]
  cases openAfter none (plainLines before) <;> simp

/-- A call after a heading and a fenced list. -/
theorem call_mem_segments_fenced_list :
    Segment.call
        { head :=
            { name := "x", groups := [{ key := none, value := "a", start := 3, stop := 6 }], start := 0
              stop := 6, unterminated := false }
          line := ".x \x7ba\x7d".toList, number := 6, body := [] } ∈
      segments 1 (["# H", "~~~ text", "- a", "    b", "~~~~"].map String.toList ++
        [".x \x7ba\x7d".toList]) :=
  (call_mem_segments_iff_not_endsInCode rfl rfl (by decide) (by decide) (by decide)
    (by decide)).mpr (by decide +kernel)

/-- A fence with a line that closes it for the segments alone. -/
def indentedFence : List (List Char) := ["\x60\x60\x60", "    \x60\x60\x60"].map String.toList

/-- **A call is torn out of fenced code**: after an indented line of marks it is a block call,
though for Markdown it is the last line of the code. -/
theorem call_mem_segments_endsInCode :
    (∃ c, Segment.call c ∈ segments 1 (indentedFence ++ [".x \x7ba\x7d".toList]) ∧
      c.line = ".x \x7ba\x7d".toList) ∧
    endsInCode ".x \x7ba\x7d".toList
      (readBlocks (unlines (indentedFence ++ [".x \x7ba\x7d".toList]))).1 = true := by
  constructor
  · exact ⟨_, (call_mem_segments_iff rfl rfl (by decide) 1).mpr (by decide), rfl⟩
  · decide +kernel

end Livedoc.Document
