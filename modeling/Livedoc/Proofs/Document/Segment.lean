import Livedoc.Document.Segment
import Mathlib.Data.List.TakeWhile

/-!
# How lines are divided into segments

Dividing lines goes through them once, with a fence that may be open.  `fenceAfter` follows that
fence, which is all that the lines before a place can do to the lines after it
(`segmentsFrom_append_call`): a complete call at the start of a line, no fence being open
there, ends what is pending and every body, so the lines before it and the lines after its body
are divided as if they stood alone.

Line numbers are passed on and not looked at (`segmentsFrom_unnumbered`).
-/

namespace Livedoc.Document

open Livedoc.Call Livedoc.Text

variable {line : List Char}

/-! ## Lines that hold a call head -/

theorem headAt?_dot {offset : Nat} {cs : List Char} {head : Head}
    (h : headAt? offset cs = some head) : ∃ rest, cs = '.' :: rest := by
  unfold headAt? at h
  split at h
  · exact ⟨_, rfl⟩
  · cases h

theorem openedFence?_dot (rest : List Char) : openedFence? ('.' :: rest) = none := by
  simp [openedFence?]

theorem continuesBody_dot (rest : List Char) : continuesBody ('.' :: rest) = false := by
  simp [continuesBody, allBlank, show isBlank '.' = false by decide, show isGap '.' = false by decide]

/-- A complete call at the start of a line is a block call. -/
theorem blockCall?_of_isCall {head : Head} (hhead : headAt? 0 line = some head)
    (hcall : head.isCall = true) (number : Nat) (rest : List (List Char)) :
    blockCall? number line rest = some { head, line, number, body := indentedLines rest } := by
  have hclosed : head.unterminated = false := by
    simpa using (Bool.and_eq_true_iff.mp hcall).2
  simp [blockCall?, hhead, hclosed, hcall]

/-- What a block call consists of does not depend on its number. -/
theorem blockCall?_number (number : Nat) (line : List Char) (rest : List (List Char)) :
    blockCall? number line rest =
      (blockCall? 0 line rest).map fun c => { c with number := number } := by
  unfold blockCall?
  cases headAt? 0 line with
  | none => rfl
  | some head =>
      dsimp only
      split
      · rfl
      · split <;> rfl

/-! ## Bodies -/

/-- A body ends before a line that does not continue it. -/
theorem indentedLines_append_cons (h : continuesBody line = false)
    (before after : List (List Char)) :
    indentedLines (before ++ line :: after) = indentedLines before := by
  have htake : (before ++ line :: after).takeWhile continuesBody = before.takeWhile continuesBody := by
    induction before with
    | nil => rw [List.nil_append, List.takeWhile_cons_of_neg (by simp [h])]; rfl
    | cons first before ih => rw [List.cons_append, List.takeWhile_cons, List.takeWhile_cons, ih]
  rw [indentedLines, htake, indentedLines]

/-- Blank lines before one that does not continue a body are no body. -/
theorem indentedLines_eq_nil {ls : List (List Char)}
    (h : ∀ line ∈ ls.find? (fun l => !allBlank l), line.head?.any isGap = false) :
    indentedLines ls = [] := by
  induction ls with
  | nil => rfl
  | cons line rest ih =>
      by_cases hblank : allBlank line = true
      · have hrest : indentedLines rest = [] := ih (by simpa [hblank] using h)
        rw [indentedLines, List.takeWhile_cons_of_pos (by simp [continuesBody, hblank]),
          List.foldr_cons]
        unfold indentedLines at hrest
        rw [hrest]
        simp [hblank]
      · have hhead : line.head?.any isGap = false := h line (by simp [hblank])
        rw [indentedLines, List.takeWhile_cons_of_neg]
        · rfl
        · simp [continuesBody, hblank, hhead]

/-- Lines that all continue a body, the last of them not being blank, are a body. -/
theorem indentedLines_eq_self {ls : List (List Char)} (h : ∀ line ∈ ls, continuesBody line = true)
    (hlast : ∀ line ∈ ls.getLast?, allBlank line = false) : indentedLines ls = ls := by
  rw [indentedLines, List.takeWhile_eq_self_iff.mpr h]
  clear h
  induction ls with
  | nil => rfl
  | cons line rest ih =>
      rw [List.foldr_cons]
      cases rest with
      | nil => simpa using hlast line rfl
      | cons next rest =>
          rw [ih (by simpa using hlast)]
          simp

/-- The lines after a line that continues no body do not matter for a block call before it. -/
theorem blockCall?_append_cons (h : continuesBody line = false) (number : Nat) (first : List Char)
    (before after : List (List Char)) :
    blockCall? number first (before ++ line :: after) = blockCall? number first before := by
  simp only [blockCall?, indentedLines_append_cons h]

/-! ## The fence that is open -/

/-- The marks of the fence that is open after lines, `fence` being the one that is open before
them and `skip` the number of lines that belong to the block call before them. -/
def fenceAfter : Option (List Char) → Nat → List (List Char) → Option (List Char)
  | fence, _, [] => fence
  | fence, skip + 1, _ :: rest => fenceAfter fence skip rest
  | some marks, 0, line :: rest =>
    fenceAfter (if closesFence marks line then none else some marks) 0 rest
  | none, 0, line :: rest =>
    match openedFence? line with
    | some marks => fenceAfter (some marks) 0 rest
    | none => fenceAfter none ((blockCall? 0 line rest).elim 0 (·.body.length)) rest

/-- The marks of the fence that is open at the end of lines. -/
def openFence? (ls : List (List Char)) : Option (List Char) := fenceAfter none 0 ls

/-- **A complete call divides the lines around it**: where no fence is open, what stands before
it is divided as if it ended there, and what stands after its body as if it started there. -/
theorem segmentsFrom_append_call (before after : List (List Char)) {head : Head}
    (hhead : headAt? 0 line = some head) (hcall : head.isCall = true) (fence : Option (List Char)) (pending : List (List Char))
    (number skip : Nat) (hopen : fenceAfter fence skip before = none) (hskip : skip ≤ before.length) :
    segmentsFrom fence pending number skip (before ++ line :: after) =
      segmentsFrom fence pending number skip before ++
        .call { head, line, number := number + before.length, body := indentedLines after } ::
          segmentsFrom none [] (number + before.length + 1) (indentedLines after).length after := by
  obtain ⟨rest, hdot⟩ := headAt?_dot hhead
  have hends : continuesBody line = false := hdot ▸ continuesBody_dot rest
  induction before generalizing fence pending number skip with
  | nil =>
      obtain rfl : skip = 0 := Nat.le_zero.mp hskip
      obtain rfl : fence = none := hopen
      have hclosed : openedFence? line = none := hdot ▸ openedFence?_dot rest
      simp only [List.nil_append, segmentsFrom, hclosed, blockCall?_of_isCall hhead hcall,
        List.length_nil, Nat.add_zero]
  | cons first before ih =>
      have hnumber : number + (before.length + 1) = number + 1 + before.length := by omega
      rw [List.cons_append, List.length_cons, hnumber]
      -- One line further, with the fence and the rest of the body that it leaves.
      cases skip with
      | succ skip =>
          rw [segmentsFrom, segmentsFrom]
          exact ih _ _ _ _ hopen (Nat.le_of_succ_le_succ hskip)
      | zero =>
          cases fence with
          | some marks =>
              rw [segmentsFrom, segmentsFrom]
              exact ih _ _ _ _ hopen (Nat.zero_le _)
          | none =>
              rw [fenceAfter] at hopen
              rw [segmentsFrom, segmentsFrom, blockCall?_append_cons hends]
              cases hfence : openedFence? first with
              | some marks =>
                  rw [hfence] at hopen
                  exact ih _ _ _ _ hopen (Nat.zero_le _)
              | none =>
                  rw [hfence] at hopen
                  cases hblock : blockCall? number first before with
                  | some c =>
                      have hbody : (blockCall? 0 first before).elim 0 (·.body.length) =
                          c.body.length := by
                        rw [blockCall?_number] at hblock
                        obtain ⟨d, hd, rfl⟩ := Option.map_eq_some_iff.mp hblock
                        rw [hd]
                        rfl
                      dsimp only at hopen ⊢
                      rw [hbody] at hopen
                      rw [ih _ _ _ _ hopen (body_length_le hblock), List.append_assoc]
                      rfl
                  | none =>
                      rw [blockCall?_number, Option.map_eq_none_iff] at hblock
                      rw [hblock] at hopen
                      exact ih _ _ _ _ hopen (Nat.zero_le _)

/-- A complete call without a body is one segment between those before and after it. -/
theorem segments_append_call (before after : List (List Char)) {head : Head}
    (hhead : headAt? 0 line = some head) (hcall : head.isCall = true)
    (hopen : openFence? before = none)
    (hbody : indentedLines after = []) (number : Nat) :
    segments number (before ++ line :: after) =
      segments number before ++ .call { head, line, number := number + before.length, body := [] } ::
        segments (number + before.length + 1) after := by
  have hsegments := segmentsFrom_append_call before after hhead hcall none [] number 0 hopen
    (Nat.zero_le _)
  rw [hbody] at hsegments
  exact hsegments

/-! ## Numbers -/

/-- A segment without the number of its first line. -/
def Segment.unnumbered : Segment → Segment
  | .markdown ls _ => .markdown ls 0
  | .call c => .call { c with number := 0 }

/-- **Where lines are divided does not depend on their numbers.** -/
theorem segmentsFrom_unnumbered (fence : Option (List Char)) (pending : List (List Char))
    (number number' skip : Nat) (ls : List (List Char)) :
    (segmentsFrom fence pending number skip ls).map Segment.unnumbered =
      (segmentsFrom fence pending number' skip ls).map Segment.unnumbered := by
  have hbefore : ∀ (p : List (List Char)) (n m : Nat),
      (markdownBefore p n).map Segment.unnumbered = (markdownBefore p m).map Segment.unnumbered := by
    intro p n m
    unfold markdownBefore
    split <;> rfl
  induction ls generalizing fence pending number number' skip with
  | nil => exact hbefore pending number number'
  | cons line rest ih =>
      cases skip with
      | succ skip => exact ih _ _ _ _ _
      | zero =>
          cases fence with
          | some marks => exact ih _ _ _ _ _
          | none =>
              rw [segmentsFrom, segmentsFrom]
              cases openedFence? line with
              | some marks => exact ih _ _ _ _ _
              | none =>
                  rw [blockCall?_number number, blockCall?_number number']
                  cases blockCall? 0 line rest with
                  | none => exact ih _ _ _ _ _
                  | some c =>
                      simp only [Option.map_some, List.map_append, List.map_cons]
                      rw [hbefore pending number number', ih _ _ (number + 1) (number' + 1)]
                      rfl

end Livedoc.Document
