import Livedoc.Call.Head
import Livedoc.Text.Blank

/-!
# Segments

A document consists of stretches of Markdown and of block calls between them. A
block call is a call head at the start of a line; the indented or blank lines
below it are its body. A bare name at the start of a line is a block call only if
nothing follows it on the line and its body starts on the very next line;
otherwise it is a reference within the Markdown.

Nothing within a fence is a block call.
-/

namespace Livedoc.Document

open Livedoc.Call Livedoc.Text

/-- A call head at the start of a line, with its body. -/
structure BlockCall where
  head : Head
  /-- The line that holds the head. -/
  line : List Char
  /-- The number of that line. -/
  number : Nat
  /-- The lines of the body, as they are indented. -/
  body : List (List Char)

/-- A part of a document. -/
inductive Segment where
  /-- Lines of Markdown, the first of which has the given number. -/
  | markdown (lines : List (List Char)) (number : Nat)
  | call (c : BlockCall)

/-- The marks of the fence that a line opens. -/
def openedFence? (line : List Char) : Option (List Char) :=
  let indent := (line.takeWhile (· == ' ')).length
  match line.drop indent with
  | [] => none
  | mark :: rest =>
    let marks := mark :: rest.takeWhile (· == mark)
    if indent ≤ 3 && (mark == '\x60' || mark == '~') && marks.length ≥ 3 then some marks else none

/-- Whether a line closes the fence with the given marks. -/
def closesFence (marks line : List Char) : Bool :=
  let stripped := trim line
  marks.isPrefixOf stripped && stripped.all fun c => marks.head? == some c

/-- A line that continues a body: a blank one, or one that is indented. -/
def continuesBody (line : List Char) : Bool := allBlank line || line.head?.any isGap

/-- The lines at the start that are indented or blank, without the blank ones at
the end. -/
def indentedLines (ls : List (List Char)) : List (List Char) :=
  (ls.takeWhile continuesBody).foldr
    (fun line rest => if rest.isEmpty && allBlank line then [] else line :: rest) []

/-- The block call that a line starts, given the lines after it. -/
def blockCall? (number : Nat) (line : List Char) (rest : List (List Char)) : Option BlockCall :=
  match headAt? 0 line with
  | none => none
  | some head =>
    let body := indentedLines rest
    let bare := allBlank (line.drop head.stop) && body.head?.any fun first => !allBlank first
    if head.unterminated then none
    else if head.isCall || bare then some { head, line, number, body }
    else none

/-- The Markdown collected so far, as a segment if there is any. `pending` holds its
lines, last one first, and `number` is the number of the line after them. -/
def markdownBefore (pending : List (List Char)) (number : Nat) : List Segment :=
  if pending.isEmpty then [] else [.markdown pending.reverse (number - pending.length)]

/-- The segments of lines, the first of which has the given number; `fence` holds
the marks of the fence that is open, `pending` the Markdown collected so far, and
`skip` tells how many lines belong to the block call before them. -/
def segmentsFrom (fence : Option (List Char)) (pending : List (List Char)) (number : Nat) :
    Nat → List (List Char) → List Segment
  | _, [] => markdownBefore pending number
  | skip + 1, _ :: rest => segmentsFrom fence pending (number + 1) skip rest
  | 0, line :: rest =>
    match fence with
    | some marks =>
      segmentsFrom (if closesFence marks line then none else some marks) (line :: pending)
        (number + 1) 0 rest
    | none =>
      match openedFence? line with
      | some marks => segmentsFrom (some marks) (line :: pending) (number + 1) 0 rest
      | none =>
        match blockCall? number line rest with
        | some c =>
          markdownBefore pending number ++ .call c :: segmentsFrom none [] (number + 1) c.body.length rest
        | none => segmentsFrom none (line :: pending) (number + 1) 0 rest

/-- The segments of lines, the first of which has the given number. -/
def segments (number : Nat) (ls : List (List Char)) : List Segment :=
  segmentsFrom none [] number 0 ls

/-! ## Bodies are shorter -/

/-- The indented lines are no more than the lines. -/
theorem indentedLines_length_le (ls : List (List Char)) :
    (indentedLines ls).length ≤ ls.length := by
  have drop_le : ∀ xs : List (List Char),
      (xs.foldr (fun line rest => if rest.isEmpty && allBlank line then [] else line :: rest)
        []).length ≤ xs.length := by
    intro xs
    induction xs with
    | nil => simp
    | cons x xs ih =>
      simp only [List.foldr_cons]
      split
      · simp
      · simpa using ih
  have take_le : ∀ xs : List (List Char), (xs.takeWhile continuesBody).length ≤ xs.length := by
    intro xs
    induction xs with
    | nil => simp
    | cons x xs ih =>
      simp only [List.takeWhile_cons]
      split
      · simpa using ih
      · simp
  exact Nat.le_trans (drop_le _) (take_le _)

/-- The body of a block call holds at most the lines after it. -/
theorem body_length_le {number : Nat} {line : List Char} {rest : List (List Char)}
    {c : BlockCall} (h : blockCall? number line rest = some c) : c.body.length ≤ rest.length := by
  unfold blockCall? at h
  split at h
  · simp at h
  · split at h
    · simp at h
    · dsimp only at h
      split at h
      · cases h
        exact indentedLines_length_le rest
      · simp at h

/-- The body of a block call is shorter than the lines that hold the call. -/
theorem body_length_lt {fence : Option (List Char)} {pending : List (List Char)}
    {number skip : Nat} {ls : List (List Char)} {c : BlockCall}
    (h : Segment.call c ∈ segmentsFrom fence pending number skip ls) :
    c.body.length < ls.length := by
  have not_before : ∀ (p : List (List Char)) (n : Nat), Segment.call c ∉ markdownBefore p n := by
    intro p n
    unfold markdownBefore
    split <;> simp
  induction ls generalizing fence pending number skip with
  | nil =>
    simp only [segmentsFrom] at h
    exact absurd h (not_before _ _)
  | cons line rest ih =>
    have step : ∀ {f p n s}, Segment.call c ∈ segmentsFrom f p n s rest →
        c.body.length < (line :: rest).length := fun h =>
      Nat.lt_trans (ih h) (by simp)
    cases skip with
    | succ skip =>
      simp only [segmentsFrom] at h
      exact step h
    | zero =>
      simp only [segmentsFrom] at h
      split at h
      · exact step h
      · split at h
        · exact step h
        · split at h
          · next d hd =>
            rcases List.mem_append.1 h with h | h
            · exact absurd h (not_before _ _)
            · rcases List.mem_cons.1 h with h | h
              · cases h
                have := body_length_le hd
                simp only [List.length_cons]
                omega
              · exact step h
          · exact step h

end Livedoc.Document
