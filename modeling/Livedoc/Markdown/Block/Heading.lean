import Livedoc.Markdown.Line

/-!
# Headings and rules

The blocks that one line decides: a heading marked by number signs, a line of
equals signs or dashes that makes a heading of the paragraph above it, and a
horizontal rule.
-/

namespace Livedoc.Markdown

open Livedoc.Text

/-- The text of a heading without the number signs that close it. They count as
closing only after white space, or if nothing stands before them. -/
def dropClosingMarks (cs : List Char) : List Char :=
  let body := trimEnd cs
  let front := dropEndWhile (· == '#') body
  if front.length = body.length then cs
  else if front.isEmpty then []
  else
    let text := trimEnd front
    if text.length < front.length then text else cs

/-- The level and the text of a heading that number signs mark. -/
def markedHeading? (cs : List Char) : Option (Nat × List Char) :=
  match dropIndent? 3 cs with
  | none => none
  | some (_, body) =>
    let level := (body.takeWhile (· == '#')).length
    let rest := body.drop level
    if 1 ≤ level && level ≤ 6 && (rest.isEmpty || rest.head?.any isGap) then
      some (level, dropClosingMarks (trim rest))
    else none

/-- The level of the heading that the line makes of the paragraph above it. The
last mark decides. -/
def underline? (cs : List Char) : Option Nat :=
  match dropIndent? 3 cs with
  | none => none
  | some (_, body) =>
    let marks := dropEndWhile isGap body
    if !marks.isEmpty && marks.all (fun c => c == '=' || c == '-') then
      some (if marks.getLast? == some '=' then 1 else 2)
    else none

/-- Whether the line is a horizontal rule: three or more of one mark, with nothing
but spaces and tabs between them. -/
def isThematicBreak (indent : Nat) (cs : List Char) : Bool :=
  match dropIndent? indent cs with
  | some (_, mark :: rest) =>
    (mark == '-' || mark == '_' || mark == '*') &&
      rest.all (fun c => c == mark || isGap c) && rest.count mark ≥ 2
  | _ => false

end Livedoc.Markdown
