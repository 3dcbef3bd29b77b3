import Livedoc.Text.Blank
import Livedoc.Text.Case
import Livedoc.Text.Lines

/-!
# Typed quotations

A quotation may say of what type it is: its first line starts with a label, as in
`> Note: mind the gap`. Before a document is read, such a label is rewritten into
a marker, `> [!NOTE] mind the gap`, which survives Markdown as text and is then
taken off the quotation again. Lines keep their numbers.

Labels and markers are recognised without regard to case. Only the first line of a
quotation can carry a label.
-/

namespace Livedoc.Document

open Livedoc.Text

/-- The labels of typed quotations, in small letters. -/
def quoteLabels : List (List Char) := ["note", "tip", "warning", "info"].map String.toList

/-- The quotation mark at the start of a line with the spaces before it, and what
follows it. -/
def takeQuoteMark? (line : List Char) : Option (List Char × List Char) :=
  let indent := line.takeWhile (· == ' ')
  match line.drop indent.length with
  | '>' :: rest => if indent.length ≤ 3 then some (indent ++ ['>'], rest) else none
  | _ => none

/-- Whether a line is quoted. -/
def isQuoted (line : List Char) : Bool := (takeQuoteMark? line).isSome

/-- The label at the start of a text as it is written, and what follows it. -/
def takeLabel? (cs : List Char) : Option (List Char × List Char) :=
  quoteLabels.findSome? fun label =>
    (dropWord? label cs).map fun rest => (cs.take label.length, rest)

/-- The line with its label rewritten into a marker, if it carries one. -/
def markLabel? (line : List Char) : Option (List Char) :=
  match takeQuoteMark? line with
  | none => none
  | some (mark, rest) =>
    let (mark, rest) := match rest with
      | ' ' :: more => (mark ++ [' '], more)
      | '\t' :: more => (mark ++ ['\t'], more)
      | _ => (mark, rest)
    match takeLabel? rest with
    | some (label, ':' :: body) =>
      some (trimEnd (mark ++ "[!".toList ++ upper label ++ "] ".toList ++ body.dropWhile isGap))
    | _ => none

/-- The lines with their labels rewritten, `afterQuoted` telling whether the line
before them is quoted. -/
def markLabels (afterQuoted : Bool) : List (List Char) → List (List Char)
  | [] => []
  | line :: rest =>
    let marked := if afterQuoted then line else (markLabel? line).getD line
    marked :: markLabels (isQuoted line) rest

/-- A source with the labels of its typed quotations rewritten into markers. -/
def normalizeQuotes (cs : List Char) : List Char := unlines (markLabels false (lines cs))

/-- The type that the marker at the start of a text names, and what follows the
marker. -/
def takeMarker? (cs : List Char) : Option (String × List Char) :=
  match cs with
  | '[' :: '!' :: rest =>
    match takeLabel? rest with
    | some (label, ']' :: rest) =>
      let rest := rest.dropWhile isGap
      let rest := match rest with
        | '\n' :: more => more
        | _ => rest
      some (String.ofList (lower label), rest)
    | _ => none
  | _ => none

end Livedoc.Document
