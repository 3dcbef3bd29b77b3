import Livedoc.Markdown.Destination
import Livedoc.Markdown.Line
import Livedoc.Text.Case

/-!
# Link references

A line `[label]: destination "title"` names a link once for all uses of the label.
Labels are compared by their words and without regard to case, and the first
definition of a label is the one that counts. References are known within one
stretch of Markdown only.
-/

namespace Livedoc.Markdown

open Livedoc.Text

/-- The references of a stretch of Markdown by the key of their label. -/
abbrev References := List (String × Target)

/-- The key of a label: its words, with case differences removed. Two letters that
share either case get the same key. -/
def labelKey (label : List Char) : String :=
  toUpper (toLower (intercalate " " ((words label).map String.ofList)))

/-- The references with one more, unless its label is known. -/
def References.define (refs : References) (key : String) (target : Target) : References :=
  if (refs.lookup key).isSome then refs else refs ++ [(key, target)]

/-- The most characters of a label. -/
def maxLabel : Nat := 999

/-- A label after its opening bracket, up to the closing one. -/
def takeLabelFrom? : List Char → Option (List Char × List Char)
  | ']' :: rest => some ([], rest)
  | '[' :: _ => none
  | '\\' :: c :: rest =>
    if c = '\n' then none else (takeLabelFrom? rest).map fun (l, r) => ('\\' :: c :: l, r)
  | '\\' :: [] => none
  | c :: rest => (takeLabelFrom? rest).map fun (l, r) => (c :: l, r)
  | [] => none

/-- A label of allowed length. -/
def takeLabel? (cs : List Char) : Option (List Char × List Char) :=
  (takeLabelFrom? cs).filter fun p => p.1.length ≤ maxLabel

/-- What follows spaces, tabs and the end of the line. -/
def afterLineEnd? (cs : List Char) : Option (List Char) :=
  match cs.dropWhile isGap with
  | '\n' :: rest => some rest
  | _ => none

/-- The label and the text after the colon, if a definition starts here. -/
def takeDefinitionLabel? (cs : List Char) : Option (List Char × List Char) :=
  match dropIndent? 3 cs with
  | some (_, '[' :: rest) =>
    match takeLabel? rest with
    | some (label, ':' :: rest) => some (label, rest)
    | _ => none
  | _ => none

/-- The text up to its first blank line, and the rest. The end of the line within
which the text starts counts as no blank line. -/
def splitBlankLine (cs : List Char) : List Char × List Char :=
  match lines cs with
  | [] => (cs, [])
  | first :: more =>
    let kept := more.takeWhile fun l => !isBlankLine l
    cs.splitAt (unlines (first :: kept)).length

/-- The target of a definition after its colon, with what follows its last line. A
title that does not end its line is none, and no title reaches across a blank
line. -/
def takeDefinitionTarget? (cs : List Char) : Option (Target × List Char) :=
  match takeReferenceDestination? cs with
  | none => none
  | some (destination, rest) =>
    let (near, far) := splitBlankLine rest
    let titled := (takeTitle? near).bind fun (title, after) =>
      (afterLineEnd? (after ++ far)).map fun after => (titleText title, after)
    let plain := (afterLineEnd? rest).map fun after => (none, after)
    (titled.orElse fun _ => plain).map fun (title, after) => (⟨address destination, title⟩, after)

/-- A definition at the start of lines: its key, its target, and how many lines it
takes. -/
def definition? (ls : List Line) : Option (String × Target × Nat) :=
  let text := textOfLines ls
  match takeDefinitionLabel? text with
  | none => none
  | some (label, rest) =>
    let key := labelKey label
    if key.isEmpty then none
    else (takeDefinitionTarget? rest).map fun (target, after) =>
      (key, target, ls.length - after.count '\n')

/-- Whether the lines start like a definition, complete or not. -/
def startsDefinition (ls : List Line) : Bool :=
  (ls.head?.bind fun l => dropIndent? 3 l.chars).any (fun p => p.2.head? == some '[') &&
    (takeDefinitionLabel? (textOfLines ls)).isSome

end Livedoc.Markdown
