import Livedoc.Markdown.Line
import Livedoc.Markdown.Url

/-!
# Code blocks and formulas

A fenced block runs from a line of three or more backticks or tildes to a line of
at least as many, or to the end of the text. What follows the opening fence is its
info text; after backticks it may hold no backtick. An indented block is made of
lines indented by four columns, with blank lines between them.

A formula set apart stands between two pairs of dollar signs, either on one line
of its own or with its lines between two lines of the signs.
-/

namespace Livedoc.Markdown

open Livedoc.Text

/-- The mark of a fence of backticks. -/
def backtick : Char := '\x60'

/-- An opening fence. -/
structure Fence where
  /-- Spaces before the fence. -/
  indent : Nat
  /-- Its character. -/
  mark : Char
  /-- How many of them. -/
  size : Nat
  /-- What follows on the line. -/
  info : List Char

/-- The fence that a line after at most `indent` spaces opens. -/
def fence? (indent : Nat) (cs : List Char) : Option Fence :=
  match dropIndent? indent cs with
  | some (indent, body@(mark :: _)) =>
    if mark == backtick || mark == '~' then
      let size := (body.takeWhile (· == mark)).length
      if size ≥ 3 then some ⟨indent, mark, size, (body.drop size).dropWhile isGap⟩ else none
    else none
  | _ => none

/-- Whether a fence really opens a block: backticks do not if more of them follow
on their line. -/
def Fence.opens (f : Fence) : Bool := !(f.mark == backtick && f.info.contains backtick)

/-- Whether a line closes the block. -/
def Fence.closedBy (f : Fence) (cs : List Char) : Bool :=
  match dropIndent? 3 cs with
  | some (_, body) =>
    let marks := body.takeWhile (· == f.mark)
    marks.length ≥ f.size && (body.drop marks.length).all isGap
  | none => false

/-- The lines of the block's content and how many lines the block takes after its
opening fence. -/
def Fence.content (f : Fence) (rest : List Line) : List (List Char) × Nat :=
  let inside := rest.takeWhile fun l => !f.closedBy l.chars
  (inside.map (·.chars), min rest.length (inside.length + 1))

/-- The content as text, without the indentation of the opening fence. -/
def Fence.raw (f : Fence) (content : List (List Char)) : List Char :=
  content.flatMap fun l => dropSpaces f.indent l ++ ['\n']

/-- The info text with its escapes undone; nothing if there is none. -/
def Fence.infoText (f : Fence) : Option (List Char) :=
  if f.info.isEmpty then none else some (trim (unescape f.info))

/-- The number of lines of an indented block after its first: indented and blank
ones. -/
def indentedLength (rest : List Line) : Nat :=
  (rest.takeWhile fun l => isIndentedCode l.chars || isBlankLine l.chars).length

/-- The text of an indented block, without its indentation and without blank lines
around it. -/
def indentedText (block : List Line) : List Char :=
  let body := block.flatMap fun l => dropSpaces 4 (expandLeadingTab 4 l.chars) ++ ['\n']
  trimWhile (· == '\n') body

/-! ## Formulas set apart -/

open Livedoc.Text

/-- What follows the opening signs of a formula. -/
def afterDollars? (cs : List Char) : Option (List Char) :=
  match dropIndent? 3 cs with
  | some (_, '$' :: '$' :: rest) => some rest
  | _ => none

/-- Whether a line closes a formula. -/
def isFormulaEnd (cs : List Char) : Bool :=
  match cs with
  | '$' :: '$' :: rest => rest.all isGap
  | _ => false

/-- The first place where two dollar signs stand with only spaces and tabs after
them: what stands before. -/
def beforeClosing? : List Char → Option (List Char)
  | [] => none
  | c :: rest =>
    if isFormulaEnd (c :: rest) then some [] else (beforeClosing? rest).map (c :: ·)

/-- The formula that starts with this line, and how many further lines it takes. -/
def formula? (first : List Char) (rest : List Line) : Option (List Char × Nat) :=
  match afterDollars? first with
  | none => none
  | some body =>
    match beforeClosing? body with
    | some raw => some (raw, 0)
    | none =>
      match body.all isGap, rest with
      | true, line :: more =>
        let inside := more.takeWhile fun l => !isFormulaEnd l.chars
        if inside.length < more.length then
          some (unlines ((line :: inside).map (·.chars)), inside.length + 2)
        else none
      | _, _ => none

end Livedoc.Markdown
