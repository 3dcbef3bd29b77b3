import Livedoc.Text.Blank
import Livedoc.Text.Lines

/-!
# Lines of Markdown

Block structure is decided line by line. A line knows its characters, without the
newline, and whether it is *lazy*: it continues a paragraph of a quotation without
the marker that a quotation asks for.

Up to three spaces may stand before a block's marker. A tab at the start of a line
counts as the spaces up to the next tab stop.
-/

namespace Livedoc.Markdown

open Livedoc.Text

/-- A line of Markdown. -/
structure Line where
  /-- The characters before the newline. -/
  chars : List Char
  /-- Whether the line continues a paragraph without its block's marker. -/
  isLazy : Bool := false

/-- The lines of a text whose last newline, if it is the last character, ends a
line and starts none. -/
def linesOf (cs : List Char) : List Line :=
  match cs with
  | [] => []
  | _ =>
    let parts := lines cs
    let parts := if parts.getLastD [] == [] then parts.dropLast else parts
    parts.map fun p => { chars := p }

/-- The text of lines, each with its newline. -/
def textOfLines (ls : List Line) : List Char := ls.flatMap fun l => l.chars ++ ['\n']

/-- A character that a blank line may hold. -/
def isLineGap (c : Char) : Bool := isGap c || c == '\x0b' || c == '\x0c'

/-- A line without content. -/
def isBlankLine (cs : List Char) : Bool := cs.all isLineGap

/-- The number of spaces at the start. -/
def indentOf (cs : List Char) : Nat := (cs.takeWhile (· == ' ')).length

/-- The text after at most `most` spaces, with their number; nothing if there are
more. -/
def dropIndent? (most : Nat) (cs : List Char) : Option (Nat × List Char) :=
  let indent := indentOf cs
  if indent ≤ most then some (indent, cs.drop indent) else none

/-- The text without at most `most` spaces at its start. -/
def dropSpaces : Nat → List Char → List Char
  | most + 1, ' ' :: rest => dropSpaces most rest
  | _, cs => cs

/-- So many spaces. -/
def spaces (n : Nat) : List Char := List.replicate n ' '

/-- A tab after at most three spaces, read as the spaces up to column `width`. -/
def expandLeadingTab (width : Nat) (cs : List Char) : List Char :=
  match dropIndent? 3 cs with
  | some (indent, '\t' :: rest) => spaces (max indent width) ++ rest
  | _ => cs

/-- A tab after at most three spaces, read as four more spaces. -/
def expandSecondTab (cs : List Char) : List Char :=
  match dropIndent? 3 cs with
  | some (indent, '\t' :: rest) => spaces (indent + 4) ++ rest
  | _ => cs

/-- Whether the line reads as indented code: four spaces and something more, or a
tab after spaces and something more. -/
def isIndentedCode (cs : List Char) : Bool :=
  (indentOf cs ≥ 4 && cs.length > 4) ||
    match cs.dropWhile (· == ' ') with
    | '\t' :: _ :: _ => true
    | _ => false

end Livedoc.Markdown
