import Livedoc.Document.Content
import Livedoc.Document.Segment

/-!
# Reading a document

A document is read in three steps: the labels of typed quotations are rewritten,
the lines are divided into Markdown and block calls, and each part becomes nodes.
The body of a block call is a document of its own, read by the same rules after
its common indentation is taken away.

Reading never fails. What cannot be read as meant becomes text and is noted as a
mistake.
-/

namespace Livedoc.Document

open Livedoc.Source Livedoc.Text Livedoc.Tree Livedoc.Problem

/-- What was read: nodes, and the mistakes found. -/
structure Parsed (α : Type) where
  result : α
  mistakes : List Error := []

/-- Runs a search from a cursor. -/
def Locating.from {α : Type} (work : Locating α) (cursor : Cursor) : Parsed α :=
  let (result, search) := work { cursor }
  ⟨result, search.mistakes⟩

/-- The width of the white space that all lines start with, not counting blank
lines. -/
def commonIndent (ls : List (List Char)) : Nat :=
  let widths := (ls.filter fun l => !allBlank l).map fun l => (l.takeWhile isGap).length
  widths.min?.getD 0

/-- A stretch of Markdown. Blank lines alone give nothing. -/
def readMarkdown (index : LineIndex) (ls : List (List Char)) (number indent : Nat) :
    Parsed (List Node) :=
  let text := unlines ls
  if allBlank text then ⟨[], []⟩
  else Locating.from (markdownNodes text) (.ofText index text number indent)

/-- The text after the head of a block call, on the same line. -/
def readCallLine (index : LineIndex) (c : BlockCall) (indent : Nat) : Parsed (List Node) :=
  let rest := c.line.drop c.head.stop
  let text := trim rest
  if text.isEmpty then ⟨[], []⟩
  else
    let column := indent + c.head.stop + (rest.length - (trimStart rest).length)
    Locating.from (inlineNodes (Markdown.readInline [] text)) (.ofText index text c.number column)

/-- The node of a block call, given the nodes of its line and of its body. -/
def callNode (index : LineIndex) (c : BlockCall) (indent : Nat) (onLine below : List Node) : Node :=
  let start := index.lineStart c.number + indent
  let place (first last : Nat) : Span := index.span ((start + first : Nat)) ((start + last : Nat))
  let args := c.head.positional.map fun g =>
    { content := g.value, span := place g.start g.stop : Argument }
  let named := c.head.keyed.map fun g =>
    { name := g.key.getD ""
      value := { content := g.value, span := place g.start g.stop }
      span := place g.start g.stop : NamedArgument }
  let first := if onLine.isEmpty || c.body.isEmpty then onLine
    else [.paragraph onLine (coverNodes onLine)]
  .call c.head.name args named (first ++ below) (place c.head.start c.head.stop)

/-- The nodes of lines, the first of which has the given number; `indent` columns
were taken from the start of every line. -/
def readParts (index : LineIndex) (number indent : Nat) (ls : List (List Char)) :
    Parsed (List Node) :=
  let parts := (segments number ls).attach.map fun ⟨segment, h⟩ =>
    match segment, h with
    | .markdown ls number, _ => readMarkdown index ls number indent
    | .call c, h =>
      have : c.body.length < ls.length := body_length_lt h
      let onLine := readCallLine index c indent
      let removed := commonIndent c.body
      let below := readParts index (c.number + 1) (indent + removed) (c.body.map (List.drop removed))
      ⟨[callNode index c indent onLine.result below.result], onLine.mistakes ++ below.mistakes⟩
  ⟨parts.flatMap (·.result), parts.flatMap (·.mistakes)⟩
termination_by ls.length
decreasing_by simpa using this

/-- Reads a source. -/
def read (source : String) : Parsed Document :=
  let cs := source.toList
  let index := LineIndex.ofText cs
  let parts := readParts index 1 0 (lines (normalizeQuotes (normalizeBreaks cs)))
  ⟨⟨parts.result, index.span 0 cs.length⟩, parts.mistakes⟩

/-- Reads a text as the content of a line, as the arguments of calls are. -/
def readLine (text : String) : List Node :=
  let cs := text.toList
  (Locating.from (inlineNodes (Markdown.readInline [] cs))
    (.ofText (.ofText cs) cs 1 0)).result

end Livedoc.Document
