import Livedoc.Problem.Issue
import Livedoc.Source.LineIndex

/-!
# Finding text in its source

The Markdown rules do not say where a piece of markup stood. It is found again by
searching the source for its text, from a cursor onwards; the cursor then moves
behind the piece, so pieces have to be looked for in the order of the document. A
piece whose text is not found, because escapes or indentation were taken away,
gets an empty span at the cursor.

The text that is searched is a stretch of lines of the source, every line of which
was shifted left by the same number of columns.
-/

namespace Livedoc.Document

open Livedoc.Source Livedoc.Problem

/-- A place in a stretch of the source. -/
structure Cursor where
  /-- The index of the whole source. -/
  index : LineIndex
  /-- The columns that were taken from the start of every line. -/
  indent : Nat
  /-- The number of the line. -/
  line : Nat
  /-- The column within the shifted line, from one. -/
  column : Nat
  /-- The text after the place. -/
  rest : List Char

namespace Cursor

/-- The start of a text whose first line has the given number. -/
def ofText (index : LineIndex) (text : List Char) (line indent : Nat) : Cursor :=
  ⟨index, indent, line, 1, text⟩

/-- The place in the whole source. -/
def position (c : Cursor) : Position :=
  let column := c.column + c.indent
  ⟨c.line, column, c.index.lineStart c.line + column - 1⟩

/-- The place after the next character. -/
def next (c : Cursor) : Cursor :=
  match c.rest with
  | [] => c
  | '\n' :: rest => { c with line := c.line + 1, column := 1, rest }
  | _ :: rest => { c with column := c.column + 1, rest }

/-- The place after so many characters. -/
def advance : Nat → Cursor → Cursor
  | 0, c => c
  | n + 1, c => advance n c.next

/-- How many characters stand before the first occurrence of `part` in a text. -/
def find? (part : List Char) : List Char → Option Nat
  | [] => if part.isEmpty then some 0 else none
  | c :: rest => if part.isPrefixOf (c :: rest) then some 0 else (find? part rest).map (· + 1)

/-- The span of the next occurrence of `part`, and the place after it. -/
def locate (c : Cursor) (part : List Char) : Span × Cursor :=
  match if part.isEmpty then none else find? part c.rest with
  | none => (⟨c.position, c.position⟩, c)
  | some before =>
    let start := c.advance before
    let stop := start.advance part.length
    (⟨start.position, stop.position⟩, stop)

end Cursor

/-- A cursor that moves, and the mistakes found on its way. -/
structure Search where
  cursor : Cursor
  /-- The mistakes, in the order of their discovery. -/
  mistakes : List Error := []

/-- Work that looks for pieces of markup one after the other. -/
abbrev Locating := StateM Search

/-- The span of the next occurrence of a text. -/
def locate (part : List Char) : Locating Span := fun s =>
  let (span, cursor) := s.cursor.locate part
  (span, { s with cursor })

/-- Notes a mistake. -/
def report (message : String) (span : Span) : Locating Unit := fun s =>
  ((), { s with mistakes := s.mistakes ++ [⟨message, .malformed, span⟩] })

end Livedoc.Document
