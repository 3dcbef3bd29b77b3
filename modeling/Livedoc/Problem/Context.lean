import Livedoc.Problem.Issue
import Livedoc.Text.Blank
import Livedoc.Text.Lines

/-!
# Messages with their source line

A message about a known place is shown with the file, the line and the column, the
source line itself, and carets under the stretch meant. A stretch that goes on
over further lines is marked to the end of its first line. At least one caret is
shown, and a line number that the source does not have gives an empty line.

The source line is taken from the lines as shown, so a form feed or a line
separator counts as a break.
-/

namespace Livedoc.Problem

open Livedoc.Source Livedoc.Text

/-- How grave a message is. -/
inductive Severity where
  | error
  | warning
deriving DecidableEq, Repr

/-- The word a message starts with. -/
def Severity.name : Severity → String
  | .error => "error"
  | .warning => "warning"

/-- So many copies of a character. -/
def repeated (c : Char) (n : Nat) : String := String.ofList (List.replicate n c)

/-- The line of a source with this number, without its newline. -/
def sourceLine (source : String) (line : Nat) : List Char :=
  let shown := (visualLines source.toList).getD (line - 1) []
  dropEndWhile (· == '\r') (dropEndWhile (· == '\n') shown)

/-- How many carets mark the span in a first line of `width` characters. -/
def caretCount (span : Span) (width : Nat) : Nat :=
  if span.stop.line = span.start.line then max 1 (span.stop.column - span.start.column)
  else max 1 (width + 1 - span.start.column)

/-- A message with the lines that show its place. `severity` is the word it starts
with. -/
def context (message : String) (span : Span) (source filename severity : String) : String :=
  if !span.isKnown then severity ++ ": " ++ message ++ "\n  --> " ++ filename
  else
    let line := sourceLine source span.start.line
    let number := toString span.start.line
    let gutter := repeated ' ' (number.length + 1)
    severity ++ ": " ++ message ++ "\n" ++
      gutter ++ "--> " ++ filename ++ ":" ++ number ++ ":" ++ toString span.start.column ++ "\n" ++
      gutter ++ "|\n" ++
      number ++ " | " ++ String.ofList line ++ "\n" ++
      gutter ++ "| " ++ repeated ' ' (span.start.column - 1) ++
      repeated '^' (caretCount span line.length)

/-- An error with its place. -/
def Error.show (e : Error) (source filename : String) : String :=
  context e.message e.span source filename Severity.error.name

/-- A warning with its place. -/
def Warning.show (w : Warning) (source filename : String) : String :=
  context w.message w.span source filename Severity.warning.name

/-- The calls that were open when a message arose, outermost first, or nothing. -/
def chain (calls : List String) : String :=
  if calls.isEmpty then ""
  else "\n  in expansion chain: " ++ intercalate " -> " (calls.map ("." ++ ·))

end Livedoc.Problem
