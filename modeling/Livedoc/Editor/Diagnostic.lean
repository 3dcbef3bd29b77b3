import Livedoc.Compilation
import Livedoc.Source.Span

/-!
# Diagnostics for an editor

An editor shows the errors and the warnings of a compilation at their places, the
errors first.

It counts lines and characters from zero, and a range of it never ends before it
starts. A span that is not known becomes the empty range at the start of the text.
-/

namespace Livedoc.Editor

open Livedoc.Source

/-- A place in an edited text, both numbers counted from zero. -/
structure Place where
  line : Int
  character : Int
deriving DecidableEq, Repr

/-- A stretch of an edited text. -/
structure Range where
  start : Place
  stop : Place
deriving DecidableEq, Repr

/-- Whether a place comes before another one. -/
def Place.before (p q : Place) : Bool :=
  p.line < q.line || (p.line == q.line && p.character < q.character)

/-- The place of a position. -/
def Place.ofPosition (p : Position) : Place := ⟨(p.line : Int) - 1, (p.column : Int) - 1⟩

/-- The range of a span. One that would end before it starts is empty. -/
def Range.ofSpan (s : Span) : Range :=
  if s.isKnown then
    let start := Place.ofPosition s.start
    let stop := Place.ofPosition s.stop
    ⟨start, if stop.before start then start else stop⟩
  else ⟨⟨0, 0⟩, ⟨0, 0⟩⟩

/-! ## Diagnostics -/

open Livedoc.Problem

/-- A message at a place of an edited text. -/
structure Diagnostic where
  range : Range
  message : String
  severity : Severity
deriving DecidableEq, Repr

/-- The name under which an editor shows the messages. -/
def diagnosticSource : String := "dotdown"

/-- The number by which an editor knows a severity. -/
def severityNumber : Severity → Nat
  | .error => 1
  | .warning => 2

/-- An issue as a diagnostic. -/
def Diagnostic.ofIssue {κ : Type} (severity : Severity) (issue : Issue κ) : Diagnostic :=
  ⟨.ofSpan issue.span, issue.message, severity⟩

/-- The diagnostics of a compilation. -/
def diagnostics (c : Compilation) : List Diagnostic :=
  c.report.errors.map (.ofIssue .error) ++ c.report.warnings.map (.ofIssue .warning)

end Livedoc.Editor
