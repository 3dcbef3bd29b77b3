import Livedoc.Source.Span

/-!
# Issues

What went wrong, or looks wrong, in a document is collected in issues: a message,
a kind and the place in the source. An error has one of three kinds and a warning
one of three others; neither stops the work by itself.
-/

namespace Livedoc.Problem

open Livedoc.Source

/-- The kinds of errors. -/
inductive ErrorKind where
  /-- The text cannot be read as meant. -/
  | malformed
  /-- The document asks for something that cannot be done. -/
  | semantic
  /-- The work broke off. -/
  | runtime
deriving DecidableEq, Repr

/-- The kinds of warnings. -/
inductive WarningKind where
  | deprecation
  | performance
  | style
deriving DecidableEq, Repr

/-- A message about a place in the source. -/
structure Issue (κ : Type) where
  /-- What is the matter. -/
  message : String
  /-- Of which kind it is. -/
  kind : κ
  /-- Where it is; unknown if it has no place. -/
  span : Span := .unknown
deriving DecidableEq, Repr

/-- An error. -/
abbrev Error := Issue ErrorKind

/-- A warning. -/
abbrev Warning := Issue WarningKind

/-- The name of a kind of errors. -/
def ErrorKind.name : ErrorKind → String
  | .malformed => "syntax"
  | .semantic => "semantic"
  | .runtime => "runtime"

/-- The name of a kind of warnings. -/
def WarningKind.name : WarningKind → String
  | .deprecation => "deprecation"
  | .performance => "performance"
  | .style => "style"

/-- Warnings and errors, each in the order of their discovery. -/
structure Report where
  /-- The warnings. -/
  warnings : List Warning := []
  /-- The errors. -/
  errors : List Error := []
deriving DecidableEq, Repr

/-- A report with the messages that a later one has more. -/
def Report.extend (r later : Report) : Report where
  warnings := r.warnings ++ later.warnings.drop r.warnings.length
  errors := r.errors ++ later.errors.drop r.errors.length

end Livedoc.Problem
