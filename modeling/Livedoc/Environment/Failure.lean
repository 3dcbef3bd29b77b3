import Livedoc.Environment.Basic
import Livedoc.Problem.Context

/-!
# Failures

Expansion breaks off where it would go too deep, or round in circles, or where a
file cannot be read. A failure says why, where, and in which source; if calls went
too deep, also through which calls. A file that cannot be read ends the whole work,
any other failure only what it happened in.
-/

namespace Livedoc

open Livedoc.Problem Livedoc.Source

/-- Why expansion broke off. -/
inductive FailureCause where
  /-- As many calls as allowed are open. -/
  | callDepth (limit : Int)
  /-- As many files as allowed are open. -/
  | includeDepth (limit : Int)
  /-- The file is open already. -/
  | circularInclude (path : String)
  /-- The file is there but cannot be read. -/
  | unreadable (reason : String)
deriving DecidableEq, Repr

/-- What a cause says. -/
def FailureCause.message : FailureCause → String
  | .callDepth limit => "call depth limit (" ++ toString limit ++ ") exceeded"
  | .includeDepth limit => "include depth limit (" ++ toString limit ++ ") exceeded"
  | .circularInclude path => "circular include detected: " ++ path
  | .unreadable reason => reason

/-- Whether a cause ends the whole work. -/
def FailureCause.isFatal : FailureCause → Bool
  | .unreadable _ => true
  | _ => false

/-- Why and where expansion broke off. -/
structure Failure where
  cause : FailureCause
  span : Span
  /-- The source that the span is about. -/
  source : String
  /-- The open calls, if their number is the cause. -/
  calls : List String := []
deriving DecidableEq, Repr

namespace Failure

/-- What the failure says. -/
def message (f : Failure) : String := f.cause.message

/-- The failure as an error of the document. -/
def toError (f : Failure) : Error := ⟨f.message, .semantic, f.span⟩

end Failure

/-- The failure with its place and its calls. -/
def Failure.show (f : Failure) (filename : String) : String :=
  context f.message f.span f.source filename Severity.error.name ++ chain f.calls

namespace Setting

/-- The setting within one more call, unless as many as allowed are open. -/
def call (s : Setting) (name : String) (named : Dictionary String) (span : Span) :
    Except Failure Setting :=
  if s.calls.length ≥ s.limits.callDepth then
    .error ⟨.callDepth s.limits.callDepth, span, s.source, s.calls⟩
  else .ok (s.enterCall name named)

/-- The setting with one more open file, unless as many as allowed are open or the
file is one of them. `display` is the path as the document spells it. -/
def including (s : Setting) (path : Path) (display : String) (span : Span) :
    Except Failure Setting :=
  if s.includes.length ≥ s.limits.includeDepth then
    .error ⟨.includeDepth s.limits.includeDepth, span, s.source, []⟩
  else if s.includes.contains path then .error ⟨.circularInclude display, span, s.source, []⟩
  else .ok { s with includes := s.includes ++ [path] }

end Setting

end Livedoc
