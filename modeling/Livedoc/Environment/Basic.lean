import Livedoc.Dictionary
import Livedoc.Environment.Files
import Livedoc.Moment
import Livedoc.Problem.Issue
import Livedoc.Tree.Node

/-!
# Environments

Expansion needs to know where it takes place and what has happened so far. The
first is the *setting*: the source and its file, the files that can be included,
the limits, and the calls and includes that are open with the named arguments of
the innermost call. It changes where a call or a file is entered, and is brought
back where it is left. The second is the *store*: variables, metadata, functions
and the messages found. It goes from one step to the next.

Variables live in frames. A call of a function opens a frame; setting a variable
writes to the innermost frame, or to the globals if no frame is open. Looking a
variable up sees the innermost frame and the globals, and none of the frames
between them.
-/

namespace Livedoc

open Livedoc.Problem Livedoc.Tree

/-- What expansion may use up at most. Under a negative limit nothing may be used. -/
structure Limits where
  /-- Calls that are open at a time. -/
  callDepth : Int := 64
  /-- Files that are open at a time, the document itself included. -/
  includeDepth : Int := 16
  /-- Rounds of one repetition. -/
  iterations : Int := 1000
deriving DecidableEq, Repr

/-- A function that the document defines. -/
structure Function where
  name : String
  /-- The parameters that take the arguments in order. -/
  parameters : List String
  /-- The parameters that take named arguments only. -/
  named : List String
  body : List Node

/-- Variables by name. -/
abbrev Frame := Dictionary Value

/-- Where expansion takes place. -/
structure Setting where
  source : String
  filename : String
  /-- The folder that includes are looked for in first. -/
  folder : Path
  /-- Further folders for includes. -/
  includePaths : List Path
  files : Files
  limits : Limits
  /-- The named arguments of the innermost call. -/
  named : Dictionary String := []
  /-- The names of the open calls, outermost first. -/
  calls : List String := []
  /-- The resolved paths of the open files, outermost first. -/
  includes : List Path := []

/-- What has happened so far. -/
structure Store where
  /-- The global variables. -/
  globals : Frame := []
  /-- The open frames, innermost first. -/
  frames : List Frame := []
  metadata : Dictionary String := []
  functions : Dictionary Function := []
  report : Report := {}
  /-- What could not be found out. -/
  inquiry : Inquiry := {}

/-- A setting with a store. -/
structure Environment where
  setting : Setting
  store : Store

namespace Setting

/-- The setting within a call. -/
def enterCall (s : Setting) (name : String) (named : Dictionary String) : Setting :=
  { s with calls := s.calls ++ [name], named }

/-- The setting with another source, read from the file at a resolved path. -/
def reading (s : Setting) (path : Path) (source : String) : Setting :=
  { s with source, filename := path.toText, folder := path.parent }

/-- The paths under which an included file is looked for. -/
def candidates (s : Setting) (path : String) : List Path :=
  (s.folder :: s.includePaths).map fun folder => folder.join (.ofText path)

/-- Looks for the file that an include names. -/
def searchInclude (s : Setting) (path : String) : Finding := s.files.search (s.candidates path)

end Setting

namespace Store

/-- The value of a variable. -/
def lookup (s : Store) (name : String) : Option Value :=
  ((s.frames.head?).bind fun frame => frame.get? name).or (s.globals.get? name)

/-- Sets a variable. -/
def assign (s : Store) (name : String) (value : Value) : Store :=
  match s.frames with
  | [] => { s with globals := s.globals.set name value }
  | frame :: outer => { s with frames := frame.set name value :: outer }

/-- Opens a frame. -/
def push (s : Store) (frame : Frame) : Store := { s with frames := frame :: s.frames }

/-- Closes the innermost frame. -/
def pop (s : Store) : Store := { s with frames := s.frames.tail }

/-- One more warning. -/
def warn (s : Store) (w : Warning) : Store :=
  { s with report := { s.report with warnings := s.report.warnings ++ [w] } }

/-- Further errors. -/
def failAll (s : Store) (es : List Error) : Store :=
  { s with report := { s.report with errors := s.report.errors ++ es } }

/-- One more error. -/
def fail (s : Store) (e : Error) : Store := s.failAll [e]

/-- Sets a piece of metadata. -/
def record (s : Store) (key value : String) : Store :=
  { s with metadata := s.metadata.set key value }

/-- Defines a function under its name. -/
def define (s : Store) (f : Function) : Store :=
  { s with functions := s.functions.set f.name f }

/-- Notes paths of which nothing is known. -/
def askFor (s : Store) (paths : List Path) : Store :=
  { s with inquiry := { s.inquiry with unknown := s.inquiry.unknown ++ paths } }

/-- Notes why expansion ended. -/
def giveUp (s : Store) (reason : String) : Store :=
  { s with inquiry := { s.inquiry with unreadable := some reason } }

/-- A copy for isolated work: the variables of all frames become global, inner
frames overriding outer ones. -/
def clone (s : Store) : Store :=
  { s with globals := s.frames.foldr (fun frame all => all.setAll frame) s.globals, frames := [] }

/-- The store with what was found out by work on a copy of it: the messages that the
copy has more, and its inquiry. -/
def adopt (s copy : Store) : Store :=
  { s with report := s.report.extend copy.report, inquiry := copy.inquiry }

end Store

namespace Environment

/-- A fresh environment for a source. Its variables are the constants of the moment
and the given ones. -/
def create (source filename : String) (folder : Option Path) (includePaths : List Path)
    (files : Files) (limits : Limits) (bindings : Frame) (now : Moment) : Environment where
  setting :=
    { source, filename, includePaths, files, limits
      folder := folder.getD (Path.ofText filename).parent
      includes := if filename = "" then [] else [files.folder.resolve (.ofText filename)] }
  store := { globals := Dictionary.setAll now.constants bindings }

/-- The environment with a changed store. -/
def mapStore (e : Environment) (f : Store → Store) : Environment := { e with store := f e.store }

/-- A copy for isolated work. -/
def clone (e : Environment) : Environment := e.mapStore (·.clone)

end Environment

end Livedoc
