import Livedoc.Command.Options
import Livedoc.Disk
import Livedoc.Problem.Context
import Livedoc.Toml.Reading
import Livedoc.Tree.Outline

/-!
# Runs of the command

A run reads its configuration and its input from a disk, compiles the input, reports
what is wrong with it, and hands over the HTML. It does nothing to the disk itself:
its outcome says what is to be shown and what is to be written where. Where the run
has to know more of the disk, the outcome names the paths.

Under watch the input is compiled anew whenever it has changed; each look at it has
an outcome of its own.
-/

namespace Livedoc.Command

open Livedoc.Problem Livedoc.Tree

/-- How a run ends. -/
inductive Ending where
  /-- The run is over, with an exit code. -/
  | exit (code : Nat)
  /-- The arguments do not start a run. -/
  | usage (u : Usage)
  /-- A file that has to be text is none. -/
  | undecodable (e : Text.Utf8Error)
  /-- The run goes on. -/
  | running
deriving DecidableEq, Repr

/-- What a run comes to. -/
structure Outcome where
  ending : Ending
  stdout : String := ""
  stderr : String := ""
  /-- The file to be written, with its text. -/
  written : Option (Path × String) := none
  /-- Paths of which the run has to know what is there. -/
  unknown : List Path := []
deriving DecidableEq, Repr

namespace Outcome

/-- The outcome of a run that cannot be done. -/
def failed (message : String) : Outcome :=
  { ending := .exit 2, stderr := "error: " ++ message ++ "\n" }

/-- The outcome of a run that has to know more. -/
def asking (paths : List Path) : Outcome := { ending := .running, unknown := paths }

end Outcome

/-- The errors and warnings of a compilation with their places, errors first. -/
def reportOf (c : Compilation) (source filename : String) : String :=
  String.join (c.report.errors.map fun e => Error.show e source filename ++ "\n") ++
    String.join (c.report.warnings.map fun w => Warning.show w source filename ++ "\n")

/-- The outline of the document, if it is asked for. -/
def debugText (o : Options) (c : Compilation) : String :=
  if o.debug then (c.document.map Document.outline).getD "" else ""

/-- The outcome of compiling a source. No HTML is handed over where there is none. -/
def compileSource (o : Options) (d : Disk) (moment : Moment) (source : String) : Outcome :=
  let c := compile source (o.compileOptions d.files moment)
  let stderr := debugText o c ++ reportOf c source o.input.toText
  let ending := .exit (if c.isOk then 0 else 1)
  if c.html = "" then { ending, stderr, unknown := c.unknown }
  else
    match o.output with
    | some path => { ending, stderr, written := some (path, c.html), unknown := c.unknown }
    | none => { ending, stderr, stdout := c.html, unknown := c.unknown }

/-- The outcome of compiling the input. -/
def compileInput (o : Options) (d : Disk) (moment : Moment) : Outcome :=
  match d.read? o.input with
  | none => .asking [o.input]
  | some (.failed e) => .failed e.message
  | some (.undecodable e) => { ending := .undecodable e }
  | some (.text source) => compileSource o d moment source

/-! ## Watching -/

/-- A run that goes on. -/
structure Watching where
  options : Options
  /-- When the input was last changed, as far as the run has seen. -/
  seen : Option Nat := none

namespace Watching

/-- What a run shows when it starts to watch. -/
def greeting (w : Watching) : String :=
  "Watching " ++ w.options.input.toText ++ " for changes...\n"

/-- Looks at the input once. `changed` tells when it was last changed, if it is
there. -/
def look (w : Watching) (changed : Option Nat) (d : Disk) (moment : Moment) : Watching × Outcome :=
  if changed.isNone || changed = w.seen then (w, { ending := .running })
  else
    let after := { w with seen := changed }
    let outcome := compileInput w.options d moment
    match outcome.ending with
    | .exit 2 | .running => (after, { outcome with ending := .running })
    | .exit _ =>
      let stderr := outcome.stderr ++ "Compiled " ++ w.options.input.toText ++ "\n"
      (after, { outcome with ending := .running, stderr })
    | _ => (after, outcome)

end Watching

/-! ## Starting -/

/-- How a run begins. -/
inductive Start where
  /-- It is over at once. -/
  | finished (o : Outcome)
  /-- It watches its input. -/
  | watching (w : Watching)

/-- What came of reading a configuration. -/
inductive Configuration where
  | read (t : Table)
  /-- The file cannot be read as a configuration. -/
  | malformed
  | undecodable (e : Text.Utf8Error)
  | unknown

/-- The configuration at a path. One that is not there says nothing. -/
def Configuration.find (d : Disk) (path : Path) : Configuration :=
  match d.look path with
  | none => .unknown
  | some (.file octets) =>
    match Text.decodeUtf8 octets with
    | .error e => .undecodable e
    | .ok cs =>
      match Toml.read? (String.ofList cs) with
      | some t => .read t
      | none => .malformed
  | some _ => .read []

/-- Begins a run with options that are settled. -/
def begin (o : Options) (d : Disk) (moment : Moment) : Start :=
  if o.watch then .watching { options := o } else .finished (compileInput o d moment)

/-- Begins a run with an input. -/
def startWith (a : Arguments) (input : Path) (d : Disk) (moment : Moment) : Start :=
  let path := configPath a input
  match Configuration.find d path with
  | .unknown => .finished (.asking [path])
  | .undecodable e => .finished { ending := .undecodable e }
  | .malformed => .finished (.failed "invalid config file: it cannot be read as TOML")
  | .read config =>
    match Options.resolve a input config with
    | .error e => .finished (.failed e.message)
    | .ok o => begin o d moment

/-- Begins a run of the command. -/
def start (argv : List String) (d : Disk) (moment : Moment) : Start :=
  match Arguments.read argv with
  | .error u => .finished { ending := .usage u }
  | .ok a =>
    if a.listFunctions then .finished { ending := .exit 0, stdout := Builtin.helpAll }
    else
      match a.input with
      | none => .finished (.failed "an input file is required")
      | some input => startWith a (.ofText input) d moment

end Livedoc.Command
