import Livedoc.Command.Arguments
import Livedoc.Compilation

/-!
# Options of a run

What a run of the command does is settled by its arguments and by a configuration
file. Where both say something the arguments win; where a list can be added to, what
the file says comes first. Paths in the file start at the folder of the input.
-/

namespace Livedoc.Command

open Livedoc.Text

/-- Limits as a configuration gives them. None of them is negative. -/
structure ConfiguredLimits where
  callDepth : Nat
  includeDepth : Nat
  iterations : Nat

/-- The limits of expansion. -/
def ConfiguredLimits.toLimits (l : ConfiguredLimits) : Limits where
  callDepth := l.callDepth
  includeDepth := l.includeDepth
  iterations := l.iterations

/-- What a run of the command does. -/
structure Options where
  input : Path
  /-- Where the HTML goes if it does not go to the standard output. -/
  output : Option Path
  documentType : Option String
  theme : Option String
  standalone : Bool
  strict : Bool
  includePaths : List Path
  bindings : Dictionary Datum
  stylesheets : List String
  scripts : List String
  properties : List (String × String)
  limits : ConfiguredLimits
  watch : Bool
  /-- Whether the outline of the expanded document is shown. -/
  debug : Bool

/-- What is wrong with arguments or a configuration. -/
inductive OptionError where
  /-- A variable without an equals sign. -/
  | variableFormat (argument : String)
  /-- A name for the head of the page without an equals sign. -/
  | propertyFormat (argument : String)
  /-- A limit that is no number to count with. -/
  | limit (key : String) (d : Datum)

/-- What an error says. -/
def OptionError.message : OptionError → String
  | variableFormat s => "invalid variable format (expected NAME=VALUE): " ++ s
  | propertyFormat s => "invalid meta format (expected NAME=VALUE): " ++ s
  | limit key d => "[compile] " ++ key ++ " must be a non-negative integer, got " ++ d.quoted

/-- A table of a configuration. -/
abbrev Table := Dictionary Datum

namespace Table

/-- A table within a table; empty if there is none. -/
def table (t : Table) (key : String) : Table :=
  match t.get? key with
  | some (.table entries) => entries
  | _ => []

/-- A list within a table; empty if there is none. -/
def list (t : Table) (key : String) : List Datum :=
  match t.get? key with
  | some (.list items) => items
  | _ => []

/-- A text within a table, if one is given. -/
def text? (t : Table) (key : String) : Option String :=
  ((t.get? key).filter Datum.isGiven).map Datum.toText

/-- A limit within a table. -/
def limit (t : Table) (key : String) (default : Nat) : Except OptionError Nat :=
  match t.get? key with
  | none => .ok default
  | some (.integer n) => if n < 0 then .error (.limit key (.integer n)) else .ok n.toNat
  | some d => .error (.limit key d)

end Table

/-- The name and the value in an argument such as `name=value`. -/
def assignment? (s : String) : Option (String × String) :=
  match splitValue s.toList with
  | (name, some value) => some (String.ofList name, String.ofList value)
  | (_, none) => none

/-- The names and values in several arguments. -/
def assignments (error : String → OptionError) (arguments : List String) :
    Except OptionError (List (String × String)) :=
  arguments.mapM fun s =>
    match assignment? s with
    | some pair => .ok pair
    | none => .error (error s)

/-- The name that a configuration file has where none is given. -/
def configName : String := "dotdown.toml"

/-- The path that a text spells, unless it is empty. -/
def givenPath? (s : Option String) : Option Path := (s.filter (· != "")).map .ofText

/-- Where the configuration file is looked for. -/
def configPath (a : Arguments) (input : Path) : Path :=
  (givenPath? a.config).getD (input.parent.join (.ofText configName))

/-- The limits of a configuration. -/
def limitsOf (section? : Table) : Except OptionError ConfiguredLimits := do
  let defaults : Limits := {}
  let callDepth ← section?.limit "max_call_depth" defaults.callDepth.toNat
  let includeDepth ← section?.limit "max_include_depth" defaults.includeDepth.toNat
  let iterations ← section?.limit "max_iterations" defaults.iterations.toNat
  return ⟨callDepth, includeDepth, iterations⟩

namespace Options

/-- What a run does, given its arguments, its input and its configuration. -/
def resolve (a : Arguments) (input : Path) (config : Table) : Except OptionError Options := do
  let settings := config.table "compile"
  let bindings ← assignments .variableFormat a.assignments
  let properties ← assignments .propertyFormat a.properties
  let limits ← limitsOf settings
  return {
    input
    output := givenPath? a.output
    documentType := (a.documentType.filter (· != "")).or (settings.text? "doctype")
    theme := (a.theme.filter (· != "")).or (settings.text? "theme")
    standalone := !a.fragment
    strict := a.strict || (settings.get? "strict").any Datum.isGiven
    includePaths :=
      (settings.list "include_paths").map (fun d => input.parent.join (.ofText d.toText)) ++
        a.includePaths.map .ofText
    bindings :=
      Dictionary.setAll (config.table "variables")
        (bindings.map fun (name, value) => (name, .text value))
    stylesheets := ((config.table "css").list "files").map Datum.toText ++ a.stylesheets
    scripts := ((config.table "js").list "files").map Datum.toText ++ a.scripts
    properties := (config.table "meta").map (fun (key, d) => (key, d.toText)) ++ properties
    limits
    watch := a.watch
    debug := a.debug }

/-- How the input is compiled. -/
def compileOptions (o : Options) (files : Files) (moment : Moment) : CompileOptions where
  type := o.documentType
  theme := o.theme
  strict := o.strict
  includePaths := o.includePaths
  filename := o.input.toText
  bindings := o.bindings
  standalone := o.standalone
  stylesheets := o.stylesheets
  scripts := o.scripts
  properties := o.properties
  files
  limits := o.limits.toLimits
  moment

end Options

end Livedoc.Command
