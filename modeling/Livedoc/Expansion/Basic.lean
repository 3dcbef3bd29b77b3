import Livedoc.Document.Reading
import Livedoc.Environment.Block
import Livedoc.Expansion.Builtin

/-!
# Steps of expansion

A step of expansion works on an environment: it changes it and gives a result or a
failure. A failure keeps the environment as it is at that moment, so whoever entered
a block on the way has to leave it.

A block is entered and left around another step, and it is left whether that step
failed or not. Isolated work is a step on a copy of the environment.
-/

namespace Livedoc

open Livedoc.Problem Livedoc.Source Livedoc.Tree

/-- A step of expansion. -/
abbrev Expansion := ExceptT Failure (StateM Environment)

/-- Expands nodes. -/
abbrev Expander := List Node → Expansion (List Node)

namespace Expansion

variable {α : Type}

/-- Changes the store. -/
def update (f : Store → Store) : Expansion Unit := fun e => (.ok (), e.mapStore f)

/-- Looks at the environment. -/
def inspect (f : Environment → α) : Expansion α := fun e => (.ok (f e), e)

/-- Records a warning. -/
def warn (message : String) (kind : WarningKind) (span : Span) : Expansion Unit :=
  update (·.warn ⟨message, kind, span⟩)

/-- The raw text of a named argument of the innermost call. -/
def named? (key : String) : Expansion (Option String) := inspect (·.setting.named.get? key)

/-- Looks for the file that an include names. A file that is there but cannot be read
breaks the expansion off. -/
def findFile (path : String) (span : Span) : Expansion (Option (Path × String)) := fun e =>
  let asked := e.mapStore (·.askFor (e.setting.files.unknown (e.setting.candidates path)))
  match e.setting.searchInclude path with
  | .found resolved text => (.ok (some (resolved, text)), asked)
  | .missing => (.ok none, asked)
  | .unreadable reason => (.error ⟨.unreadable reason, span, e.setting.source, []⟩, asked)

/-- A step within a block. -/
def inBlock (o : Opening) (step : Expansion α) : Expansion α := fun e =>
  match e.enter o with
  | .error f => (.error f, e)
  | .ok (inner, block) =>
    let (result, after) := step inner
    (result, after.leave block)

/-- A step on a copy of the environment. Of what it does the messages are kept, if it
did not fail. -/
def inIsolation (step : Expansion α) : Expansion α := fun e =>
  let (result, copy) := step e.clone
  match result with
  | .ok a => (.ok a, e.mapStore (·.adopt copy.store))
  | .error f => (.error f, e.mapStore fun s => { s with inquiry := copy.store.inquiry })

end Expansion

/-! ## Arguments -/

/-- The text of an argument. Calls and references in it are expanded; a text without
a dot holds none. -/
def resolveText (expand : Expander) (raw : String) : Expansion String :=
  if raw.toList.contains '.' then do return Node.textOf (← expand (Document.readLine raw))
  else pure raw

end Livedoc
