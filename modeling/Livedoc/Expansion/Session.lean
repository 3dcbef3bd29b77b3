import Livedoc.Expansion.Nodes

/-!
# Sessions

A session works on several environments step by step. One environment is current;
cloning it makes a new one, and any of them can be made current. A step may enter a
block: a frame, a call, or a file. The block that was entered last, in whichever
environment, is the one that is left first. A step that fails enters nothing.
-/

namespace Livedoc

open Livedoc.Problem Livedoc.Source Livedoc.Tree

/-- Environments that are worked on. -/
structure Session where
  /-- The environments in the order of their making. -/
  environments : List Environment
  /-- The number of the current one. -/
  current : Nat
  /-- The open blocks with the number of their environment, innermost first. -/
  blocks : List (Nat × OpenBlock) := []

/-- A step of a session. -/
inductive Step where
  | assign (name : String) (value : Value)
  | lookup (name : String)
  | openFrame (frame : Frame)
  | openCall (name : String) (named : Dictionary String) (span : Span)
  | openFile (path : Path) (display : String) (span : Span)
  | close
  | named (name : String) (default : Option String)
  | resolve (text : Option String) (default : String)
  | find (path : String)
  | holds (condition : String)
  | count (text : String) (span : Span)
  | warn (w : Warning)
  | fail (e : Error)
  | run (source : String)
  | expand (nodes : List Node)
  | document (d : Document)
  | clone
  | use (index : Nat)

/-- What a step answers. -/
inductive StepAnswer where
  | done
  | value (v : Option Value)
  | text (s : Option String)
  | file (found : Option (Path × String))
  | truth (b : Bool)
  | number (n : Nat)
  | nodes (ns : List Node)
  | failure (f : Failure)
  /-- There is no environment of that number. -/
  | noEnvironment

namespace Environment

/-- Runs a step of expansion and answers with its result. -/
def answer {α : Type} (e : Environment) (step : Expansion α) (f : α → StepAnswer) :
    StepAnswer × Environment :=
  match step e with
  | (.ok a, e) => (f a, e)
  | (.error failure, e) => (.failure failure, e)

/-- Enters a block. -/
def opened (e : Environment) (o : Opening) : StepAnswer × Environment × Option OpenBlock :=
  match e.enter o with
  | .ok (e, block) => (.done, e, some block)
  | .error f => (.failure f, e, none)

/-- The text of an argument in an environment. -/
def resolved (raw : Option String) (default : String) : Expansion String :=
  match raw with
  | some raw => resolveText expandNodes raw
  | none => pure default

/-- What a step does to its environment, with the block that it opens. -/
def step (e : Environment) : Step → StepAnswer × Environment × Option OpenBlock
  | .assign name value => (.done, e.mapStore (·.assign name value), none)
  | .lookup name => (.value (e.store.lookup name), e, none)
  | .openFrame frame => e.opened (.frame frame)
  | .openCall name named span => e.opened (.call name named span)
  | .openFile path display span => e.opened (.file path display span)
  | .named name default =>
    match e.setting.named.get? name with
    | some raw =>
      let (a, e) := e.answer (resolveText expandNodes raw) (fun s => .text (some s))
      (a, e, none)
    | none => (.text default, e, none)
  | .resolve text default =>
    let (a, e) := e.answer (resolved text default) (fun s => .text (some s))
    (a, e, none)
  | .find path =>
    match e.setting.searchInclude path with
    | .found path text => (.file (some (path, text)), e, none)
    | _ => (.file none, e, none)
  | .holds condition => (.truth (e.store.holds condition), e, none)
  | .count text span =>
    let (a, e) := e.answer (iterationCount text span) (.number ·.toNat)
    (a, e, none)
  | .warn w => (.done, e.mapStore (·.warn w), none)
  | .fail error => (.done, e.mapStore (·.fail error), none)
  | .run source =>
    let (a, e) := e.answer (expandNodes (Document.read source).result.children) .nodes
    (a, e, none)
  | .expand nodes =>
    let (a, e) := e.answer (expandNodes nodes) .nodes
    (a, e, none)
  | .document d =>
    let (d, e) := e.expand d
    (.nodes d.children, e, none)
  | .close | .clone | .use _ => (.done, e, none)

end Environment

namespace Session

/-- A session with one environment. -/
def start (e : Environment) : Session := { environments := [e], current := 0 }

/-- The current environment. -/
def environment? (s : Session) : Option Environment := s.environments[s.current]?

/-- The session with a changed environment. -/
def modify (s : Session) (index : Nat) (f : Environment → Environment) : Session :=
  { s with environments := s.environments.modify index f }

/-- Closes the block that was opened last. -/
def close (s : Session) : Session :=
  match s.blocks with
  | [] => s
  | (index, block) :: outer => { s.modify index (·.leave block) with blocks := outer }

/-- Takes a step. -/
def step (s : Session) (step : Step) : StepAnswer × Session :=
  match s.environment? with
  | none => (.noEnvironment, s)
  | some e =>
    match step with
    | .close => (.done, s.close)
    | .clone =>
      (.number s.environments.length, { s with environments := s.environments ++ [e.clone] })
    | .use index =>
      if index < s.environments.length then (.done, { s with current := index })
      else (.noEnvironment, s)
    | step =>
      let (answer, e, block) := e.step step
      let s := s.modify s.current fun _ => e
      (answer, { s with blocks := (block.map fun b => (s.current, b)).toList ++ s.blocks })

end Session

end Livedoc
