import Livedoc.Decimal.Power
import Livedoc.Expansion.Control
import Livedoc.Expansion.ParameterLine

/-!
# What functions do

The content that a call of a function stands for. A built-in function may give
nodes that still hold calls and references; whoever runs it expands them within
the same call. Arguments are expanded when they are asked for, in the order in
which they are asked for.

A function of the document sees its parameters as variables in a frame of its own.
-/

namespace Livedoc

open Livedoc.Decimal Livedoc.Problem Livedoc.Source Livedoc.Text Livedoc.Tree

/-- The names of document types. -/
def documentTypes : List String := ["slides", "paged", "plain"]

/-- A call that is being run. -/
structure Invocation where
  name : String
  arguments : List Argument
  named : List NamedArgument
  body : List Node
  span : Span

namespace Invocation

/-- The named arguments by key. Of two with one key the later counts. -/
def namedTexts (c : Invocation) : Dictionary String :=
  c.named.foldl (fun d a => d.set a.name a.value.content) []

/-- Where the first argument stands. -/
def firstSpan (c : Invocation) : Span := ((c.arguments.head?).map (·.span)).getD .unknown

end Invocation

/-- The text of an argument, empty if there is none. -/
def argumentText (expand : Expander) (c : Invocation) (index : Nat) : Expansion String :=
  match c.arguments[index]? with
  | some a => resolveText expand a.content
  | none => pure ""

/-- The text of a named argument of the innermost call. -/
def namedText? (expand : Expander) (key : String) : Expansion (Option String) := do
  match ← Expansion.named? key with
  | some raw => return some (← resolveText expand raw)
  | none => return none

/-- A text as a number, `default` if it is none. -/
def numberOr (default : Float) (text : String) : Float := (parseNumber? text).getD default

/-- A named argument as a number. -/
def namedNumber (expand : Expander) (key : String) (default : Float) : Expansion Float := do
  return ((← namedText? expand key).map (numberOr default)).getD default

/-- A text without white space at its ends. -/
def strippedArgument (expand : Expander) (c : Invocation) (index : Nat) : Expansion String := do
  return strip (← argumentText expand c index)

/-- A number as content. -/
def numberNodes (x : Float) : List Node := [.text (formatNumber x) .unknown]

/-- The word `start`, unless another one is given. -/
def alignmentWord (given : Option String) : String :=
  match given with
  | some word => if word = "" then "start" else word
  | none => "start"

/-- The number of columns of a grid, at least one. -/
def columnCount (x : Float) : Int :=
  match Binary.ofFloat x with
  | .finite .. => max 1 (Decimal.truncate (.ofFloat x))
  | _ => 2

/-- A number with the places that an argument asks for; a body without a number
stays. -/
def truncateBody (places : Float) (expanded : List Node) : List Node :=
  match parseNumber? (strip (Node.textOf expanded)) with
  | some x => [.text (formatFixed x (Decimal.truncate (.ofFloat places))) .unknown]
  | none => expanded

/-- Changes the texts among nodes. -/
def mapTexts (f : String → String) (nodes : List Node) : List Node :=
  nodes.map fun n => match n with
    | .text content span => .text (f content) span
    | n => n

/-- Sets a piece of metadata to the first argument. -/
def setMetadata (expand : Expander) (key : String) (c : Invocation) : Expansion (List Node) := do
  let value ← strippedArgument expand c 0
  Expansion.update (·.record key value)
  return []

/-- The content of an included file. -/
def fileNodes (expand : Expander) (c : Invocation) (path : Path) (display source : String) :
    Expansion (List Node) :=
  let parsed := Document.read source
  let mistakes := parsed.mistakes.map fun m =>
    ⟨path.name ++ ": " ++ m.message, .malformed, c.firstSpan⟩
  Expansion.inBlock (.file path display c.firstSpan) <| Expansion.inBlock (.source path source) do
    Expansion.update (·.failAll mistakes)
    expand parsed.result.children

/-- The content of the file that the first argument names. -/
def includeFile (expand : Expander) (c : Invocation) : Expansion (List Node) := do
  let path ← strippedArgument expand c 0
  if path = "" then
    Expansion.warn "include requires a path" .style c.firstSpan
    return []
  match ← Expansion.findFile path c.firstSpan with
  | none =>
    Expansion.warn ("Included file not found: " ++ path) .style c.firstSpan
    return [.text ("[missing include: " ++ path ++ "]") c.firstSpan]
  | some (resolved, source) =>
    let isolated := (← namedText? expand "isolated").getD ""
    let content := fileNodes expand c resolved path source
    if isTruthyText isolated then Expansion.inIsolation content else content

/-- Defines a function. -/
def define (expand : Expander) (c : Invocation) : Expansion (List Node) := do
  let name ← strippedArgument expand c 0
  if name = "" then
    Expansion.warn "function requires a name" .style c.firstSpan
    return []
  let p := Parameters.split c.body
  if (Builtin.ofName? name).isSome then
    Expansion.warn ("Function " ++ name ++ " shadows a built-in function") .style c.firstSpan
  Expansion.update (·.define ⟨name, p.positional, p.named, p.rest⟩)
  return []

/-- The content that a call of a built-in function gives. -/
def Builtin.run (expand : Expander) (c : Invocation) : Builtin → Expansion (List Node)
  | .row => do
    let alignment ← namedText? expand "alignment"
    let gap ← namedText? expand "gap"
    return [.row c.body (alignmentWord alignment) gap .unknown]
  | .column => do
    let alignment ← namedText? expand "cross"
    let gap ← namedText? expand "gap"
    return [.column c.body (alignmentWord alignment) gap .unknown]
  | .grid => do
    let columns ← namedNumber expand "columns" 2
    let gap ← namedText? expand "gap"
    return [.grid c.body (columnCount columns) gap .unknown]
  | .center => return [.center c.body .unknown]
  | .add => do
    let x := numberOr 0 (← argumentText expand c 0)
    return numberNodes (x + (← namedNumber expand "to" 0))
  | .multiply => do
    let x := numberOr 0 (← argumentText expand c 0)
    return numberNodes (x * (← namedNumber expand "by" 1))
  | .pow => do
    let x := numberOr 0 (← argumentText expand c 0)
    return numberNodes (power x (← namedNumber expand "to" 1))
  | .truncate => do
    let places := numberOr 0 (← argumentText expand c 0)
    return truncateBody places (← expand c.body)
  | .conditional => do
    match c.arguments.head? with
    | none => return []
    | some condition =>
      if (← Expansion.inspect (·.store.holds condition.content)) then return c.body else return []
  | .repetition => do
    let rounds ← iterationCount (← argumentText expand c 0) c.firstSpan
    repeatBody expand c.body "_index" rounds
  | .variable => do
    let name ← strippedArgument expand c 0
    if name = "" then
      Expansion.warn "var requires a variable name" .style c.firstSpan
      return []
    let value ← argumentText expand c 1
    Expansion.update (·.assign name (.text value))
    return []
  | .upper => return mapTexts toUpper (← expand c.body)
  | .lower => return mapTexts toLower (← expand c.body)
  | .documentName => setMetadata expand "title" c
  | .documentAuthor => setMetadata expand "author" c
  | .documentLanguage => setMetadata expand "language" c
  | .documentType => do
    let value ← strippedArgument expand c 0
    if !documentTypes.contains value then
      Expansion.warn
        ("Unknown doctype: " ++ value ++ " (expected one of " ++ intercalate ", " documentTypes ++ ")")
        .style c.firstSpan
    Expansion.update (·.record "doctype" value)
    return []
  | .theme => do
    let value ← strippedArgument expand c 0
    Expansion.update (·.record "theme" value)
    match ← namedText? expand "layout" with
    | some layout =>
      if layout != "" then
        Expansion.update (·.record "layout" (strip layout))
    | none => pure ()
    return []
  | .inclusion => includeFile expand c
  | .definition => define expand c

namespace Function

/-- The variables for the parameters that take arguments in order. -/
def bindPositional (expand : Expander) (c : Invocation) :
    Nat → List String → Frame → Expansion Frame
  | _, [], frame => return frame
  | index, p :: rest, frame => do
    let value ← argumentText expand c index
    bindPositional expand c (index + 1) rest (frame.set p (.text value))

/-- The variables for the parameters that are given as named arguments. -/
def bindNamed (expand : Expander) : List String → Frame → Expansion Frame
  | [], frame => return frame
  | p :: rest, frame => do
    match ← namedText? expand p with
    | some value => bindNamed expand rest (frame.set p (.text value))
    | none => bindNamed expand rest frame

/-- The content that a call of a function of the document gives. Parameters that
take named arguments only are empty where none is given. -/
def run (expand : Expander) (c : Invocation) (f : Function) : Expansion (List Node) := do
  let frame ← bindPositional expand c 0 f.parameters []
  let frame ← bindNamed expand (f.parameters ++ f.named) frame
  let frame := f.named.foldl
    (fun frame p => if (frame.get? p).isSome then frame else frame.set p (.text "")) frame
  Expansion.inBlock (.frame frame) (expand f.body)

end Function

end Livedoc
