import Livedoc.Expansion.Function

/-!
# Expanding nodes

Expansion replaces every dynamic node by its content: a reference by the text of
its variable, a choice by one of its branches, a repetition by its rounds, and a
call by what its function gives. All other nodes stay, with their children
expanded.

Nodes are expanded by recursion over the tree; what a call means is given from
outside. A call expands nodes that are not below it in the tree, such as the body
of its function, but every call open takes one of the levels that the limit allows.
So the expansion of calls is by recursion on the levels that are left.
-/

namespace Livedoc

open Livedoc.Problem Livedoc.Source Livedoc.Tree

/-- The content that a call stands for. -/
abbrev CallMeaning := Invocation → Expansion (List Node)

/-- The text of a variable; a name without a value is shown as such. -/
def expandReference (name : String) (span : Span) : Expansion (List Node) := do
  match ← Expansion.inspect (·.store.lookup name) with
  | some value => return [.text value.toText span]
  | none =>
    Expansion.warn ("Undefined variable: " ++ name) .style span
    return [.text ("\x7b\x7b" ++ name ++ "\x7d\x7d") span]

namespace Tree.Node

mutual

/-- Expands a node. `onCall` says what calls mean, and `resolve` gives the text of
the count of a repetition. -/
def expandWith (onCall : CallMeaning) (resolve : String → Expansion String) :
    Node → Expansion (List Node)
  | .document cs s => return [.document (← expandAll onCall resolve cs) s]
  | .paragraph cs s => return [.paragraph (← expandAll onCall resolve cs) s]
  | .heading level cs s => return [.heading level (← expandAll onCall resolve cs) s]
  | .list ordered cs start s => return [.list ordered (← expandAll onCall resolve cs) start s]
  | .listItem cs s => return [.listItem (← expandAll onCall resolve cs) s]
  | .blockquote cs quoteType s => return [.blockquote (← expandAll onCall resolve cs) quoteType s]
  | .link url cs title s => return [.link url (← expandAll onCall resolve cs) title s]
  | .emphasis cs strong s => return [.emphasis (← expandAll onCall resolve cs) strong s]
  | .row cs alignment gap s => return [.row (← expandAll onCall resolve cs) alignment gap s]
  | .column cs alignment gap s => return [.column (← expandAll onCall resolve cs) alignment gap s]
  | .grid cs columns gap s => return [.grid (← expandAll onCall resolve cs) columns gap s]
  | .center cs s => return [.center (← expandAll onCall resolve cs) s]
  | .table headers rows alignment s => do
    let heads ← expandCells onCall resolve headers
    let cells ← expandRows onCall resolve rows
    return [.table heads cells alignment s]
  | .call name args named body s => onCall ⟨name, args, named, body, s⟩
  | .reference name s => expandReference name s
  | .conditional condition consequent alternative _ => do
    if (← Expansion.inspect (·.store.holds condition)) then expandAll onCall resolve consequent
    else expandAll onCall resolve alternative
  | .loop count body counter s => do
    let rounds ← iterationCount (← resolve count) s
    repeatBody (fun _ => expandAll onCall resolve body) body counter rounds
  | n => return [n]

/-- Expands several nodes and puts what they give one after the other. -/
def expandAll (onCall : CallMeaning) (resolve : String → Expansion String) :
    List Node → Expansion (List Node)
  | [] => return []
  | n :: rest => do
    let first ← expandWith onCall resolve n
    let others ← expandAll onCall resolve rest
    return first ++ others

/-- Expands several cells. -/
def expandCells (onCall : CallMeaning) (resolve : String → Expansion String) :
    List (List Node) → Expansion (List (List Node))
  | [] => return []
  | cell :: rest => do
    let first ← expandAll onCall resolve cell
    let others ← expandCells onCall resolve rest
    return first :: others

/-- Expands several rows. -/
def expandRows (onCall : CallMeaning) (resolve : String → Expansion String) :
    List (List (List Node)) → Expansion (List (List (List Node)))
  | [] => return []
  | cells :: rest => do
    let first ← expandCells onCall resolve cells
    let others ← expandRows onCall resolve rest
    return first :: others

end

end Tree.Node

/-- The text of the count of a repetition. The text read from a source holds calls
and references but no further repetition, so its own counts do not matter. -/
def resolveCount (onCall : CallMeaning) : String → Expansion String :=
  resolveText (Node.expandAll onCall pure)

/-- Expands nodes, given what calls mean. -/
def expander (onCall : CallMeaning) : Expander := Node.expandAll onCall (resolveCount onCall)

/-- What a call by a name runs. -/
inductive Callee where
  /-- A function of the document. -/
  | defined (f : Function)
  /-- A built-in function. -/
  | builtin (b : Builtin)

/-- What a name stands for. A function of the document goes before a built-in one. -/
def Store.callee? (s : Store) (name : String) : Option Callee :=
  match s.functions.get? name with
  | some f => some (.defined f)
  | none => (Builtin.ofName? name).map .builtin

/-- Runs what a call stands for, within the call. What a built-in function gives is
expanded once more. -/
def Callee.run (expand : Expander) (c : Invocation) : Callee → Expansion (List Node)
  | .defined f => f.run expand c
  | .builtin b => do expand (← b.run expand c)

/-- What a call stands for, where `expand` expands the nodes within it. -/
def expandCall (expand : Expander) : CallMeaning := fun c => do
  match ← Expansion.inspect (·.store.callee? c.name) with
  | none =>
    Expansion.warn ("Unknown function: " ++ c.name) .style c.span
    return []
  | some callee => Expansion.inBlock (.call c.name c.namedTexts c.span) (callee.run expand c)

/-- What calls mean where `levels` further calls may be open. Where none may, no call is
entered, so it does not matter how nodes within it would be expanded. -/
def callMeaning : Nat → CallMeaning
  | 0 => expandCall fun _ => pure []
  | levels + 1 => expandCall (expander (callMeaning levels))

/-- The calls that may be opened within a setting. -/
def Setting.levels (s : Setting) : Nat := (s.limits.callDepth - s.calls.length).toNat

/-- Expands nodes. -/
def expandNodes : Expander := fun nodes e => expander (callMeaning e.setting.levels) nodes e

/-- Expands the nodes of a document one by one. One that fails is dropped, and its
failure recorded; where the failure ends the work, nothing more is expanded. -/
def expandEach (expand : Expander) : List Node → Environment → List Node × Environment
  | [], e => ([], e)
  | n :: rest, e =>
    match expand [n] e with
    | (.ok nodes, e) =>
      let (others, e) := expandEach expand rest e
      (nodes ++ others, e)
    | (.error f, e) =>
      if f.cause.isFatal then ([], e.mapStore (·.giveUp f.message))
      else expandEach expand rest (e.mapStore (·.fail f.toError))

/-- Expands a document in an environment, where `expand` expands its nodes. -/
def Environment.expandBy (expand : Expander) (e : Environment) (d : Document) :
    Document × Environment :=
  let (children, e) := expandEach expand d.children e
  ({ d with children }, e)

/-- Expands a document in an environment. -/
def Environment.expand (e : Environment) (d : Document) : Document × Environment :=
  e.expandBy expandNodes d

end Livedoc
