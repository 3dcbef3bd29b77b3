import Livedoc.Call.Head
import Livedoc.Text.Alphanumeric
import Livedoc.Text.Blank
import Livedoc.Text.Lines
import Livedoc.Tree.Node

/-!
# Parameter lines

The body of a function may start with a line that names its parameters, as in
`title level?:`. A question mark marks a parameter that takes a named argument
only. The line is the first line of the first paragraph; where it is the only line
of the text, nothing may follow it in the paragraph. It does not belong to what the
function shows.
-/

namespace Livedoc

open Livedoc.Text Livedoc.Tree

/-- The parameters of a function and the rest of its body. -/
structure Parameters where
  /-- The parameters that take the arguments in order. -/
  positional : List String := []
  /-- The parameters that take named arguments only. -/
  named : List String := []
  /-- The body without the line that names the parameters. -/
  rest : List Node

namespace Parameters

/-- The name of a parameter as it is written, without its question mark, and
whether it has one; nothing if it is no name. -/
def parameter? (word : List Char) : Option (List Char × Bool) :=
  let (name, optional) := match word.getLast? with
    | some '?' => (word.dropLast, true)
    | _ => (word, false)
  match name with
  | c :: rest => if Call.isNameStart c && rest.all isWord then some (name, optional) else none
  | [] => none

/-- The parameters that a line names, if it is a parameter line. -/
def ofLine? (line : List Char) : Option (List (List Char × Bool)) :=
  let line := trimWhile isGap line
  match line.getLast? with
  | some ':' => (runsFrom (fun c => !isGap c) line.dropLast []).mapM parameter?
  | _ => none

/-- The names that are marked as wanted. -/
def select (optional : Bool) (names : List (List Char × Bool)) : List String :=
  (names.filter fun p => p.2 == optional).map fun p => String.ofList p.1

/-- A first paragraph with other nodes before the rest of a body; without nodes it
disappears. -/
def withFirst (nodes : List Node) (span : Source.Span) (rest : List Node) : List Node :=
  if nodes.isEmpty then rest else .paragraph nodes span :: rest

/-- Splits the parameter line off a body. -/
def split (body : List Node) : Parameters :=
  match body with
  | .paragraph (.text content textSpan :: others) span :: rest =>
    let cs := content.toList
    let line := cs.takeWhile (· != '\n')
    match ofLine? line with
    | none => { rest := body }
    | some names =>
      let split (nodes : List Node) : Parameters :=
        ⟨select false names, select true names, withFirst nodes span rest⟩
      match cs.drop line.length with
      | [] => if others.isEmpty then split [] else { rest := body }
      | _ :: [] => split others
      | _ :: remainder => split (.text (String.ofList remainder) textSpan :: others)
  | _ => { rest := body }

end Parameters

end Livedoc
