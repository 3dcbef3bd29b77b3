import Livedoc.Markdown.Inline.Basic
import Livedoc.Text.Blank

/-!
# Images with measures

`!(width*height)[description](source "title")`. Either measure may be missing, and
so may the title. A source in angle brackets may hold spaces.
-/

namespace Livedoc.Markdown

open Livedoc.Text

namespace SizedImage

/-- What comes before the character `stop`, all of it being allowed, and what
follows it. -/
def takeUntil? (stop : Char) (allowed : Char → Bool) (cs : List Char) :
    Option (List Char × List Char) :=
  let taken := cs.takeWhile fun c => c != stop && allowed c
  match cs.drop taken.length with
  | c :: rest => if c = stop then some (taken, rest) else none
  | [] => none

/-- The title and the closing parenthesis after a source. -/
def takeEnd? (cs : List Char) : Option (Option (List Char) × List Char) :=
  let body := trimStart cs
  match body with
  | ')' :: rest => some (none, rest)
  | '"' :: rest =>
    if body.length = cs.length then none
    else
      match takeUntil? '"' (· != '\n') rest with
      | some (title, rest) =>
        match trimStart rest with
        | ')' :: rest => some (some title, rest)
        | _ => none
      | none => none
  | _ => none

/-- A source in angle brackets, with what follows it. -/
def takeBracketed? (cs : List Char) : Option (List Char × List Char) :=
  match cs with
  | '<' :: rest =>
    (takeUntil? '>' (· != '\n') rest).map fun (s, rest) => ('<' :: s ++ ['>'], rest)
  | _ => none

/-- A source without white space and parentheses. -/
def takePlain? (cs : List Char) : Option (List Char × List Char) :=
  let source := cs.takeWhile fun c => !(isBlank c || c == '(' || c == ')')
  if source.isEmpty then none else some (source, cs.drop source.length)

/-- The source, the title and what follows the closing parenthesis. -/
def takeTarget? (cs : List Char) : Option (List Char × Option (List Char) × List Char) :=
  let cs := trimStart cs
  let complete (found : Option (List Char × List Char)) :=
    found.bind fun (source, rest) => (takeEnd? rest).map fun (title, rest) => (source, title, rest)
  (complete (takeBracketed? cs)).orElse fun _ => complete (takePlain? cs)

/-- A source without the angle brackets around it. -/
def bareSource (cs : List Char) : List Char :=
  if cs.head? == some '<' && cs.getLast? == some '>' then cs.tail.dropLast else cs

/-- A measure that says something. -/
def measure (cs : List Char) : Option String :=
  let text := trim cs
  if text.isEmpty then none else some (String.ofList text)

/-- An image with measures at the start of a text, and what follows it. -/
def take? (cs : List Char) : Option (SizedImage × List Char) :=
  match cs with
  | '!' :: '(' :: rest => do
    let inLine (c : Char) : Bool := c != '\n'
    let inMeasure (c : Char) : Bool := c != '(' && c != ')' && c != '\n'
    let (width, rest) ← takeUntil? '*' inMeasure rest
    let (height, rest) ← takeUntil? ')' inMeasure rest
    match rest with
    | '[' :: rest =>
      let (alt, rest) ← takeUntil? ']' inLine rest
      match rest with
      | '(' :: rest =>
        let (source, title, after) ← takeTarget? rest
        some
          ({ raw := cs.take (cs.length - after.length)
             source := String.ofList (bareSource source)
             alt := String.ofList alt
             title := title.map String.ofList
             width := measure width
             height := measure height }, after)
      | _ => none
    | _ => none
  | _ => none

end SizedImage

end Livedoc.Markdown
