import Livedoc.Markdown.Url
import Livedoc.Text.Blank

/-!
# Destinations and titles of links

A destination is written between angle brackets or plainly. A plain one ends at
white space; within a link it also ends at a closing parenthesis that matches none
of its own. A title stands in quotes or parentheses after white space.

Every reader takes the text from where it looks and gives what it read with what
follows.
-/

namespace Livedoc.Markdown

open Livedoc.Text

/-- The text after spaces and tabs and at most one newline among them. -/
def skipOneBreak (cs : List Char) : List Char :=
  match cs.dropWhile isGap with
  | '\n' :: rest => rest.dropWhile isGap
  | rest => rest

/-- A destination after its opening angle bracket. -/
def takeAngled? : List Char → Option (List Char × List Char)
  | '>' :: rest => some ([], rest)
  | '\\' :: c :: rest =>
    if c = '\n' || c = '\x00' then none
    else (takeAngled? rest).map fun (d, r) => ('\\' :: c :: d, r)
  | c :: rest =>
    if c = '<' || c = '\n' || c = '\x00' then none
    else (takeAngled? rest).map fun (d, r) => (c :: d, r)
  | [] => none

/-- A plain destination within a link, `depth` parentheses of its own being open. -/
def takeBalanced? (depth : Nat) : List Char → Option (List Char × List Char)
  | '\\' :: c :: rest =>
    if isPunctuation c then
      (takeBalanced? depth rest).map fun (d, r) => ('\\' :: c :: d, r)
    else (takeBalanced? depth (c :: rest)).map fun (d, r) => ('\\' :: d, r)
  | '(' :: rest => (takeBalanced? (depth + 1) rest).map fun (d, r) => ('(' :: d, r)
  | ')' :: rest =>
    match depth with
    | 0 => some ([], ')' :: rest)
    | depth + 1 => (takeBalanced? depth rest).map fun (d, r) => (')' :: d, r)
  | c :: rest =>
    if c = ' ' || c = '\t' || c = '\n' then
      if depth = 0 then some ([], c :: rest) else none
    else (takeBalanced? depth rest).map fun (d, r) => (c :: d, r)
  | [] => none

/-- The destination of a link, after the opening parenthesis. -/
def takeDestination? (cs : List Char) : Option (List Char × List Char) :=
  match skipOneBreak cs with
  | '<' :: rest => takeAngled? rest
  | rest => takeBalanced? 0 rest

/-- The destination of a reference, after the colon. It is not empty. -/
def takeReferenceDestination? (cs : List Char) : Option (List Char × List Char) :=
  match skipOneBreak cs with
  | '<' :: rest => takeAngled? rest
  | rest =>
    let plain := rest.takeWhile fun c => !isBlank c
    if plain.isEmpty then none else some (plain, rest.drop plain.length)

/-- A title after its opening mark, up to the mark `close`. In parentheses no
further one may be opened. -/
def takeTitleTo? (close : Char) : List Char → Option (List Char × List Char)
  | [] => none
  | '\\' :: c :: rest =>
    if isPunctuation c then
      (takeTitleTo? close rest).map fun (t, r) => ('\\' :: c :: t, r)
    else (takeTitleTo? close (c :: rest)).map fun (t, r) => ('\\' :: t, r)
  | c :: rest =>
    if c = close then some ([], rest)
    else if c = '\x00' || (close = ')' && c = '(') then none
    else (takeTitleTo? close rest).map fun (t, r) => (c :: t, r)

/-- A title with the white space before it, its escapes undone. -/
def takeTitle? (cs : List Char) : Option (List Char × List Char) :=
  let body := cs.dropWhile fun c => isGap c || c == '\n'
  if body.length = cs.length then none
  else
    let read := match body with
      | '"' :: rest => takeTitleTo? '"' rest
      | '\x27' :: rest => takeTitleTo? '\x27' rest
      | '(' :: rest => takeTitleTo? ')' rest
      | _ => none
    read.map fun (t, r) => (unescape t, r)

/-- What an inline link says after its text. -/
structure Target where
  /-- The address. -/
  url : String
  /-- The title, if it has one. -/
  title : Option String

/-- A title that says something. -/
def titleText (cs : List Char) : Option String :=
  if cs.isEmpty then none else some (String.ofList cs)

/-- The destination and title of a link after the opening parenthesis, up to and
with the closing one. -/
def takeTarget? (cs : List Char) : Option (Target × List Char) :=
  match takeDestination? cs with
  | none => none
  | some (destination, rest) =>
    let (title, rest) := match takeTitle? rest with
      | some (title, rest) => (titleText title, rest)
      | none => (none, rest)
    match trimStart rest with
    | ')' :: rest => some (⟨address destination, title⟩, rest)
    | _ => none

end Livedoc.Markdown
