import Livedoc.Markdown.Line

/-!
# Tables

A table has a header line, a line of dashes that gives the alignment of the
columns, and lines of cells. In a *piped* table every line starts and ends with a
pipe; in an *open* one a pipe somewhere is enough. All lines have the same number
of cells, or there is no table at all.

A pipe separates cells unless an odd number of backslashes stands before it. The
backslash stays with the text of the cell.
-/

namespace Livedoc.Markdown

open Livedoc.Text

/-- The texts between separating pipes. `escaped` tells whether a backslash takes
the meaning of the next character. -/
def splitCells (escaped : Bool) : List Char → List (List Char)
  | [] => [[]]
  | c :: rest =>
    if c = '|' && !escaped then [] :: splitCells false rest
    else
      match splitCells (c == '\\' && !escaped) rest with
      | [] => [[c]]
      | cell :: others => (c :: cell) :: others

/-- The cells of a line, trimmed. -/
def cells (cs : List Char) : List (List Char) := (splitCells false (trim cs)).map trim

/-- The inside of a line that starts and ends with a pipe. -/
def piped? (cs : List Char) : Option (List Char) :=
  match dropIndent? 3 cs with
  | some (_, '|' :: rest) =>
    let body := dropEndWhile isGap rest
    if body.getLast? == some '|' then some body.dropLast else none
  | _ => none

/-- A line that holds a pipe after its first character. -/
def open? (cs : List Char) : Option (List Char) :=
  match dropIndent? 3 cs with
  | some (_, c :: rest) => if !isBlank c && rest.contains '|' then some (c :: rest) else none
  | _ => none

/-- The alignment that a cell of dashes gives to its column; nothing if the text is
no such cell. -/
def alignment? (cs : List Char) : Option (Option String) :=
  let left := cs.head? == some ':'
  let body := if left then cs.drop 1 else cs
  let right := body.getLast? == some ':'
  let dashes := if right then body.dropLast else body
  if cs.isEmpty then some none
  else if dashes.isEmpty || !dashes.all (· == '-') then none
  else if left && right then some (some "center")
  else if left then some (some "left")
  else if right then some (some "right")
  else some none

/-- A table: header cells, alignment of the columns and rows. -/
abbrev TableParts := List (List Char) × List (Option String) × List (List (List Char))

/-- Reads a table whose lines `line?` recognises, and how many lines it takes after
its header. -/
def tableWith? (line? row? : List Char → Option (List Char)) (header : List Char)
    (rest : List Line) : Option (TableParts × Nat) :=
  match line? header, rest with
  | some head, dashes :: body =>
    match line? dashes.chars with
    | none => none
    | some dashes =>
      let headers := cells head
      match (cells dashes).mapM alignment? with
      | none => none
      | some alignment =>
        let rows := (body.takeWhile fun l => (row? l.chars).isSome).map fun l =>
          cells ((row? l.chars).getD [])
        if alignment.length = headers.length && rows.all (·.length == headers.length) then
          some ((headers, alignment, rows), rows.length + 1)
        else none
  | _, _ => none

/-- A line of cells of an open table. -/
def openRow? (cs : List Char) : Option (List Char) := if cs.contains '|' then some cs else none

/-- A table that starts with this line. A header that starts and ends with a pipe
makes a piped table or none. -/
def table? (header : List Char) (rest : List Line) : Option (TableParts × Nat) :=
  if (piped? header).isSome then tableWith? piped? piped? header rest
  else tableWith? open? openRow? header rest

end Livedoc.Markdown
