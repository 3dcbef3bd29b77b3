import Livedoc.Toml.Table

/-!
# Reading TOML

A file of TOML is a sequence of lines: a key with its value, a header in brackets, a
comment, or nothing. A value that has parts, a list or a table in braces, may hold
others; a list may go on over several lines.

Reading gives the whole table, or nothing if any line cannot be read.
-/

namespace Livedoc.Toml

open Livedoc.Text

/-! ## Keys -/

/-- A character of a key without quotes. -/
def isKeyChar (c : Char) : Bool := c.isAlphanum || c == '_' || c == '-'

/-- A part of a key. -/
def keyPart? : Reader String := fun cs =>
  match cs.takeWhile isKeyChar with
  | [] => (line? cs).map fun (part, rest) => (String.ofList part, rest)
  | part => some (String.ofList part, cs.drop part.length)

/-- The parts of a key after the first; there are fewer than `fuel`. -/
def keyParts? : Nat → Reader (List String)
  | 0, _ => none
  | fuel + 1, cs =>
    match skipGaps cs with
    | '.' :: rest => do
      let (part, rest) ← keyPart? (skipGaps rest)
      let (parts, rest) ← keyParts? fuel rest
      return (part :: parts, rest)
    | rest => some ([], rest)

/-- A key, split into the parts that lead to it and its last part. -/
def key? : Reader (List String × String) := fun cs => do
  let (first, rest) ← keyPart? cs
  let (others, rest) ← keyParts? (rest.length + 1) rest
  let parts := first :: others
  return ((parts.dropLast, parts.getLastD first), rest)

/-! ## Values -/

/-- What a value stands for inside a table in braces: nothing can be added to it. -/
def setInline (path : List String) (key : String) (d : Datum) (entries : Entries) : Option Entries :=
  Entries.withinDotted 0 (Entries.add key (.value d)) path entries

mutual

/-- A value. The values in it lie fewer than `fuel` deep. -/
def value? : Nat → Reader Datum
  | 0, _ => none
  | fuel + 1, '[' :: rest => do
    let rest ← skipFiller? (rest.length + 1) rest
    match rest with
    | ']' :: rest => return (.list [], rest)
    | rest => items? fuel [] rest
  | fuel + 1, '\x7b' :: rest =>
    match skipGaps rest with
    | '\x7d' :: rest => some (.table [], rest)
    | rest => pairs? fuel [] rest
  | _ + 1, cs => scalar? cs

/-- The items of a list from the next one on. `done` holds the ones before, last one
first. -/
def items? : Nat → List Datum → Reader Datum
  | 0, _, _ => none
  | fuel + 1, done, cs => do
    let (d, rest) ← value? fuel cs
    let rest ← skipFiller? (rest.length + 1) rest
    match rest with
    | ']' :: rest => return (.list (d :: done).reverse, rest)
    | ',' :: rest =>
      match ← skipFiller? (rest.length + 1) rest with
      | ']' :: rest => return (.list (d :: done).reverse, rest)
      | rest => items? fuel (d :: done) rest
    | _ => none

/-- The pairs of a table in braces from the next one on. -/
def pairs? : Nat → Entries → Reader Datum
  | 0, _, _ => none
  | fuel + 1, entries, cs => do
    let ((path, key), rest) ← key? cs
    match rest with
    | '=' :: rest =>
      let (d, rest) ← value? fuel (skipGaps rest)
      let entries ← setInline path key d entries
      match skipGaps rest with
      | '\x7d' :: rest => return (.table (Entries.toData entries), rest)
      | ',' :: rest => pairs? fuel entries (skipGaps rest)
      | _ => none
    | _ => none

end

/-! ## Lines -/

/-- What was read so far. -/
structure Progress where
  entries : Entries := []
  /-- The table that the lines belong to. -/
  path : List String := []
  /-- The number of the section. -/
  current : Nat := 1

/-- A line that sets a key. -/
def pair? (p : Progress) : Reader Progress := fun cs => do
  let ((path, key), rest) ← key? cs
  match rest with
  | '=' :: rest =>
    let (d, rest) ← value? (rest.length + 1) (skipGaps rest)
    let set := Entries.withinDotted p.current (Entries.add key (.value d)) path
    let entries ← Entries.within set p.path p.entries
    return ({ p with entries }, rest)
  | _ => none

/-- A header, after its opening brackets. -/
def header? (p : Progress) (openBy : String → Entries → Option Entries) (closing : List Char) :
    Reader Progress := fun cs => do
  let ((path, key), rest) ← key? (skipGaps cs)
  let entries ← Entries.within (openBy key) path p.entries
  if closing.isPrefixOf rest then
    return (⟨entries, path ++ [key], p.current + 1⟩, rest.drop closing.length)
  else none

/-- What a line states. -/
def statement? (p : Progress) : Reader Progress
  | '[' :: '[' :: rest => header? p Entries.openNext [']', ']'] rest
  | '[' :: rest => header? p Entries.openTable [']'] rest
  | cs => pair? p cs

/-- The lines of a file, of which there are fewer than `fuel`. -/
def lines? : Nat → Progress → List Char → Option Progress
  | 0, _, _ => none
  | fuel + 1, p, cs => do
    let cs := skipGaps cs
    let (p, rest) ← match cs with
      | [] | '\n' :: _ | '#' :: _ => some (p, cs)
      | cs => statement? p cs
    match ← skipComment? (skipGaps rest) with
    | [] => return p
    | '\n' :: rest => lines? fuel p rest
    | _ => none

/-- The line breaks that TOML knows, as newlines. -/
def joinBreaks : List Char → List Char
  | [] => []
  | '\r' :: '\n' :: rest => '\n' :: joinBreaks rest
  | c :: rest => c :: joinBreaks rest

/-- The table that a file holds. -/
def read? (s : String) : Option (List (String × Datum)) :=
  let cs := joinBreaks s.toList
  (lines? (cs.length + 1) {} cs).map fun p => Entries.toData p.entries

end Livedoc.Toml
