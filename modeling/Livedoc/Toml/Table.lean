import Livedoc.Toml.Scalar

/-!
# Tables of TOML

A table grows while a file is read: a line sets a key, and a header opens a table
that the lines after it belong to. A key of several parts leads through tables that
come to be on the way. No line may change what another one has settled, so a table
knows how it came to be: on the way to another one, in a section by a key of several
parts, or by a header.
-/

namespace Livedoc.Toml

/-- How a table came to be. -/
inductive Origin where
  /-- On the way to another table. -/
  | implied
  /-- By keys of several parts, in the section with this number. -/
  | dotted (sectionNumber : Nat)
  /-- By a header. -/
  | header
deriving DecidableEq, Repr

/-- What a key stands for while a file is read. -/
inductive Entry where
  /-- A value, which nothing can be added to. -/
  | value (d : Datum)
  | table (origin : Origin) (entries : List (String × Entry))
  /-- Tables under one name, the last one first. -/
  | tables (items : List (List (String × Entry)))

/-- The keys of a table with what they stand for. -/
abbrev Entries := List (String × Entry)

namespace Entries

/-- Changes what a key stands for, or adds the key. -/
def alter (change : Option Entry → Option Entry) (key : String) : Entries → Option Entries
  | [] => (change none).map fun e => [(key, e)]
  | (k, e) :: rest =>
    if k == key then (change (some e)).map fun e => (k, e) :: rest
    else (alter change key rest).map fun rest => (k, e) :: rest

/-- Changes the table that a path leads to. Of tables under one name the last one is
meant; tables that are not there come to be. -/
def within (change : Entries → Option Entries) : List String → Entries → Option Entries
  | [], entries => change entries
  | key :: path, entries =>
    alter (fun
      | none => (within change path []).map (.table .implied)
      | some (.table origin inner) => (within change path inner).map (.table origin)
      | some (.tables (last :: others)) =>
        (within change path last).map fun last => .tables (last :: others)
      | some _ => none) key entries

/-- Changes the table that the first parts of a key lead to, within one section. -/
def withinDotted (current : Nat) (change : Entries → Option Entries) :
    List String → Entries → Option Entries
  | [], entries => change entries
  | key :: path, entries =>
    alter (fun
      | none => (withinDotted current change path []).map (.table (.dotted current))
      | some (.table origin inner) =>
        if origin = .implied || origin = .dotted current then
          (withinDotted current change path inner).map (.table (.dotted current))
        else none
      | some _ => none) key entries

/-- Adds a key that is not there. -/
def add (key : String) (e : Entry) : Entries → Option Entries :=
  alter (fun
    | none => some e
    | some _ => none) key

/-- Opens the table that a header names. -/
def openTable (key : String) : Entries → Option Entries :=
  alter (fun
    | none => some (.table .header [])
    | some (.table .implied inner) => some (.table .header inner)
    | some _ => none) key

/-- Opens one more of the tables that a header names. -/
def openNext (key : String) : Entries → Option Entries :=
  alter (fun
    | none => some (.tables [[]])
    | some (.tables items) => some (.tables ([] :: items))
    | some _ => none) key

end Entries

mutual

/-- What a key stands for once the file is read. -/
def Entry.toDatum : Entry → Datum
  | .value d => d
  | .table _ entries => .table (Entries.toData entries)
  | .tables items => .list (Entries.toTables items).reverse

/-- The keys of a table once the file is read. -/
def Entries.toData : Entries → List (String × Datum)
  | [] => []
  | (key, e) :: rest => (key, e.toDatum) :: Entries.toData rest

/-- The tables under one name. -/
def Entries.toTables : List Entries → List Datum
  | [] => []
  | entries :: rest => .table (Entries.toData entries) :: Entries.toTables rest

end

end Livedoc.Toml
