import Livedoc.Text.Lines

/-!
# Paths of files

A path is a sequence of names, from the root or from wherever it is looked at.
Empty names and single dots do not count; a pair of dots stays in the path until
the path is resolved against a folder, and then takes away the name before it.
-/

namespace Livedoc

open Livedoc.Text

/-- A path. -/
structure Path where
  /-- Whether the path starts at the root. -/
  absolute : Bool
  /-- The names, outermost first. -/
  names : List String
deriving DecidableEq, Repr

namespace Path

/-- The path that a text spells. -/
def ofText (s : String) : Path :=
  let names := (splitAt '/' s.toList).map String.ofList
  ⟨s.toList.head? == some '/', names.filter fun n => n != "" && n != "."⟩

/-- The text that spells a path. -/
def toText (p : Path) : String :=
  let names := intercalate "/" p.names
  if p.absolute then "/" ++ names else if p.names.isEmpty then "." else names

/-- The root. -/
def root : Path := ⟨true, []⟩

/-- The last name, empty if there is none. -/
def name (p : Path) : String := p.names.getLastD ""

/-- The path without its last name. -/
def parent (p : Path) : Path := { p with names := p.names.dropLast }

/-- A path looked at from another one. -/
def join (base p : Path) : Path := if p.absolute then p else { base with names := base.names ++ p.names }

/-- Names with every pair of dots applied to the name before it. -/
def applyDots (names : List String) : List String :=
  names.foldl (fun done n => if n == ".." then done.dropLast else done ++ [n]) []

/-- A path seen from the root, given the folder that it starts in. -/
def resolve (folder p : Path) : Path := ⟨true, applyDots (folder.join p).names⟩

end Path

end Livedoc
