import Livedoc.Path

/-!
# Files that a document may include

Expansion does not read files. It is given what is known of them: for some paths
the text, for others that nothing is there or that the file cannot be read. A path
of which nothing is known counts as one where no file is, and is noted, so that
whoever can read files may look it up and expand once more. A file that is there
and cannot be read ends the expansion.
-/

namespace Livedoc

/-- What is known of a path. -/
inductive FileContent where
  /-- A file with this text. -/
  | text (s : String)
  /-- No file that could be included. -/
  | absent
  /-- A file that cannot be read, and why. -/
  | unreadable (reason : String)
deriving DecidableEq, Repr

/-- What is known of files. -/
structure Files where
  /-- The folder in which paths that do not start at the root start. -/
  folder : Path := .root
  /-- What is at a path, if it is known. -/
  look : Path → Option FileContent := fun _ => some .absent

/-- What came of looking for a file. -/
inductive Finding where
  /-- The file at a resolved path, with its text. -/
  | found (path : Path) (text : String)
  /-- A file is there, but it cannot be read. -/
  | unreadable (reason : String)
  | missing
deriving DecidableEq, Repr

/-- What expansion could not find out. -/
structure Inquiry where
  /-- Paths of which nothing is known. -/
  unknown : List Path := []
  /-- Why the file that expansion ended at could not be read. -/
  unreadable : Option String := none
deriving DecidableEq, Repr

namespace Files

/-- Files that are held in memory, by resolved path. There are no others. -/
def ofTexts (texts : List (Path × String)) : Files where
  look p := some (((texts.lookup (Path.resolve .root p)).map .text).getD .absent)

/-- Looks for a file under several paths, one after the other. -/
def search (files : Files) : List Path → Finding
  | [] => .missing
  | p :: rest =>
    match files.look p with
    | some (.text s) => .found (files.folder.resolve p) s
    | some (.unreadable reason) => .unreadable reason
    | some .absent | none => search files rest

/-- The paths that a search comes to without knowing anything of them. -/
def unknown (files : Files) : List Path → List Path
  | [] => []
  | p :: rest =>
    match files.look p with
    | some (.text _) | some (.unreadable _) => []
    | some .absent => unknown files rest
    | none => p :: unknown files rest

end Files

end Livedoc
