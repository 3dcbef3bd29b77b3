import Livedoc.Environment.Files
import Livedoc.Text.Lines
import Livedoc.Text.Utf8

/-!
# Disks

The command works on files of which it is told what they hold. A disk says for a
path what is there: a file with its octets, a folder, or nothing. It may also say
nothing about a path; the command then answers with what it has to know, and is run
again once that was looked up.

A disk can be made from files held in memory, and written to; that is how runs of
the command are described without any real disk.
-/

namespace Livedoc

open Livedoc.Text

/-- What is at a path. -/
inductive DiskEntry where
  | file (octets : List Nat)
  | folder
  | missing
  /-- A part of the path before the last is a file. -/
  | behindFile
  /-- The path cannot be looked at, and why. -/
  | refused (reason : String)
deriving DecidableEq, Repr

/-- What is known of a disk. -/
structure Disk where
  /-- The folder in which paths that do not start at the root start. -/
  folder : Path := .root
  /-- What is at a path, if it is known. -/
  look : Path → Option DiskEntry

/-- Why a file could not be read or written. -/
inductive DiskError where
  | missing (path : Path)
  | notFolder (path : Path)
  | isFolder (path : Path)
  | refused (reason : String)
deriving DecidableEq, Repr

namespace DiskError

/-- What an error says about a path. -/
def describe (number : Nat) (reason : String) (path : Path) : String :=
  "[Errno " ++ toString number ++ "] " ++ reason ++ ": " ++ literal path.toText

/-- What an error says. -/
def message : DiskError → String
  | missing path => describe 2 "No such file or directory" path
  | notFolder path => describe 20 "Not a directory" path
  | isFolder path => describe 21 "Is a directory" path
  | refused reason => reason

end DiskError

/-- What came of reading a file as text. -/
inductive DiskText where
  | text (s : String)
  | failed (e : DiskError)
  /-- The file holds no text. -/
  | undecodable (e : Utf8Error)
deriving DecidableEq, Repr

namespace DiskEntry

/-- The text of what is at a path. -/
def text (path : Path) : DiskEntry → DiskText
  | file octets =>
    match decodeUtf8 octets with
    | .ok cs => .text (String.ofList cs)
    | .error e => .undecodable e
  | folder => .failed (.isFolder path)
  | missing => .failed (.missing path)
  | behindFile => .failed (.notFolder path)
  | refused reason => .failed (.refused reason)

/-- What is at a path, as expansion sees it. Every line break becomes a newline. -/
def content : DiskEntry → FileContent
  | file octets =>
    match decodeUtf8 octets with
    | .ok cs => .text (String.ofList (normalizeBreaks cs))
    | .error e => .unreadable e.message
  | refused reason => .unreadable reason
  | folder | missing | behindFile => .absent

end DiskEntry

namespace Disk

/-- The text of a file with every line break as a newline, if anything is known of
the path. -/
def read? (d : Disk) (path : Path) : Option DiskText :=
  (d.look path).map fun entry =>
    match entry.text path with
    | .text s => .text (String.ofList (normalizeBreaks s.toList))
    | failure => failure

/-- The files that a document on this disk may include. -/
def files (d : Disk) : Files where
  folder := d.folder
  look p := (d.look p).map DiskEntry.content

/-- Whether writing to a path would fail. -/
def writeError? (d : Disk) (path : Path) : Option DiskError :=
  match d.look path with
  | some .folder => some (.isFolder path)
  | some .behindFile => some (.notFolder path)
  | some (.refused reason) => some (.refused reason)
  | some (.file _) => none
  | some .missing | none =>
    match d.look path.parent with
    | some .missing => some (.missing path)
    | some (.file _) | some .behindFile => some (.notFolder path)
    | _ => none

/-- The disk after a text was written to a path. -/
def write (d : Disk) (path : Path) (s : String) : Disk :=
  { d with
    look := fun p =>
      if d.folder.resolve p = d.folder.resolve path then some (.file (encodeUtf8 s)) else d.look p }

/-! ## Disks in memory -/

/-- What is at resolved names where only these files are. A folder is there if a
file is below it. -/
def entryAt (folder : List String) (files : List (List String × List Nat)) (names : List String) :
    DiskEntry :=
  match files.lookup names with
  | some octets => .file octets
  | none =>
    if names.isPrefixOf folder || files.any fun f => names.isPrefixOf f.1 then .folder else .missing

/-- What is found by going from one folder to the next. -/
def walk (at? : List String → DiskEntry) (here : List String) : List String → DiskEntry
  | [] => at? here
  | n :: rest =>
    match at? here with
    | .folder => walk at? (if n = ".." then here.dropLast else here ++ [n]) rest
    | .file _ => .behindFile
    | other => other

/-- A disk with these files only, by the names that lead to them from the root. -/
def ofFiles (folder : Path) (files : List (List String × List Nat)) : Disk where
  folder
  look p := some (walk (entryAt folder.names files) [] (folder.join p).names)

end Disk

end Livedoc
