import Livedoc.Command.Run
import Std.Time

/-!
# The command

The outermost layer: it looks up what a run asks for, shows what the run says, and
writes what it hands over. All decisions are made by the run itself.

A run that has to know more of the disk is begun once more when that is known, so
nothing is shown or written before everything is known.
-/

namespace Livedoc.Command

/-- What was looked up so far. -/
abbrev Known := List (Path × DiskEntry)

/-- A disk of which only this is known. -/
def Known.disk (known : Known) (folder : Path) : Disk := { folder, look := fun p => List.lookup p known }

/-- Looks up what is at a path. -/
def lookUp (path : Path) : IO DiskEntry := do
  try
    let octets ← IO.FS.readBinFile path.toText
    return .file (octets.toList.map UInt8.toNat)
  catch
    | .noFileOrDirectory .. => return .missing
    | .inappropriateType _ code _ => return if code = 21 then .folder else .behindFile
    | e => return .refused (toString e)

/-- Looks up what is at several paths. -/
def lookUpAll (paths : List Path) : IO Known := paths.mapM fun p => return (p, ← lookUp p)

/-- Does work that may have to know more, until it knows enough. -/
partial def settle {α : Type} (folder : Path) (known : Known) (unknown : α → List Path)
    (work : Disk → α) : IO α := do
  let result := work (known.disk folder)
  match unknown result with
  | [] => return result
  | paths => settle folder (known ++ (← lookUpAll paths)) unknown work

/-- The present date and time where the machine is, or in Greenwich if it does not
know where it is. -/
def localTime : IO Std.Time.PlainDateTime := do
  try
    return (← Std.Time.DateTime.now).toPlainDateTime
  catch _ => Std.Time.PlainDateTime.now

/-- The present moment. -/
def now : IO Moment := do
  let t ← localTime
  return {
    year := t.date.year.toInt.toNat
    month := t.date.month.val.toNat
    day := t.date.day.val.toNat
    hour := t.time.hour.val.toNat
    minute := t.time.minute.val.toNat
    second := t.time.second.val.toNat
    microsecond := t.time.nanosecond.val.toNat / 1000 }

/-- Shows what an outcome says, and writes what it hands over. -/
def perform (o : Outcome) : IO Unit := do
  IO.eprint o.stderr
  IO.print o.stdout
  match o.written with
  | some (path, text) => IO.FS.writeFile path.toText text
  | none => return

/-- How the command is used. -/
def usageText : String :=
  "usage: dotdown [options] input\n" ++
    String.join (Switch.all.map fun s =>
      "  " ++ Text.intercalate ", " s.names ++ (if s.takesValue then " VALUE" else "") ++ "\n")

/-- Ends a run. Nothing is left to do for one that goes on. -/
def conclude : Ending → IO UInt32
  | .exit code => return code.toUInt32
  | .usage .help => do
    IO.print usageText
    return 0
  | .usage .refused => do
    IO.eprint usageText
    return 2
  | .undecodable e => do
    IO.eprintln ("error: " ++ e.message)
    return 1
  | .running => return 0

/-- What a run that begins has to know. -/
def unknownAtStart : Start → List Path
  | .finished o => o.unknown
  | .watching _ => []

/-- Looks at the input again and again. A change is seen by what the file holds;
`version` counts the changes and `last` is what the file held before. -/
partial def watch (folder : Path) (w : Watching) (version : Nat) (last : Option DiskEntry) :
    IO UInt32 := do
  let entry ← lookUp w.options.input
  let version := if last = some entry then version else version + 1
  let changed := if entry = .missing then none else some version
  let moment ← now
  let (w, o) ← settle folder [(w.options.input, entry)] (fun r => r.2.unknown) fun d =>
    w.look changed d moment
  perform o
  match o.ending with
  | .running => do
    IO.sleep 500
    watch folder w version (some entry)
  | ending => conclude ending

/-- Runs the command with its arguments. -/
def run (argv : List String) : IO UInt32 := do
  let folder := Path.ofText (toString (← IO.currentDir))
  let moment ← now
  match ← settle folder [] unknownAtStart fun d => start argv d moment with
  | .finished o => do
    perform o
    conclude o.ending
  | .watching w => do
    IO.eprint w.greeting
    watch folder w 0 none

end Livedoc.Command

/-- Runs the command with its arguments. -/
def main (argv : List String) : IO UInt32 := Livedoc.Command.run argv
