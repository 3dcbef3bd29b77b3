import Livedoc.Text.Digit

/-!
# Arguments of the command

The command is started with words and options. An option has a long name with two
hyphens and maybe a short one with one; the long name may be shortened as long as
only one option fits, and short ones may be written together. The value of an option
follows as the next word, after an equals sign, or directly after a short name.
After two hyphens alone every argument is a word.

Anything that cannot be read this way makes the command refuse to start, and so does
a second word.
-/

namespace Livedoc.Command

open Livedoc.Text

/-- The options of the command. -/
inductive Switch where
  | help | output | documentType | theme | fragment | strict | includePath | assign
  | stylesheet | script | property | config | watch | debug | verbose | listFunctions
deriving DecidableEq, Repr

namespace Switch

/-- All options. -/
def all : List Switch :=
  [help, output, documentType, theme, fragment, strict, includePath, assign, stylesheet, script,
   property, config, watch, debug, verbose, listFunctions]

/-- The names of an option. -/
def names : Switch → List String
  | help => ["-h", "--help"]
  | output => ["-o", "--output"]
  | documentType => ["--doctype"]
  | theme => ["--theme"]
  | fragment => ["--fragment"]
  | strict => ["--strict"]
  | includePath => ["-I", "--include-path"]
  | assign => ["-V", "--var"]
  | stylesheet => ["--css"]
  | script => ["--js"]
  | property => ["--meta"]
  | config => ["--config"]
  | watch => ["--watch"]
  | debug => ["--debug"]
  | verbose => ["-v", "--verbose"]
  | listFunctions => ["--list-functions"]

/-- Whether an option has a value. -/
def takesValue : Switch → Bool
  | output | documentType | theme | includePath | assign | stylesheet | script | property
  | config => true
  | help | fragment | strict | watch | debug | verbose | listFunctions => false

/-- The option of a name. -/
def ofName? (name : List Char) : Option Switch :=
  all.find? fun s => s.names.any fun n => n.toList == name

/-- The options with a name that starts like this. -/
def startingWith (stem : List Char) : List Switch :=
  all.filter fun s => s.names.any fun n => stem.isPrefixOf n.toList

end Switch

/-- What the command was started with. -/
structure Arguments where
  input : Option String := none
  output : Option String := none
  documentType : Option String := none
  theme : Option String := none
  config : Option String := none
  fragment : Bool := false
  strict : Bool := false
  watch : Bool := false
  debug : Bool := false
  verbose : Bool := false
  listFunctions : Bool := false
  includePaths : List String := []
  assignments : List String := []
  stylesheets : List String := []
  scripts : List String := []
  properties : List String := []
deriving DecidableEq, Repr

/-- Why the command does not start. -/
inductive Usage where
  /-- The arguments cannot be read. -/
  | refused
  /-- Help was asked for. -/
  | help
deriving DecidableEq, Repr

/-- What one argument is. -/
inductive Token where
  | word
  /-- Options without a value, then one that has the given value if it has any. -/
  | switches (flags : List Switch) (last : Switch) (value : Option String)
  /-- Options without a value, then something that is no option. -/
  | unknown (flags : List Switch)
  /-- A name that fits more than one option. -/
  | ambiguous
  /-- A value for an option that takes none. -/
  | misplaced
deriving DecidableEq, Repr

/-! ## Single arguments -/

/-- A negative number, which is a word and no option. -/
def isNegativeNumber (cs : List Char) : Bool :=
  match cs with
  | '-' :: digits =>
    let whole := digits.takeWhile isDecimalDigit
    match digits.drop whole.length with
    | [] => !whole.isEmpty
    | '.' :: fraction => !fraction.isEmpty && fraction.all isDecimalDigit
    | _ => false
  | _ => false

/-- The text before the first equals sign and the one after it, if there is any. -/
def splitValue (cs : List Char) : List Char × Option (List Char) :=
  let stem := cs.takeWhile (· != '=')
  match cs.drop stem.length with
  | [] => (stem, none)
  | _ :: value => (stem, some value)

/-- Short options written together: one after the other as long as they take no
value; the rest, maybe after an equals sign, is the value of the one that does. -/
def together (flags : List Switch) (s : Switch) : List Char → Token
  | [] => .switches flags s none
  | c :: rest =>
    if s.takesValue then .switches flags s (some (String.ofList (if c = '=' then rest else c :: rest)))
    else if c = '=' || c = '-' then .misplaced
    else
      match Switch.ofName? ['-', c] with
      | some next => together (flags ++ [s]) next rest
      | none => .unknown (flags ++ [s])

/-- An option with the value after its equals sign. -/
def assigned (s : Switch) (value : List Char) : Token :=
  if s.takesValue then .switches [] s (some (String.ofList value)) else .misplaced

/-- An argument that starts like an option but has the name of none. -/
def unnamed (cs : List Char) : Token :=
  if isNegativeNumber cs || cs.contains ' ' then .word else .unknown []

/-- What an argument is that starts with two hyphens and has no full name. -/
def longToken (cs : List Char) : Token :=
  let (stem, value) := splitValue cs
  match Switch.startingWith stem with
  | [] => unnamed cs
  | [s] =>
    match value with
    | some value => assigned s value
    | none => .switches [] s none
  | _ => .ambiguous

/-- What an argument is that starts with one hyphen and has no full name. -/
def shortToken (c : Char) (rest : List Char) : Token :=
  match Switch.ofName? ['-', c] with
  | some s => together [] s rest
  | none => unnamed ('-' :: c :: rest)

/-- What an argument is. -/
def Token.of (argument : String) : Token :=
  match argument.toList with
  | '-' :: c :: rest =>
    let cs := '-' :: c :: rest
    match Switch.ofName? cs with
    | some s => .switches [] s none
    | none =>
      match splitValue cs with
      | (name, some value) =>
        match Switch.ofName? name with
        | some s => assigned s value
        | none => if c = '-' then longToken cs else shortToken c rest
      | (_, none) => if c = '-' then longToken cs else shortToken c rest
  | _ => .word

/-! ## All arguments -/

/-- The types that a document can be given. -/
def documentTypeChoices : List String := ["plain", "paged", "slides"]

namespace Arguments

/-- The arguments with an option that has no value. -/
def turnOn (a : Arguments) : Switch → Except Usage Arguments
  | .help => .error .help
  | .fragment => .ok { a with fragment := true }
  | .strict => .ok { a with strict := true }
  | .watch => .ok { a with watch := true }
  | .debug => .ok { a with debug := true }
  | .verbose => .ok { a with verbose := true }
  | .listFunctions => .ok { a with listFunctions := true }
  | _ => .error .refused

/-- The arguments with an option that has a value. -/
def setValue (a : Arguments) (value : String) : Switch → Except Usage Arguments
  | .output => .ok { a with output := some value }
  | .documentType =>
    if documentTypeChoices.contains value then .ok { a with documentType := some value }
    else .error .refused
  | .theme => .ok { a with theme := some value }
  | .config => .ok { a with config := some value }
  | .includePath => .ok { a with includePaths := a.includePaths ++ [value] }
  | .assign => .ok { a with assignments := a.assignments ++ [value] }
  | .stylesheet => .ok { a with stylesheets := a.stylesheets ++ [value] }
  | .script => .ok { a with scripts := a.scripts ++ [value] }
  | .property => .ok { a with properties := a.properties ++ [value] }
  | _ => .error .refused

/-- The arguments with several options that have no value. -/
def turnAllOn (a : Arguments) (flags : List Switch) : Except Usage Arguments :=
  flags.foldlM turnOn a

/-- Reads arguments one by one. `next` tells whether the word that is wanted may
still come, `fresh` whether it was the argument before, and `extra` whether something
came that is not wanted. -/
def readFrom (a : Arguments) (next fresh extra : Bool) : List String → Except Usage Arguments
  | [] => if extra then .error .refused else .ok a
  | s :: rest =>
    if s = "--" then
      match next, rest with
      | true, [] => if extra then .error .refused else .ok a
      | true, [word] => if extra then .error .refused else .ok { a with input := some word }
      | false, [] => if extra || !fresh then .error .refused else .ok a
      | _, _ => .error .refused
    else
      match Token.of s with
      | .word =>
        if next then readFrom { a with input := some s } false true extra rest
        else readFrom a false false true rest
      | .unknown flags => do readFrom (← a.turnAllOn flags) next false true rest
      | .ambiguous | .misplaced => .error .refused
      | .switches flags last value => do
        if last.takesValue then
          match value, rest with
          | some value, rest =>
            let a ← a.turnAllOn flags
            readFrom (← a.setValue value last) next false extra rest
          | none, word :: rest =>
            if word ≠ "--" && Token.of word = .word then
              let a ← a.turnAllOn flags
              readFrom (← a.setValue word last) next false extra rest
            else .error .refused
          | none, [] => .error .refused
        else
          readFrom (← a.turnAllOn (flags ++ [last])) next false extra rest

/-- Reads the arguments of the command. -/
def read (argv : List String) : Except Usage Arguments :=
  if (argv.takeWhile (· ≠ "--")).any fun s => Token.of s = .ambiguous then .error .refused
  else readFrom {} true false false argv

end Arguments

end Livedoc.Command
