/-!
# The head of a call

A call is written `.name {argument} key:{argument}`: a dot, a name, and groups in
braces, each of which may be keyed by a name and a colon. Spaces and tabs may
stand between the groups. This module reads such a head from a place in a text.

Inside a group braces nest, and a brace after a backslash is an ordinary character
that neither opens nor closes anything; the backslash is dropped. A group that is
opened and never closed is a mistake: the head then ends after its name, so that
the rest can still be read as text.
-/

namespace Livedoc.Call

/-- A character that may start a name. -/
def isNameStart (c : Char) : Bool := c == '_' || ('a' ≤ c && c ≤ 'z') || ('A' ≤ c && c ≤ 'Z')

/-- A character that may continue a name. -/
def isNameChar (c : Char) : Bool := isNameStart c || ('0' ≤ c && c ≤ '9')

/-- One argument in braces. -/
structure Group where
  /-- The key before the colon, if the group is keyed. -/
  key : Option String
  /-- The text between the braces, without the backslashes of escaped braces. -/
  value : String
  /-- Offset of the first character of the group. -/
  start : Nat
  /-- Offset after its closing brace. -/
  stop : Nat
deriving DecidableEq, Repr

/-- A call head that was read. -/
structure Head where
  /-- The name after the dot. -/
  name : String
  /-- The groups that were read, in order. -/
  groups : List Group
  /-- Offset of the dot. -/
  start : Nat
  /-- Offset after the last character that belongs to the head. -/
  stop : Nat
  /-- Whether a further group was opened and never closed. -/
  unterminated : Bool
deriving DecidableEq, Repr

namespace Head

/-- Whether the head is that of a call and not of a variable reference. -/
def isCall (h : Head) : Bool := !h.groups.isEmpty && !h.unterminated

/-- The groups without a key. -/
def positional (h : Head) : List Group := h.groups.filter (·.key.isNone)

/-- The groups with a key. -/
def keyed (h : Head) : List Group := h.groups.filter (·.key.isSome)

/-- What is wrong with the head, if anything. -/
def problem? (h : Head) : Option String :=
  if h.unterminated then some ("unterminated argument group in call to ." ++ h.name) else none

end Head

/-! ## Reading -/

/-- The name at the start of a text, empty if none starts there, and the rest. -/
def takeName (cs : List Char) : List Char × List Char :=
  match cs with
  | c :: _ => if isNameStart c then cs.span isNameChar else ([], cs)
  | [] => ([], [])

/-- The inside of a group whose opening brace was read, `depth` groups being open
inside it, and what follows its closing brace; nothing if it never closes. -/
def takeBraced? (depth : Nat) : List Char → Option (List Char × List Char)
  | [] => none
  | '\\' :: '{' :: rest => (takeBraced? depth rest).map fun (v, r) => ('{' :: v, r)
  | '\\' :: '}' :: rest => (takeBraced? depth rest).map fun (v, r) => ('}' :: v, r)
  | '{' :: rest => (takeBraced? (depth + 1) rest).map fun (v, r) => ('{' :: v, r)
  | '}' :: rest =>
    match depth with
    | 0 => some ([], rest)
    | depth + 1 => (takeBraced? depth rest).map fun (v, r) => ('}' :: v, r)
  | c :: rest => (takeBraced? depth rest).map fun (v, r) => (c :: v, r)

/-- The key of a group at the start of a text and the text after the group's
opening brace; nothing if no group starts there. -/
def takeOpening? (cs : List Char) : Option (Option String × List Char) :=
  match takeName cs with
  | ([], '{' :: rest) => some (none, rest)
  | (c :: name, ':' :: '{' :: rest) => some (some (String.ofList (c :: name)), rest)
  | _ => none

/-- What stands at the start of a text in the place of a further group. -/
inductive GroupScan where
  /-- No group is opened there. -/
  | absent
  /-- A group is opened and never closed. -/
  | open
  /-- A group: its key, its value and the text after it. -/
  | complete (key : Option String) (value : List Char) (rest : List Char)

/-- Reads a group. -/
def scanGroup (cs : List Char) : GroupScan :=
  match takeOpening? cs with
  | none => .absent
  | some (key, rest) =>
    match takeBraced? 0 rest with
    | none => .open
    | some (value, rest) => .complete key value rest

/-- The groups at the start of a text that stands at `offset`, the text after the
last of them with its offset, and whether a further group is left open. A text of
`n` characters holds at most `n` groups, so `n` rounds reach the end. -/
def scanGroups : Nat → Nat → List Char → List Group × Nat × Bool
  | 0, offset, _ => ([], offset, false)
  | rounds + 1, offset, cs =>
    let body := cs.dropWhile fun c => c == ' ' || c == '\t'
    let start := offset + (cs.length - body.length)
    match scanGroup body with
    | .absent => ([], offset, false)
    | .open => ([], offset, true)
    | .complete key value rest =>
      let stop := start + (body.length - rest.length)
      let (groups, last, isOpen) := scanGroups rounds stop rest
      (⟨key, String.ofList value, start, stop⟩ :: groups, last, isOpen)

/-- The head at the start of a text that stands at `offset`. -/
def headAt? (offset : Nat) (cs : List Char) : Option Head :=
  match cs with
  | '.' :: rest =>
    match takeName rest with
    | ([], _) => none
    | (name, after) =>
      let nameStop := offset + 1 + name.length
      let (groups, last, isOpen) := scanGroups after.length nameStop after
      some
        { name := String.ofList name
          groups
          start := offset
          stop := if isOpen then nameStop else last
          unterminated := isOpen }
  | _ => none

/-- The head that starts at an offset of a text. -/
def scan (text : List Char) (start : Nat) : Option Head := headAt? start (text.drop start)

end Livedoc.Call
