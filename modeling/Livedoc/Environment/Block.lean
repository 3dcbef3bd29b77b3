import Livedoc.Environment.Failure

/-!
# Blocks

Work on an environment enters blocks and leaves them again: a frame of variables, a
call, a file, and the stretch of work during which the text of a file is the source.
What entering a block overwrites is kept in the open block, and leaving the block
brings it back. A call and a file are entered only where the limits allow it; where
they do not, the environment stays as it is.
-/

namespace Livedoc

open Livedoc.Source

/-- How a block is entered. -/
inductive Opening where
  /-- With a frame of variables. -/
  | frame (locals : Frame)
  /-- By a call with its named arguments. -/
  | call (name : String) (named : Dictionary String) (span : Span)
  /-- With a file at a resolved path; `display` is the path as the document spells it. -/
  | file (path : Path) (display : String) (span : Span)
  /-- With the text of a file as the source. -/
  | source (path : Path) (text : String)

/-- An open block, with what leaving it has to bring back. -/
inductive OpenBlock where
  | frame
  | call (named : Dictionary String)
  | file
  | source (text filename : String) (folder : Path)

namespace Environment

/-- The environment within a block, and what leaving the block needs. -/
def enter (e : Environment) : Opening → Except Failure (Environment × OpenBlock)
  | .frame locals => .ok (e.mapStore (·.push locals), .frame)
  | .call name named span =>
    match e.setting.call name named span with
    | .ok setting => .ok ({ e with setting }, .call e.setting.named)
    | .error f => .error f
  | .file path display span =>
    match e.setting.including path display span with
    | .ok setting => .ok ({ e with setting }, .file)
    | .error f => .error f
  | .source path text =>
    .ok ({ e with setting := e.setting.reading path text },
      .source e.setting.source e.setting.filename e.setting.folder)

/-- The environment after a block is left. -/
def leave (e : Environment) : OpenBlock → Environment
  | .frame => e.mapStore (·.pop)
  | .call named => { e with setting := { e.setting with calls := e.setting.calls.dropLast, named } }
  | .file => { e with setting := { e.setting with includes := e.setting.includes.dropLast } }
  | .source source filename folder =>
    { e with setting := { e.setting with source, filename, folder } }

end Environment

end Livedoc
