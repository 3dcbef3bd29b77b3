import Livedoc.Source.Span

/-!
# From offsets to lines and columns

The index of a source text lists where its lines start. A line starts at offset
zero and after every newline; nothing else ends a line here.

An offset outside the text is moved to its nearer end, and so is a line number.
-/

namespace Livedoc.Source

/-- Where the lines of a text start, in increasing order, and how long it is. -/
structure LineIndex where
  /-- Length of the text. -/
  size : Nat
  /-- Offsets after the newlines. The first line starts at zero. -/
  breaks : List Nat

namespace LineIndex

/-- The offsets after the newlines of a text that stands at `offset`. -/
def breaksFrom (offset : Nat) : List Char → List Nat
  | [] => []
  | c :: rest =>
    if c = '\n' then (offset + 1) :: breaksFrom (offset + 1) rest
    else breaksFrom (offset + 1) rest

/-- The index of a text. -/
def ofText (cs : List Char) : LineIndex := ⟨cs.length, breaksFrom 0 cs⟩

/-- The index of a source. -/
def of (source : String) : LineIndex := ofText source.toList

/-- The number of lines. -/
def lineCount (index : LineIndex) : Nat := index.breaks.length + 1

/-- The last start at or before `offset` with its line number. `line` and `start`
are the line before the first of the breaks. -/
def locate (offset : Nat) (line start : Nat) : List Nat → Nat × Nat
  | [] => (line, start)
  | next :: rest => if next ≤ offset then locate offset (line + 1) next rest else (line, start)

/-- The position of an offset. -/
def position (index : LineIndex) (offset : Int) : Position :=
  let offset := min offset.toNat index.size
  let (line, start) := locate offset 1 0 index.breaks
  ⟨line, offset - start + 1, offset⟩

/-- The offset at which a line starts. -/
def lineStart (index : LineIndex) (line : Int) : Nat :=
  let line := min line.toNat index.lineCount
  (0 :: index.breaks).getD (line - 1) 0

/-- The span from one offset to another. -/
def span (index : LineIndex) (start stop : Int) : Span :=
  ⟨index.position start, index.position stop⟩

end LineIndex

end Livedoc.Source
