/-!
# Positions and spans

A position in a source text is a line and a column, both counted from one, and an
offset, counted from zero. Lengths are in characters. A span runs from a start to
an end position.

A node that was not read from a source has no place in one. Its span is the
`unknown` one, and any span on line zero counts as unknown.
-/

namespace Livedoc.Source

/-- A place in a source text. -/
structure Position where
  /-- Line, from one. -/
  line : Nat
  /-- Column within the line, from one. -/
  column : Nat
  /-- Characters before the place. -/
  offset : Nat
deriving DecidableEq, Repr, Inhabited

/-- A stretch of a source text. -/
structure Span where
  /-- The first place of the stretch. -/
  start : Position
  /-- The place after its last character. -/
  stop : Position
deriving DecidableEq, Repr, Inhabited

namespace Span

/-- The span of something that stands in no source text. -/
def unknown : Span := ⟨⟨0, 0, 0⟩, ⟨0, 0, 0⟩⟩

/-- Whether a span says where something stands. -/
def isKnown (s : Span) : Bool := s.start.line > 0

/-- The line a span starts on, if it is known. -/
def line? (s : Span) : Option Nat := if s.isKnown then some s.start.line else none

/-- The column a span starts at, if it is known. -/
def column? (s : Span) : Option Nat := if s.isKnown then some s.start.column else none

/-- From the start of the first known span of a list to the end of the last one;
`fallback` if none is known. -/
def cover (spans : List Span) (fallback : Span) : Span :=
  match spans.filter isKnown with
  | [] => fallback
  | first :: rest => ⟨first.start, ((first :: rest).getLastD first).stop⟩

end Span

end Livedoc.Source
