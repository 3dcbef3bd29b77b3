import Livedoc.Markdown.Block.Quote

/-!
# Items of a list

The lines that belong to a list item: those indented to the column of its content,
blank lines among them, and lines that lazily continue a paragraph. An item ends
where the next item of the list starts, where a block of another kind starts, or
at a line that is not indented after a blank one.
-/

namespace Livedoc.Markdown

open Livedoc.Text

/-- The lines of an item after its first one, and what follows. -/
structure ItemBody where
  /-- The lines that belong to the item, without their indentation. -/
  body : List Line
  /-- How many lines of the text that is. -/
  taken : Nat
  /-- The marker of the next item of the same list, if it follows directly. -/
  next : Option Marker
  /-- Whether a blank line stands before the next item. -/
  blankBefore : Bool

/-- One more line of an item. -/
def ItemBody.cons (l : Line) (b : ItemBody) : ItemBody :=
  { b with body := l :: b.body, taken := b.taken + 1 }

/-- Whether a line ends a list item that it is not indented for. Only blocks
indented by at most `indent` spaces count. -/
def endsItem (indent : Nat) (cs : List Char) : Bool :=
  isThematicBreak indent cs || (fence? indent cs).any Fence.opens ||
    (dropIndent? indent cs).any (fun p => (markedHeading? p.2).isSome) ||
    (dropIndent? indent cs).any (fun p => p.2.head? == some '>') ||
    interruptsAsHtml indent cs || (marker? indent cs).isSome

/-- The lines of an item from the given ones on. `column` is where the content of
the item starts, `indent` limits the indentation of a marker, `started` tells
whether the item has content already and `afterBlank` whether the line before was
blank. -/
def itemBody (bullet : Char) (column indent : Nat) (started afterBlank : Bool) :
    List Line → ItemBody
  | [] => ⟨[], 0, none, afterBlank⟩
  | l :: rest =>
    if isBlankLine l.chars then
      (itemBody bullet column indent started true rest).cons { l with chars := [] }
    else
      let expanded := expandLeadingTab 4 l.chars
      if indentOf expanded ≥ column then
        if afterBlank && !started then ⟨[], 0, none, afterBlank⟩
        else
          (itemBody bullet column indent true false rest).cons
            { l with chars := expandSecondTab (expanded.drop column) }
      else if isThematicBreak indent l.chars then ⟨[], 0, none, afterBlank⟩
      else
        match nextMarker? bullet indent l.chars with
        | some m => ⟨[], 1, some m, afterBlank⟩
        | none =>
          if afterBlank || endsItem indent l.chars then ⟨[], 0, none, afterBlank⟩
          else
            (itemBody bullet column indent true false rest).cons
              { l with chars := expanded }

/-- The lines without the blank ones at the end; the first line always stays. -/
def dropBlankEnd : List Line → List Line
  | [] => []
  | l :: rest => l :: rest.foldr
      (fun next kept => if kept.isEmpty && allBlank next.chars then [] else next :: kept) []

end Livedoc.Markdown
