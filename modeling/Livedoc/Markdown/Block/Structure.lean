import Livedoc.Markdown.Block.Basic
import Livedoc.Markdown.Block.Fence
import Livedoc.Markdown.Block.Item
import Livedoc.Markdown.Block.Table
import Livedoc.Markdown.Reference

/-!
# Block structure

The blocks of a Markdown text. The lines are taken one after the other; the first
kind of block that a line can start wins, and a line that starts none is a line of
a paragraph. A line that looks like the start of a block but is not is also
paragraph text.

Quotations and list items hold blocks of their own, read by the same rules. What
is nested deeper than a fixed number of levels is no longer recognised as a list
or a quotation, so the recursion is on the levels that are left.
-/

namespace Livedoc.Markdown

open Livedoc.Text

/-- What has been read so far: the blocks, last one first, and the references. -/
structure Reading where
  blocks : List Block
  references : References

namespace Reading

/-- One more block. -/
def push (r : Reading) (b : Block) : Reading := { r with blocks := b :: r.blocks }

/-- Whether the last block is a paragraph, which a further line may continue. -/
def inParagraph (r : Reading) : Bool := (r.blocks.head?).any Block.isParagraph

/-- A line of text: it continues the paragraph before it, or starts one. -/
def addText (r : Reading) (line : List Char) : Reading :=
  match r.blocks with
  | .paragraph text :: rest => { r with blocks := .paragraph (text ++ line ++ ['\n']) :: rest }
  | _ => r.push (.paragraph (line ++ ['\n']))

/-- Several lines of text. -/
def addTexts (r : Reading) (ls : List Line) : Reading :=
  ls.foldl (fun r l => r.addText l.chars) r

end Reading

/-- Reads the blocks of nested lines, given the references known so far. -/
abbrev Nested := List Line → References → List Block × References

/-- The items of a list as they are collected. -/
structure ItemList where
  /-- The items, last one first. -/
  items : List (List Block)
  /-- Whether a blank line makes the list loose. -/
  loose : Bool
  references : References
  /-- The lines taken after the first. -/
  taken : Nat

/-- Reads the items of a list from the item with marker `m` on, whose line is
followed by the given lines. A list has no more items than lines, so that many
rounds suffice. -/
def readItems (nested : Nested) (bullet : Char) :
    Nat → Marker → List Line → ItemList → ItemList
  | 0, _, _, acc => acc
  | rounds + 1, m, rest, acc =>
    let (first, column) := m.content
    let body := itemBody bullet column (min 3 m.width) (!first.isEmpty) false rest
    let own := if first.isEmpty then [] else [{ chars := first : Line }]
    let (blocks, refs) := nested (dropBlankEnd (own ++ body.body)) acc.references
    let acc :=
      { items := blocks :: acc.items
        loose := acc.loose || Block.makesLoose blocks || (body.next.isSome && body.blankBefore)
        references := refs
        taken := acc.taken + body.taken }
    match body.next with
    | some next => readItems nested bullet rounds next (rest.drop body.taken) acc
    | none => acc

/-- Reads a list that starts with marker `m`: the list, the references and the
number of lines after the first. -/
def readList (nested : Nested) (m : Marker) (rest : List Line) (refs : References) :
    Block × References × Nat :=
  let acc := readItems nested m.bullet (rest.length + 1) m rest ⟨[], false, refs, 0⟩
  let items := acc.items.reverse
  let items := if acc.loose then items else items.map (·.map Block.tightened)
  (.list m.number.isSome (m.number.filter (· != 1)) items, acc.references, acc.taken)

/-- Where blocks are read: whether formulas and tables set apart are recognised, and
how lists and quotations are read, if they are. -/
structure Rules where
  outermost : Bool
  nested : Option Nested

/-- Whether a list may start here. An empty item, and a number other than one, do
not interrupt a paragraph. -/
def canStartList (m : Marker) (r : Reading) : Bool :=
  !(r.inParagraph && (m.isEmpty || (m.number.any (· != 1))))

/-- A list that the line starts, if lists are recognised. -/
def stepList (rules : Rules) (line : Line) (rest : List Line) (r : Reading) :
    Option (Reading × Nat) :=
  match rules.nested, marker? 3 line.chars with
  | some nested, some m =>
    if canStartList m r then
      let (list, refs, taken) := readList nested m rest r.references
      some ({ blocks := list :: r.blocks, references := refs }, taken)
    else some (r.addText line.chars, 0)
  | _, _ => none

/-- A heading, a rule or a list, for a line that consists of underlining marks. -/
def stepUnderline (rules : Rules) (level : Nat) (line : Line) (rest : List Line)
    (r : Reading) : Reading × Nat :=
  match r.blocks with
  | .paragraph text :: before =>
    if line.isLazy then (r.addText line.chars, 0)
    else ({ r with blocks := .heading level text :: before }, 0)
  | _ =>
    if isThematicBreak 3 line.chars then (r.push .thematicBreak, 0)
    else (stepList rules line rest r).getD (r.addText line.chars, 0)

/-- A quotation, given its lines. -/
def stepQuote (nested : Nested) (inside : List Line) (r : Reading) : Reading × Nat :=
  let (blocks, refs) := nested inside r.references
  ({ blocks := .quote blocks :: r.blocks, references := refs }, inside.length - 1)

/-- A block of HTML, given how it ends. -/
def stepHtml (e : HtmlEnd) (line : Line) (rest : List Line) (r : Reading) : Reading × Nat :=
  let take (e : HtmlEnd) : Reading × Nat :=
    let size := e.length (line :: rest)
    (r.push (.html (textOfLines ((line :: rest).take size))), size - 1)
  match e with
  | .atBlankAlone => if r.inParagraph then (r.addText line.chars, 0) else take e
  | _ => take e

/-- A definition of a reference, which cannot interrupt a paragraph. -/
def stepDefinition (line : Line) (rest : List Line) (r : Reading) : Reading × Nat :=
  if r.inParagraph then (r.addText line.chars, 0)
  else
    match definition? (line :: rest) with
    | some (key, target, size) =>
      ({ r with references := r.references.define key target }, size - 1)
    | none => (r.addText line.chars, 0)

/-- A table, or a line of text. -/
def stepTable (line : Line) (rest : List Line) (r : Reading) : Reading × Nat :=
  match table? line.chars rest with
  | some ((headers, alignment, rows), taken) => (r.push (.table headers alignment rows), taken)
  | none => (r.addText line.chars, 0)

/-- How the block of HTML ends that a line starts, given the lines after it. -/
def htmlEndOf? (line : Line) (rest : List Line) : Option HtmlEnd :=
  match dropIndent? 3 line.chars with
  | some (_, '<' :: _) => htmlEnd? 3 (textOfLines (line :: rest))
  | _ => none

/-- Whether the line starts like markup of HTML. -/
def startsHtml (cs : List Char) : Bool :=
  match dropIndent? 3 cs with
  | some (_, '<' :: '/' :: c :: _) => Html.isLetter c
  | some (_, '<' :: c :: _) => Html.isLetter c
  | _ => false

/-- A line of text, as what one line starts. -/
def stepText (line : Line) (r : Reading) : Reading × Nat := (r.addText line.chars, 0)

/-- What one line starts: the reading after the block and the number of further
lines that the block takes. -/
def stepBlock (rules : Rules) (line : Line) (rest : List Line) (r : Reading) : Reading × Nat :=
  let cs := line.chars
  match fence? 3 cs with
  | some f =>
    if f.opens then
      let (content, taken) := f.content rest
      (r.push (.code (f.raw content) f.infoText), taken)
    else stepText line r
  | none =>
  if isIndentedCode cs then
    if r.inParagraph then stepText line r
    else
      let taken := indentedLength rest
      (r.push (.code (indentedText (line :: rest.take taken)) none), taken)
  else
  match markedHeading? cs with
  | some (level, title) => (r.push (.heading level title), 0)
  | none =>
  match underline? cs with
  | some level => stepUnderline rules level line rest r
  | none =>
  if isThematicBreak 3 cs then (r.push .thematicBreak, 0)
  else
  match rules.nested.bind fun nested => (quote? (line :: rest)).map fun q => (nested, q) with
  | some (nested, inside) => stepQuote nested inside r
  | none =>
  match if rules.outermost then formula? cs rest else none with
  | some (raw, taken) => (r.push (.math raw), taken)
  | none =>
  match stepList rules line rest r with
  | some result => result
  | none =>
  if startsDefinition (line :: rest) then stepDefinition line rest r
  else
  match htmlEndOf? line rest with
  | some e => stepHtml e line rest r
  | none =>
  if startsHtml cs then stepText line r
  else if isBlankLine cs then (r.push .blank, (rest.takeWhile fun l => isBlankLine l.chars).length)
  else if rules.outermost then stepTable line rest r
  else stepText line r

/-- Reads lines, the first `skip` of which belong to the last block. -/
def readLines (rules : Rules) : Nat → List Line → Reading → Reading
  | _, [], r => r
  | skip + 1, _ :: rest, r => readLines rules skip rest r
  | 0, line :: rest, r =>
    let (r, taken) := stepBlock rules line rest r
    readLines rules taken rest r

/-- The blocks of lines that are not nested deeper than `levels` more levels. -/
def readNested (outermost : Bool) : Nat → Nested
  | 0, ls, refs =>
    let r := readLines ⟨outermost, none⟩ 0 ls ⟨[], refs⟩
    (r.blocks.reverse, r.references)
  | levels + 1, ls, refs =>
    let r := readLines ⟨outermost, some (readNested false levels)⟩ 0 ls ⟨[], refs⟩
    (r.blocks.reverse, r.references)

/-- The levels of nesting at which lists and quotations are recognised. -/
def maxLevels : Nat := 20

/-- The blocks of a text and the references that it defines. -/
def readBlocks (cs : List Char) : List Block × References :=
  readNested true maxLevels (linesOf cs) []

end Livedoc.Markdown
