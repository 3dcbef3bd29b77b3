/-!
# Blocks

The block structure of a Markdown text. Paragraphs, headings and table cells hold
raw text here: what stands within them is read only when all blocks are known,
because a link may use a reference that is defined further down.
-/

namespace Livedoc.Markdown

/-- A block of Markdown. -/
inductive Block where
  /-- Blank lines; they separate blocks and make lists loose. -/
  | blank
  | paragraph (text : List Char)
  /-- A paragraph of a list item whose list is tight. -/
  | tightText (text : List Char)
  | heading (level : Nat) (text : List Char)
  /-- Code with the text after its opening fence, if there is any. -/
  | code (raw : List Char) (info : Option (List Char))
  | math (raw : List Char)
  | thematicBreak
  | quote (children : List Block)
  /-- A list; `start` is given unless the numbers start with one. -/
  | list (ordered : Bool) (start : Option Nat) (items : List (List Block))
  | html (raw : List Char)
  | table (headers : List (List Char)) (alignment : List (Option String))
      (rows : List (List (List Char)))

namespace Block

/-- A block as it stands in a tight list. -/
def tightened : Block → Block
  | paragraph text => tightText text
  | b => b

/-- Whether a block is blank. -/
def isBlank : Block → Bool
  | blank => true
  | _ => false

/-- Whether a block is a paragraph. -/
def isParagraph : Block → Bool
  | paragraph _ => true
  | _ => false

/-- Whether the blocks of an item make its list loose. -/
def makesLoose (blocks : List Block) : Bool :=
  blocks.any isBlank || (blocks.filter isParagraph).length > 1

end Block

end Livedoc.Markdown
