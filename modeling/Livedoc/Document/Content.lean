import Livedoc.Document.Cursor
import Livedoc.Document.TypedQuote
import Livedoc.Markdown.Block.Structure
import Livedoc.Markdown.Inline.Structure
import Livedoc.Tree.Walk

/-!
# From Markdown to nodes

The nodes of a stretch of Markdown. Leaves are found in the source; a container
spans from the first to the last node in it that was found.

A call within a line whose head is not complete stays as text, and is noted as a
mistake.
-/

namespace Livedoc.Document

open Livedoc.Source Livedoc.Text Livedoc.Tree Livedoc.Markdown

/-- The span that covers nodes. -/
def coverNodes (nodes : List Node) : Span := .cover (nodes.map Node.span) .unknown

/-- Neighbouring text nodes as one, `before` being the node before them. -/
def joinAfter (before : Node) : List Node → List Node
  | [] => [before]
  | n :: rest =>
    match before, n with
    | .text a s, .text b t =>
      joinAfter (.text (a ++ b) (if s.isKnown then ⟨s.start, t.stop⟩ else t)) rest
    | _, _ => before :: joinAfter n rest

/-- Neighbouring text nodes as one. -/
def joinTextNodes : List Node → List Node
  | [] => []
  | n :: rest => joinAfter n rest

/-! ## Markup within a line -/

/-- The node of a call head within a line. -/
def headNode (head : Call.Head) (raw : List Char) : Locating Node := do
  let span ← locate raw
  match head.problem? with
  | some message =>
    report message span
    return .text (String.ofList raw) span
  | none =>
    if head.isCall then
      let args := head.positional.map fun g => { content := g.value, span : Argument }
      let named := head.keyed.map fun g =>
        { name := g.key.getD "", value := { content := g.value, span }, span : NamedArgument }
      return .call head.name args named [] span
    else return .reference head.name span

mutual

/-- The node of a piece of markup. -/
def inlineNode : Inline → Locating Node
  | .text raw | .escaped raw => return .text (String.ofList raw) (← locate raw)
  | .softBreak => return .text "\n" (← locate ['\n'])
  | .hardBreak => return .lineBreak (← locate ['\n'])
  | .code raw => return .code (String.ofList raw) none true (← locate raw)
  | .math raw display => do
    let shown := if display then trim raw else raw
    return .math (String.ofList shown) display (← locate raw)
  | .emphasis strong children => do
    let nodes := joinTextNodes (← inlineNodeList children)
    return .emphasis nodes strong (coverNodes nodes)
  | .link url title children => do
    let nodes := joinTextNodes (← inlineNodeList children)
    return .link url nodes title (coverNodes nodes)
  | .image url title children => do
    let alt := joinTextNodes (← inlineNodeList children)
    return .image url (Node.textOf alt) title none none (coverNodes alt)
  | .sizedImage i => return .image i.source i.alt i.title i.width i.height (← locate i.raw)
  | .call head raw => headNode head raw
  | .html raw => return .text (String.ofList raw) (← locate raw)

/-- The nodes of several pieces, one for each. -/
def inlineNodeList : List Inline → Locating (List Node)
  | [] => return []
  | i :: rest => do
    let n ← inlineNode i
    let others ← inlineNodeList rest
    return n :: others

end

/-- The nodes of the pieces of a line. -/
def inlineNodes (pieces : List Inline) : Locating (List Node) := do
  return joinTextNodes (← inlineNodeList pieces)

/-- A character that the text of a block does not start or end with. -/
def isEdge (c : Char) : Bool := c == ' ' || c == '\r' || c == '\n' || c == '\t' || c == '\x0c'

/-- The nodes of the text of a block. -/
def textNodes (refs : References) (text : List Char) : Locating (List Node) :=
  inlineNodes (readInline refs (trimWhile isEdge text))

/-! ## Blocks -/

/-- The nodes of several cells. -/
def cellNodes (refs : References) (cells : List (List Char)) : Locating (List (List Node)) :=
  cells.mapM (textNodes refs)

/-- The nodes of a quotation without the marker of its type, and the type. -/
def takeQuoteType (children : List Node) : List Node × Option String :=
  match children with
  | .paragraph (.text content span :: more) s :: rest =>
    match takeMarker? content.toList with
    | none => (children, none)
    | some (label, after) =>
      let stripped := trimStart after
      let more := if stripped.isEmpty then more else .text (String.ofList stripped) span :: more
      let more := match more with
        | .text content span :: others =>
          let content := stripStart content
          if content.isEmpty then others else .text content span :: others
        | _ => more
      (if more.isEmpty then rest else .paragraph more s :: rest, some label)
  | _ => (children, none)

mutual

/-- The nodes of a block: none for blank lines, and else one. -/
def blockNodes (refs : References) : Block → Locating (List Node)
  | .blank => return []
  | .paragraph text | .tightText text => do
    let nodes ← textNodes refs text
    return [.paragraph nodes (coverNodes nodes)]
  | .heading level text => do
    let nodes ← textNodes refs text
    return [.heading level nodes (coverNodes nodes)]
  | .code raw info => do
    let span ← locate (raw.takeWhile (· != '\n'))
    let language := (words (info.getD [])).head?.map String.ofList
    return [.code (String.ofList (dropEndWhile (· == '\n') raw)) language false span]
  | .math raw => return [.math (String.ofList (trim raw)) true (← locate raw)]
  | .thematicBreak => return [.thematicBreak (← locate [])]
  | .quote children => do
    let (nodes, quoteType) := takeQuoteType (← blockListNodes refs children)
    return [.blockquote nodes quoteType (coverNodes nodes)]
  | .list ordered start items => do
    let nodes ← itemListNodes refs items
    return [.list ordered nodes (start.map Int.ofNat) (coverNodes nodes)]
  | .html raw => do
    let text := String.ofList (dropEndWhile (· == '\n') raw)
    return [.paragraph [.text text (← locate raw)] .unknown]
  | .table headers alignment rows => do
    let heads ← cellNodes refs headers
    let cells ← rows.mapM (cellNodes refs)
    return [.table heads cells alignment (coverNodes heads.flatten)]

/-- The nodes of several blocks. -/
def blockListNodes (refs : References) : List Block → Locating (List Node)
  | [] => return []
  | b :: rest => do
    let nodes ← blockNodes refs b
    let others ← blockListNodes refs rest
    return nodes ++ others

/-- The nodes of the blocks of a list item. Text of a tight list stands in the item
itself. -/
def itemNodes (refs : References) : List Block → Locating (List Node)
  | [] => return []
  | .tightText text :: rest => do
    let nodes ← textNodes refs text
    let others ← itemNodes refs rest
    return nodes ++ others
  | b :: rest => do
    let nodes ← blockNodes refs b
    let others ← itemNodes refs rest
    return nodes ++ others

/-- The items of a list. -/
def itemListNodes (refs : References) : List (List Block) → Locating (List Node)
  | [] => return []
  | item :: rest => do
    let nodes ← itemNodes refs item
    let others ← itemListNodes refs rest
    return .listItem nodes (coverNodes nodes) :: others

end

/-- The nodes of a stretch of Markdown. -/
def markdownNodes (cs : List Char) : Locating (List Node) :=
  let (blocks, refs) := readBlocks cs
  blockListNodes refs blocks

end Livedoc.Document
