import Livedoc.Decimal.Number
import Livedoc.Dictionary
import Livedoc.Html.Markup
import Livedoc.Html.Slug
import Livedoc.Text.Digit
import Livedoc.Text.Lines
import Livedoc.Tree.Walk

/-!
# The markup of a document

Every node becomes markup, as a block or within a line. Among blocks, a run of
nodes that belong within a line becomes a paragraph of its own. White space at the
ends of a block's content is dropped, and a block without content disappears.
Dynamic nodes should be gone before; those that are left give nothing.

Headings get identifiers made from their texts. A text that came before gets a
number, so the writer keeps how often each identifier was wanted.
-/

namespace Livedoc.Html

open Livedoc.Text Livedoc.Tree Livedoc.Decimal

/-- Writing markup, knowing how often each identifier was wanted so far. -/
abbrev Writing (α : Type) := StateM (Dictionary Nat) α

/-- The identifier for a heading that wants this one. -/
def claimId (slug : String) : Writing String := fun wanted =>
  let count := (wanted.get? slug).getD 0
  (if count = 0 then slug else slug ++ "-" ++ digitText count, wanted.set slug (count + 1))

/-! ## Attributes -/

/-- The class attribute. -/
def classed (name : String) : Attribute := ⟨.class, name⟩

/-- An attribute that is only written with a value. -/
def whenGiven (key : AttributeName) : Option String → List Attribute
  | none => []
  | some value => if value = "" then [] else [⟨key, value⟩]

/-- A style attribute, unless there is nothing to say. -/
def styled (declarations : List String) : List Attribute :=
  whenGiven .style (some (intercalate "; " declarations))

/-- The setting of a variable of the style sheet, if it has a value. -/
def customProperty (name : String) : Option String → List String
  | none => []
  | some value => if value = "" then [] else ["--" ++ name ++ ": " ++ value]

/-- A measure; a plain number is one in pixels. -/
def dimension (s : String) : String :=
  let cs := trim s.toList
  String.ofList cs ++ (if isDigits cs then "px" else "")

/-- The declaration of a measure of an image. -/
def measure (name : String) : Option String → List String
  | none => []
  | some value => if value = "" then [] else [name ++ ": " ++ dimension value]

/-- The class for an alignment, starting as the layout does. -/
def alignmentClass (start alignment : String) : String :=
  let token := classToken alignment
  start ++ (if token = "" then "start" else token)

/-! ## Elements -/

/-- An image. -/
def imageMarkup (source alt : String) (title width height : Option String) : Markup :=
  .void .img ([⟨.src, source⟩, ⟨.alt, alt⟩] ++ whenGiven .title title ++
    styled (measure "width" width ++ measure "height" height))

/-- A paragraph, unless it would be empty. -/
def paragraphOf (content : List Markup) : List Markup :=
  match Markup.trim content with
  | [] => []
  | inner => [.element .p [] inner]

/-- What a run of nodes within a line becomes among blocks. -/
def runOf (wrap : Bool) (content : List Markup) : List Markup :=
  if wrap then paragraphOf content else Markup.trim content

/-- One block after another; a block without markup disappears. -/
def consBlock (block : List Markup) (blocks : List (List Markup)) : List (List Markup) :=
  if block.isEmpty then blocks else block :: blocks

/-- A layout container. -/
def layoutOf (attributes : List Attribute) (blocks : List (List Markup)) : Markup :=
  .element .div attributes <|
    if blocks.isEmpty then [] else Markup.newline :: Markup.onLines blocks ++ [Markup.newline]

/-- A block of code; diagrams are drawn by a script. -/
def codeBlock (content : String) (language : Option String) : Markup :=
  let language := strip (language.getD "")
  if language = "mermaid" then .element .pre [classed "mermaid"] [.text content]
  else
    let attributes := if language = "" then [] else [classed ("language-" ++ classToken language)]
    .element .pre [] [.element .code attributes [.text content]]

/-- A cell of a table. -/
def cellOf (tag : Tag) (alignment : Option String) (content : List Markup) : Markup :=
  let attributes := match alignment with
    | none => []
    | some a => if a = "" then [] else [classed ("text-" ++ classToken a)]
  .element tag attributes (Markup.trim content)

/-- An element with each of its children on a line of its own. -/
def onOwnLines (tag : Tag) (children : List Markup) : Markup :=
  .element tag [] (Markup.newline :: children.flatMap fun m => [m, Markup.newline])

/-- A table with its header cells and its rows of cells. -/
def tableOf (headers : List Markup) (rows : List (List Markup)) : Markup :=
  onOwnLines .table <|
    onOwnLines .thead [onOwnLines .tr headers] ::
      (if rows.isEmpty then [] else [onOwnLines .tbody (rows.map (onOwnLines .tr))])

/-- A list with its items. -/
def listOf (ordered : Bool) (start : Option Int) (items : List (List Markup)) : Markup :=
  let attributes := match ordered, start with
    | true, some n => if n = 1 then [] else [⟨.start, intText n⟩]
    | _, _ => []
  .element (if ordered then .ol else .ul) attributes
    (Markup.newline :: Markup.onLines items ++ [Markup.newline])

/-- A quotation, possibly of a type. -/
def quotationOf (quoteType : Option String) (blocks : List (List Markup)) : Markup :=
  let attributes := match quoteType with
    | none => []
    | some t => if t = "" then [] else [classed ("quote-" ++ classToken t)]
  .element .blockquote attributes (Markup.newline :: Markup.onLines blocks ++ [Markup.newline])

/-- An item of a list. If all its nodes belong within a line, so does its content. -/
def itemOf (cs : List Node) (content : Writing (List Markup))
    (blocks : Writing (List (List Markup))) : Writing Markup := do
  if cs.all Node.isInline then return .element .li [] (Markup.trim (← content))
  else return .element .li [] (Markup.onLines (← blocks))

/-- A node of a list with its markup as an item. What is no item is put into one. -/
def asItem (n : Node) (content : List Markup) : List Markup :=
  match n with
  | .listItem .. => content
  | _ => [.element .li [] (if n.isInline then Markup.trim content else content)]

/-- The attributes of a container with gaps. -/
def gapped (name : String) (gap : Option String) : List Attribute :=
  classed name :: styled (customProperty "gap" gap)

/-! ## Nodes -/

namespace Node

mutual

/-- The markup of a node, within a line or as a block. -/
def markup (within : Bool) : Node → Writing (List Markup)
  | .text content _ => return [.text content]
  | .code content language _ _ =>
    return [if within then .element .code [] [.text content] else codeBlock content language]
  | .math content display _ =>
    let name := if display then "math math-display" else "math math-inline"
    return [.element (if within then .span else .div) [classed name] [.text content]]
  | .emphasis cs strong _ => return [.element (if strong then .strong else .em) [] (← markups cs)]
  | .link url cs title _ =>
    return [.element .a (⟨.href, url⟩ :: whenGiven .title title) (← markups cs)]
  | .image source alt title width height _ => return [imageMarkup source alt title width height]
  | .lineBreak _ => return [.void .br [], Markup.newline]
  | .paragraph cs _ => do
    let content ← markups cs
    return if within then content else paragraphOf content
  | .heading level cs _ => do
    let id ← claimId (slugify (Node.textOf cs))
    return [.element (.ofLevel level) [⟨.id, id⟩] (Markup.trim (← markups cs))]
  | .list ordered cs start _ => return [listOf ordered start (← itemMarkups cs)]
  | .listItem cs _ => return [← itemOf cs (markups cs) (blocksFrom false [] cs)]
  | .blockquote cs quoteType _ => return [quotationOf quoteType (← blocksFrom true [] cs)]
  | .thematicBreak _ => return [.void .hr []]
  | .table headers rows alignment _ => do
    let heads ← cellMarkups .th alignment headers
    return [tableOf heads (← rowMarkups alignment rows)]
  | .row cs alignment gap _ =>
    return [layoutOf (gapped (alignmentClass "dd-row alignment-" alignment) gap)
      (← blocksFrom false [] cs)]
  | .column cs alignment gap _ =>
    return [layoutOf (gapped (alignmentClass "dd-column cross-" alignment) gap)
      (← blocksFrom false [] cs)]
  | .grid cs columns gap _ =>
    return [layoutOf (classed "dd-grid" ::
      styled (customProperty "columns" (some (intText columns)) ++ customProperty "gap" gap))
      (← blocksFrom false [] cs)]
  | .center cs _ => return [layoutOf [classed "dd-center"] (← blocksFrom false [] cs)]
  | .document .. | .call .. | .reference .. | .conditional .. | .loop .. => return []

/-- The markup of several nodes within a line. -/
def markups : List Node → Writing (List Markup)
  | [] => return []
  | n :: rest => do
    let first ← markup true n
    let others ← markups rest
    return first ++ others

/-- The blocks that nodes become. `run` is the markup of the nodes within a line that
came last; `wrap` tells whether such a run becomes a paragraph. -/
def blocksFrom (wrap : Bool) (run : List Markup) : List Node → Writing (List (List Markup))
  | [] => return consBlock (runOf wrap run) []
  | n :: rest => do
    let next ← markup n.isInline n
    if n.isInline then blocksFrom wrap (run ++ next) rest
    else
      let blocks ← blocksFrom wrap [] rest
      return consBlock (runOf wrap run) (consBlock next blocks)

/-- The items of a list. -/
def itemMarkups : List Node → Writing (List (List Markup))
  | [] => return []
  | n :: rest => do
    let content ← markup n.isInline n
    let others ← itemMarkups rest
    return asItem n content :: others

/-- The cells of a row, with the alignments of their columns. -/
def cellMarkups (tag : Tag) (alignment : List (Option String)) :
    List (List Node) → Writing (List Markup)
  | [] => return []
  | cell :: rest => do
    let content ← markups cell
    let others ← cellMarkups tag alignment.tail rest
    return cellOf tag alignment.head?.join content :: others

/-- The rows of a table. -/
def rowMarkups (alignment : List (Option String)) :
    List (List (List Node)) → Writing (List (List Markup))
  | [] => return []
  | cells :: rest => do
    let first ← cellMarkups .td alignment cells
    let others ← rowMarkups alignment rest
    return first :: others

end

end Node

end Livedoc.Html
