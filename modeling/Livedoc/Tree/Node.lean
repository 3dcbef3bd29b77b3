import Livedoc.Source.Span

/-!
# The document tree

A document is a tree of nodes. Leaves hold content, containers hold child nodes,
layout containers arrange theirs on the page, and dynamic nodes stand for content
that expansion will put in their place.

Every node carries the span it was read from. The span says where a node stands
and not what it is: `Node.same` compares nodes without looking at it.
-/

namespace Livedoc.Tree

open Livedoc.Source

/-- The text of an argument of a call. -/
structure Argument where
  /-- The text, not yet read for calls and references. -/
  content : String
  /-- Where it stands. -/
  span : Span := .unknown
deriving DecidableEq, Repr

/-- An argument with a key. -/
structure NamedArgument where
  /-- The key. -/
  name : String
  /-- The argument. -/
  value : Argument
  /-- Where key and argument stand. -/
  span : Span := .unknown
deriving DecidableEq, Repr

/-- A node of a document. -/
inductive Node where
  /-- A run of text. -/
  | text (content : String) (span : Span)
  /-- Code, within a line or as a block. -/
  | code (content : String) (language : Option String) (inline : Bool) (span : Span)
  /-- A formula, within a line or set apart. -/
  | math (content : String) (display : Bool) (span : Span)
  /-- An image, possibly with its measures. -/
  | image (source alt : String) (title width height : Option String) (span : Span)
  /-- A forced line break. -/
  | lineBreak (span : Span)
  /-- A horizontal rule; it also separates slides. -/
  | thematicBreak (span : Span)
  /-- A whole document. -/
  | document (children : List Node) (span : Span)
  | paragraph (children : List Node) (span : Span)
  | heading (level : Int) (children : List Node) (span : Span)
  /-- A list; `start` is the number of the first item where it is not one. -/
  | list (ordered : Bool) (children : List Node) (start : Option Int) (span : Span)
  | listItem (children : List Node) (span : Span)
  /-- A quotation, possibly of a type such as `note`. -/
  | blockquote (children : List Node) (quoteType : Option String) (span : Span)
  | link (url : String) (children : List Node) (title : Option String) (span : Span)
  | emphasis (children : List Node) (strong : Bool) (span : Span)
  /-- A table: the header cells, the rows of cells and the alignment of the columns. -/
  | table (headers : List (List Node)) (rows : List (List (List Node)))
      (alignment : List (Option String)) (span : Span)
  /-- Content side by side. -/
  | row (children : List Node) (alignment : String) (gap : Option String) (span : Span)
  /-- Content from top to bottom. -/
  | column (children : List Node) (alignment : String) (gap : Option String) (span : Span)
  /-- Content in a grid. -/
  | grid (children : List Node) (columns : Int) (gap : Option String) (span : Span)
  /-- Content in the middle. -/
  | center (children : List Node) (span : Span)
  /-- A call with its arguments and its body. -/
  | call (name : String) (arguments : List Argument) (named : List NamedArgument)
      (body : List Node) (span : Span)
  /-- A reference to a variable. -/
  | reference (name : String) (span : Span)
  /-- A choice between two contents. -/
  | conditional (condition : String) (consequent alternative : List Node) (span : Span)
  /-- Content repeated with a counting variable. -/
  | loop (count : String) (body : List Node) (counter : String) (span : Span)

/-- The root of a tree. -/
structure Document where
  /-- The top-level nodes. -/
  children : List Node := []
  /-- The span of the whole source. -/
  span : Span := .unknown

/-- The root as a node. -/
def Document.toNode (d : Document) : Node := .document d.children d.span

/-- An argument as a text node. -/
def Argument.toNode (a : Argument) : Node := .text a.content a.span

namespace Node

/-- Where a node stands. -/
def span : Node → Span
  | text _ s | code _ _ _ s | math _ _ s | image _ _ _ _ _ s | lineBreak s | thematicBreak s
  | document _ s | paragraph _ s | heading _ _ s | list _ _ _ s | listItem _ s
  | blockquote _ _ s | link _ _ _ s | emphasis _ _ s | table _ _ _ s | row _ _ _ s
  | column _ _ _ s | grid _ _ _ s | center _ s | call _ _ _ _ s | reference _ s
  | conditional _ _ _ s | loop _ _ _ s => s

/-- The kind of a node, as a word. -/
def kind : Node → String
  | text .. => "text"
  | code .. => "code"
  | math .. => "math"
  | image .. => "image"
  | lineBreak .. => "line_break"
  | thematicBreak .. => "thematic_break"
  | document .. => "document"
  | paragraph .. => "paragraph"
  | heading .. => "heading"
  | list .. => "list"
  | listItem .. => "list_item"
  | blockquote .. => "blockquote"
  | link .. => "link"
  | emphasis .. => "emphasis"
  | table .. => "table"
  | row .. => "row"
  | column .. => "column"
  | grid .. => "grid"
  | center .. => "center"
  | call .. => "function_call"
  | reference .. => "variable_reference"
  | conditional .. => "conditional"
  | loop .. => "loop"

/-- A node that expansion replaces. -/
def isDynamic : Node → Bool
  | call .. | reference .. | conditional .. | loop .. => true
  | _ => false

/-- A node that stands within a line. Calls do not count; a reference does. -/
def isInline : Node → Bool
  | code _ _ inline _ => inline
  | math _ display _ => !display
  | text .. | image .. | lineBreak .. | link .. | emphasis .. | reference .. => true
  | _ => false

/-- The nodes directly below a node: the children of a container, the cells of a
table, the arguments and the body of a call, the branches of a choice. -/
def children : Node → List Node
  | document cs _ | paragraph cs _ | heading _ cs _ | list _ cs _ _ | listItem cs _
  | blockquote cs _ _ | link _ cs _ _ | emphasis cs _ _ | row cs _ _ _ | column cs _ _ _
  | grid cs _ _ _ | center cs _ => cs
  | table headers rows _ _ => headers.flatten ++ rows.flatten.flatten
  | call _ args _ body _ => args.map Argument.toNode ++ body
  | conditional _ consequent alternative _ => consequent ++ alternative
  | loop _ body _ _ => body
  | text .. | code .. | math .. | image .. | lineBreak .. | thematicBreak .. | reference .. => []

/-- A container with other children; nothing for a node that is no container. -/
def withChildren? (n : Node) (cs : List Node) : Option Node :=
  match n with
  | document _ s => some (document cs s)
  | paragraph _ s => some (paragraph cs s)
  | heading level _ s => some (heading level cs s)
  | list ordered _ start s => some (list ordered cs start s)
  | listItem _ s => some (listItem cs s)
  | blockquote _ quoteType s => some (blockquote cs quoteType s)
  | link url _ title s => some (link url cs title s)
  | emphasis _ strong s => some (emphasis cs strong s)
  | row _ alignment gap s => some (row cs alignment gap s)
  | column _ alignment gap s => some (column cs alignment gap s)
  | grid _ columns gap s => some (grid cs columns gap s)
  | center _ s => some (center cs s)
  | _ => none

/-- The text of the first named argument of a call with this key. -/
def namedValue? (named : List NamedArgument) (name : String) : Option String :=
  (named.find? (·.name == name)).map (·.value.content)

end Node

end Livedoc.Tree
