import Livedoc.Text.Literal
import Livedoc.Tree.Node

/-!
# The outline of a tree

The outline shows a tree as text for inspection: one line a node, indented by two
spaces a level. A node is shown by its kind and by what tells it apart; contents
appear as literals. The arguments of a call, its body, and the cells of a table
have lines of their own.
-/

namespace Livedoc.Tree

open Livedoc.Text

namespace Node

/-- The line of a node, without its indentation. -/
def label : Node → String
  | text content _ => "Text(" ++ literal content ++ ")"
  | code content language inline _ =>
    let language := language.getD ""
    "Code" ++ (if language = "" then "" else " " ++ language) ++
      (if inline then " inline" else "") ++ " " ++ literal content
  | math content display _ => "Math" ++ (if display then " display" else "") ++ " " ++ literal content
  | image source alt _ _ _ _ => "Image src=" ++ literal source ++ " alt=" ++ literal alt
  | lineBreak _ => "LineBreak"
  | thematicBreak _ => "ThematicBreak"
  | document .. => "Document"
  | paragraph .. => "Paragraph"
  | heading level _ _ => "Heading h" ++ toString level
  | list ordered _ _ _ => "List " ++ (if ordered then "ordered" else "bullet")
  | listItem .. => "ListItem"
  | blockquote .. => "Blockquote"
  | link .. => "Link"
  | emphasis .. => "Emphasis"
  | table .. => "Table"
  | row .. => "Row"
  | column .. => "Column"
  | grid .. => "Grid"
  | center .. => "Center"
  | call name _ _ _ _ => "FunctionCall ." ++ name
  | reference name _ => "VariableReference ." ++ name
  | conditional condition _ _ _ => "Conditional " ++ literal condition
  | loop count _ counter _ => "Loop " ++ literal count ++ " as " ++ counter

end Node

/-- One line of an outline. -/
def outlineLine (depth : Nat) (text : String) : String :=
  String.ofList (List.replicate (2 * depth) ' ') ++ text ++ "\n"

/-- The lines of the arguments of a call. -/
def outlineArguments (depth : Nat) (args : List Argument) (named : List NamedArgument) : String :=
  String.join (args.map fun a => outlineLine depth ("Arg " ++ literal a.content)) ++
    String.join (named.map fun a =>
      outlineLine depth ("Arg " ++ a.name ++ "=" ++ literal a.value.content))

namespace Node

mutual

/-- The lines of a node and of what is below it. -/
def outline (depth : Nat) : Node → String
  | n@(document cs _) | n@(paragraph cs _) | n@(heading _ cs _) | n@(list _ cs _ _)
  | n@(listItem cs _) | n@(blockquote cs _ _) | n@(link _ cs _ _) | n@(emphasis cs _ _)
  | n@(row cs _ _ _) | n@(column cs _ _ _) | n@(grid cs _ _ _) | n@(center cs _) =>
    outlineLine depth n.label ++ outlineAll (depth + 1) cs
  | n@(table headers rows _ _) =>
    outlineLine depth n.label ++ outlineHeaders (depth + 1) 0 headers ++
      outlineRows (depth + 1) 0 rows
  | n@(call _ args named body _) =>
    outlineLine depth n.label ++ outlineArguments (depth + 1) args named ++
      (if body.isEmpty then "" else outlineLine (depth + 1) "Body") ++ outlineAll (depth + 2) body
  | n@(conditional _ consequent alternative _) =>
    outlineLine depth n.label ++ outlineAll (depth + 1) consequent ++
      outlineAll (depth + 1) alternative
  | n@(loop _ body _ _) => outlineLine depth n.label ++ outlineAll (depth + 1) body
  | n => outlineLine depth n.label

/-- The lines of several nodes. -/
def outlineAll (depth : Nat) : List Node → String
  | [] => ""
  | n :: rest => n.outline depth ++ outlineAll depth rest

/-- The lines of header cells, numbered from `index`. -/
def outlineHeaders (depth index : Nat) : List (List Node) → String
  | [] => ""
  | cell :: rest =>
    outlineLine depth ("Header " ++ toString index) ++ outlineAll (depth + 1) cell ++
      outlineHeaders depth (index + 1) rest

/-- The lines of the cells of one row. -/
def outlineCells (depth : Nat) : List (List Node) → String
  | [] => ""
  | cell :: rest =>
    outlineLine depth "Cell" ++ outlineAll (depth + 1) cell ++ outlineCells depth rest

/-- The lines of rows, numbered from `index`. -/
def outlineRows (depth index : Nat) : List (List (List Node)) → String
  | [] => ""
  | cells :: rest =>
    outlineLine depth ("Row " ++ toString index) ++ outlineCells (depth + 1) cells ++
      outlineRows depth (index + 1) rest

end

end Node

/-- The outline of a document. -/
def Document.outline (d : Document) : String := d.toNode.outline 0

end Livedoc.Tree
