import Livedoc.Tree.Node

/-!
# Walking a tree

The nodes of a tree in the order in which they are written, parents before their
children, and two questions that a walk answers: whether a dynamic node is left
anywhere, and what text the tree holds.

The walks recurse over the tree itself. A table is walked cell by cell, so each
walk comes with its companions for lists of nodes, of cells and of rows.
-/

namespace Livedoc.Tree

namespace Node

mutual

/-- A node and all nodes below it, parents first. -/
def walk : Node → List Node
  | n@(document cs _) | n@(paragraph cs _) | n@(heading _ cs _) | n@(list _ cs _ _)
  | n@(listItem cs _) | n@(blockquote cs _ _) | n@(link _ cs _ _) | n@(emphasis cs _ _)
  | n@(row cs _ _ _) | n@(column cs _ _ _) | n@(grid cs _ _ _) | n@(center cs _) =>
    n :: walkAll cs
  | n@(table headers rows _ _) => n :: (walkCells headers ++ walkRows rows)
  | n@(call _ args _ body _) => n :: (args.map Argument.toNode ++ walkAll body)
  | n@(conditional _ consequent alternative _) => n :: (walkAll consequent ++ walkAll alternative)
  | n@(loop _ body _ _) => n :: walkAll body
  | n => [n]

/-- The walks of several nodes, one after the other. -/
def walkAll : List Node → List Node
  | [] => []
  | n :: rest => n.walk ++ walkAll rest

/-- The walks of the nodes of several cells. -/
def walkCells : List (List Node) → List Node
  | [] => []
  | cell :: rest => walkAll cell ++ walkCells rest

/-- The walks of the nodes of several rows. -/
def walkRows : List (List (List Node)) → List Node
  | [] => []
  | cells :: rest => walkCells cells ++ walkRows rest

end

/-- Whether a node or a node below it is dynamic. -/
def containsDynamic (n : Node) : Bool := n.walk.any isDynamic

mutual

/-- The text that a node holds: of leaves their content, of an image its
description, of a reference its spelling, of a call nothing. -/
def textContent : Node → String
  | text content _ | code content _ _ _ | math content _ _ => content
  | image _ alt _ _ _ _ => alt
  | lineBreak _ => "\n"
  | thematicBreak _ => ""
  | reference name _ => "." ++ name
  | call .. => ""
  | document cs _ | paragraph cs _ | heading _ cs _ | list _ cs _ _ | listItem cs _
  | blockquote cs _ _ | link _ cs _ _ | emphasis cs _ _ | row cs _ _ _ | column cs _ _ _
  | grid cs _ _ _ | center cs _ => textOf cs
  | table headers rows _ _ => textOfCells headers ++ textOfRows rows
  | conditional _ consequent alternative _ => textOf consequent ++ textOf alternative
  | loop _ body _ _ => textOf body

/-- The text that several nodes hold. -/
def textOf : List Node → String
  | [] => ""
  | n :: rest => n.textContent ++ textOf rest

/-- The text that several cells hold. -/
def textOfCells : List (List Node) → String
  | [] => ""
  | cell :: rest => textOf cell ++ textOfCells rest

/-- The text that several rows hold. -/
def textOfRows : List (List (List Node)) → String
  | [] => ""
  | cells :: rest => textOfCells cells ++ textOfRows rest

end

end Node

end Livedoc.Tree
