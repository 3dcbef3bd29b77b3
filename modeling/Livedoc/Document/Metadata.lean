import Livedoc.Dictionary
import Livedoc.Text.Blank
import Livedoc.Tree.Node

/-!
# Metadata at a glance

Some calls say something about the document itself: its title, author, language,
type and theme. They are looked at before the document is expanded, so that its
content can already refer to what they say. Only calls at the top level count, and
only their first argument, as it is written.
-/

namespace Livedoc.Document

open Livedoc.Text Livedoc.Tree

/-- The metadata that calls by certain names set. -/
def metadataKeys : Dictionary String :=
  [("docname", "title"), ("docauthor", "author"), ("doclang", "language"), ("doctype", "doctype"),
   ("theme", "theme")]

/-- The metadata with what one top-level node says. A type that does not exist says
nothing. -/
def addMetadata (types : List String) (metadata : Dictionary String) : Node → Dictionary String
  | .call name (first :: _) named _ _ =>
    match metadataKeys.get? name with
    | none => metadata
    | some key =>
      let value := strip first.content
      if key == "doctype" && !types.contains value then metadata
      else
        let metadata := metadata.set key value
        match if key == "theme" then Node.namedValue? named "layout" else none with
        | some layout => if layout = "" then metadata else metadata.set "layout" (strip layout)
        | none => metadata
  | _ => metadata

/-- The metadata of a document over some defaults, `types` being the document types
that exist. -/
def metadata (types : List String) (d : Document) (defaults : Dictionary String) :
    Dictionary String :=
  d.children.foldl (addMetadata types) defaults

end Livedoc.Document
