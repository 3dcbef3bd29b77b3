import Livedoc.Html.Body
import Livedoc.Html.Resource
import Livedoc.Html.Stylesheet

/-!
# Pages

A document is written as its body alone or as a whole page. A page has a head with
the title, the author, the style sheet and what the document links, and a body that
wraps the content as its type asks: a slide show has a section for every slide, a
paged document and any other one have a single element around them.

What is written depends on the document and the presentation alone.
-/

namespace Livedoc.Html

open Livedoc.Tree

/-- How a document is shown. A text that is empty counts as not given. -/
structure Presentation where
  /-- The type of the document. -/
  type : String := "plain"
  theme : String := "default"
  layout : Option String := none
  title : String := "Document"
  author : Option String := none
  language : String := "en"
  /-- Whether a whole page is written. -/
  standalone : Bool := true
  medium : Medium := .screen
  /-- Further style sheets to link. -/
  stylesheets : List String := []
  /-- Further scripts to load. -/
  scripts : List String := []
  /-- Further names and contents of the head. -/
  properties : List (String × String) := []
deriving DecidableEq, Repr

/-- A text, or another one where it is empty. -/
def orElse (s fallback : String) : String := if s = "" then fallback else s

/-- The type of the document that is shown. -/
def Presentation.shownType (p : Presentation) : String := orElse p.type "plain"

/-- A name with a content for the head of a page. -/
def property (key content : String) : Markup := .void .meta [⟨.name, key⟩, ⟨.content, content⟩]

/-- Whether a document holds a diagram. -/
def hasDiagrams (d : Document) : Bool :=
  d.toNode.walk.any fun
    | .code _ language _ _ => language == some "mermaid"
    | _ => false

/-- The groups of nodes between horizontal rules. There is at least one. -/
def betweenRules : List Node → List (List Node)
  | [] => [[]]
  | .thematicBreak _ :: rest => [] :: betweenRules rest
  | n :: rest =>
    match betweenRules rest with
    | [] => [[n]]
    | group :: groups => (n :: group) :: groups

/-- The slides of a document: the groups that hold something, or one empty slide. -/
def slideGroups (ns : List Node) : List (List Node) :=
  match (betweenRules ns).filter fun group => !group.isEmpty with
  | [] => [[]]
  | groups => groups

/-- Nodes as blocks, each on a line of its own. -/
def contentOf (ns : List Node) : Writing (List Markup) := do
  match ← Node.blocksFrom true [] ns with
  | [] => return []
  | blocks => return Markup.onLines blocks ++ [Markup.newline]

/-- A slide. -/
def slideOf (ns : List Node) : Writing (List Markup) := do
  match ← contentOf ns with
  | [] => return [.element .section [] [], Markup.newline]
  | content => return [.element .section [] (Markup.newline :: content), Markup.newline]

/-- Several slides. -/
def slidesOf : List (List Node) → Writing (List Markup)
  | [] => return []
  | group :: rest => do
    let first ← slideOf group
    let others ← slidesOf rest
    return first ++ others

/-- The content of a document in what its type wraps it. -/
def wrappedContent (type : String) (ns : List Node) : Writing Markup := do
  if type = "slides" then
    return .element .div [classed "reveal"] [Markup.newline,
      .element .div [classed "slides"] (Markup.newline :: (← slidesOf (slideGroups ns))),
      Markup.newline]
  else if type = "paged" then
    return .element .article [classed "paged-document"] (Markup.newline :: (← contentOf ns))
  else return .element .main [classed "document-content"] (Markup.newline :: (← contentOf ns))

/-- The head of a page. -/
def headOf (p : Presentation) : Markup :=
  let author := match p.author with
    | none => []
    | some a => if a = "" then [] else [property "author" a]
  onOwnLines .head <|
    [.void .meta [⟨.charset, "utf-8"⟩],
      property "viewport" "width=device-width, initial-scale=1",
      .element .title [] [.text (orElse p.title "Document")]] ++
    author ++ p.properties.map (fun (key, content) => property key content) ++
    [.element .style [] [.verbatim
      ("\n" ++ (Stylesheet.whole p.theme p.shownType p.layout p.medium).print)]] ++
    dependencyLinks p.shownType ++ p.stylesheets.map styleLink

/-- The body of a page, given the content of the document. -/
def bodyOf (p : Presentation) (diagrams : Bool) (content : Markup) : Markup :=
  let name := "doctype-" ++ classToken p.shownType ++ " theme-" ++ classToken (orElse p.theme "default")
  .element .body [classed name] <|
    Markup.newline ::
      ([content] ++ dependencyScripts p.shownType diagrams ++ p.scripts.map scriptLink ++
        [startScript p.shownType diagrams]).flatMap fun m => [m, Markup.newline]

/-- A document as a whole page. -/
def pageOf (p : Presentation) (d : Document) : List Markup :=
  let (content, _) := wrappedContent p.shownType d.children []
  [.element .html [⟨.lang, orElse p.language "en"⟩] [Markup.newline, headOf p, Markup.newline,
    bodyOf p (hasDiagrams d) content, Markup.newline], Markup.newline]

/-- The declaration that a page starts with. -/
def declaration : String := "<!DOCTYPE html>\n"

/-- A document as HTML. -/
def render (d : Document) (p : Presentation) : String :=
  if p.standalone then declaration ++ String.ofList (Markup.printAll (pageOf p d))
  else String.ofList (Markup.printAll (contentOf d.children []).1)

end Livedoc.Html
