import Livedoc.Html.Markup

/-!
# What a page loads

Formulas, highlighted code, diagrams and slide shows are drawn by scripts when a
page is shown. A page links the style sheets and scripts that it needs, and starts
them once it is loaded.
-/

namespace Livedoc.Html

/-- A link to a style sheet. -/
def styleLink (address : String) : Markup :=
  .void .link [⟨.rel, "stylesheet"⟩, ⟨.href, address⟩]

/-- A script at an address. -/
def scriptLink (address : String) : Markup := .element .script [⟨.src, address⟩] []

/-- The address of a file of a published package. -/
def packageFile (name version file : String) : String :=
  "https://cdn.jsdelivr.net/npm/" ++ name ++ "@" ++ version ++ "/" ++ file

/-- A file of the package that draws formulas. -/
def formulaFile (file : String) : String := packageFile "katex" "0.16.8" file

/-- A file of the package that highlights code. -/
def highlightFile (file : String) : String := packageFile "highlight.js" "11.9.0" file

/-- A file of the package that shows slides. -/
def slidesFile (file : String) : String := packageFile "reveal.js" "4.6.1" file

/-- A file of the package that draws diagrams. -/
def diagramFile (file : String) : String := packageFile "mermaid" "10.6.1" file

/-- The style sheets that a document of a type links. -/
def dependencyLinks (type : String) : List Markup :=
  [styleLink (formulaFile "dist/katex.min.css"), styleLink (highlightFile "styles/github.min.css")] ++
    (if type = "slides" then
      [styleLink (slidesFile "dist/reveal.css"), styleLink (slidesFile "dist/theme/white.css")]
    else [])

/-- The scripts that a document of a type links. -/
def dependencyScripts (type : String) (diagrams : Bool) : List Markup :=
  [scriptLink (formulaFile "dist/katex.min.js"), scriptLink (highlightFile "lib/highlight.min.js")] ++
    (if diagrams then [scriptLink (diagramFile "dist/mermaid.min.js")] else []) ++
    (if type = "slides" then [scriptLink (slidesFile "dist/reveal.js")] else [])

/-- The lines of the script that starts the others. -/
def startLines (type : String) (diagrams : Bool) : List String :=
  ["document.addEventListener(\"DOMContentLoaded\", function () \x7b",
   "  if (window.hljs) \x7b hljs.highlightAll(); \x7d",
   "  if (window.katex) \x7b",
   "    document.querySelectorAll(\".math\").forEach(function (el) \x7b",
   "      katex.render(el.textContent, el, \x7b",
   "        displayMode: el.classList.contains(\"math-display\"),",
   "        throwOnError: false",
   "      \x7d);",
   "    \x7d);",
   "  \x7d"] ++
    (if diagrams then
      ["  if (window.mermaid) \x7b mermaid.initialize(\x7b startOnLoad: false \x7d); mermaid.run(); \x7d"]
    else []) ++
    (if type = "slides" then
      ["  if (window.Reveal) \x7b Reveal.initialize(\x7b hash: true \x7d); \x7d"]
    else []) ++
    ["\x7d);"]

/-- The script that starts the others. -/
def startScript (type : String) (diagrams : Bool) : Markup :=
  .element .script []
    [.verbatim ("\n" ++ String.join ((startLines type diagrams).map (· ++ "\n")))]

end Livedoc.Html
