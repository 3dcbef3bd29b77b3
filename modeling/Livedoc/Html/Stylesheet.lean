import Livedoc.Dictionary
import Livedoc.Html.Css

/-!
# The style of a page

A page carries its style with it: the rules of every page, those of its theme, of
its layout and of its document type, and, where it is meant for paper, rules for
printing. A theme, layout or type of another name adds no rules.
-/

namespace Livedoc.Html

open Livedoc.Html.Css

/-- What a page is made for. -/
inductive Medium where
  | screen | paper
deriving DecidableEq, Repr

namespace Stylesheet

/-- The rules of every page. -/
def base : Sheet :=
  [short "*" ["box-sizing: border-box"],
   tall "body"
     ["font-family: -apple-system, BlinkMacSystemFont, \"Segoe UI\", Roboto, sans-serif",
      "line-height: 1.6", "color: #333", "margin: 0", "padding: 0"],
   short ".document-content" ["max-width: 1200px", "margin: 0 auto", "padding: 2rem"],
   short "h1, h2, h3, h4, h5, h6" ["margin: 2rem 0 1rem", "font-weight: 600", "line-height: 1.25"],
   short "h1" ["font-size: 2.5rem"],
   short "h2" ["font-size: 2rem"],
   short "h3" ["font-size: 1.5rem"],
   short "h4" ["font-size: 1.25rem"],
   short "h5" ["font-size: 1rem"],
   short "h6" ["font-size: 0.875rem"],
   short "p" ["margin-bottom: 1rem"],
   tall "code"
     ["background-color: #f6f8fa", "border-radius: 3px",
      "font-family: SFMono-Regular, Consolas, \"Liberation Mono\", Menlo, monospace",
      "font-size: 85%", "padding: 0.2em 0.4em"],
   tall "pre"
     ["background-color: #f6f8fa", "border-radius: 6px", "font-size: 85%", "line-height: 1.45",
      "margin: 1rem 0", "overflow: auto", "padding: 1rem"],
   short "pre code" ["background-color: transparent", "border: 0", "padding: 0"],
   short "blockquote"
     ["border-left: 4px solid #dfe2e5", "color: #6a737d", "margin: 0 0 1rem", "padding: 0 1rem"],
   short ".quote-note" ["border-left-color: #0969da", "background-color: #f6f8ff"],
   short ".quote-tip" ["border-left-color: #1f883d", "background-color: #f6ffed"],
   short ".quote-important" ["border-left-color: #8250df", "background-color: #fbf0ff"],
   short ".quote-warning" ["border-left-color: #d1242f", "background-color: #fff8f0"],
   short ".quote-caution" ["border-left-color: #bf8700", "background-color: #fffbea"],
   short ".quote-info" ["border-left-color: #8250df", "background-color: #fbf0ff"],
   short "ul, ol" ["margin-bottom: 1rem", "padding-left: 2em"],
   short "li" ["margin-bottom: 0.25em"],
   short "table"
     ["border-collapse: collapse", "border-spacing: 0", "margin-bottom: 1rem", "width: 100%"],
   short "th, td" ["border: 1px solid #d0d7de", "padding: 6px 13px"],
   short "th" ["background-color: #f6f8fa", "font-weight: 600"],
   short ".text-left" ["text-align: left"],
   short ".text-center" ["text-align: center"],
   short ".text-right" ["text-align: right"],
   short "img" ["max-width: 100%", "height: auto"],
   short "a" ["color: #0969da", "text-decoration: none"],
   short "a:hover" ["text-decoration: underline"]]

/-- A theme of light text on a dark ground. -/
def dark : Sheet :=
  [short "body" ["background: linear-gradient(135deg, #1a1a1a 0%, #2d2d30 100%)", "color: #fff"],
   short ".document-content" ["background: rgba(255, 255, 255, 0.05)", "border-radius: 8px"],
   short "h1, h2, h3, h4, h5, h6" ["color: #fff"],
   short "code" ["background-color: rgba(255, 255, 255, 0.1)", "color: #fff"],
   short "pre"
     ["background-color: rgba(0, 0, 0, 0.3)", "border: 1px solid rgba(255, 255, 255, 0.1)"],
   short "blockquote"
     ["border-left-color: rgba(255, 255, 255, 0.3)", "color: rgba(255, 255, 255, 0.8)"],
   short "th" ["background-color: rgba(255, 255, 255, 0.08)"],
   short "a" ["color: #58a6ff"]]

/-- A theme of one narrow column in a serif font. -/
def minimal : Sheet :=
  [tall "body"
     ["font-family: Georgia, Times, serif", "font-size: 18px", "line-height: 1.8",
      "max-width: 800px", "margin: 0 auto", "padding: 3rem 2rem"],
   short "h1, h2, h3, h4, h5, h6"
     ["font-family: -apple-system, BlinkMacSystemFont, sans-serif", "font-weight: 300",
      "margin-top: 3rem"],
   short "h1" ["border-bottom: 1px solid #eee", "padding-bottom: 1rem"],
   short ".document-content" ["padding: 0"]]

/-- The rules of the layout containers. -/
def arrangement : Sheet :=
  [tall ".dd-row"
     ["display: flex", "flex-wrap: wrap", "gap: var(--gap, 1rem)", "align-items: flex-start",
      "margin: 1rem 0"],
   tall ".dd-column"
     ["display: flex", "flex-direction: column", "gap: var(--gap, 1rem)",
      "align-items: flex-start", "margin: 1rem 0"],
   tall ".dd-grid"
     ["display: grid", "grid-template-columns: repeat(var(--columns, 2), 1fr)",
      "gap: var(--gap, 1rem)", "margin: 1rem 0"],
   tall ".dd-center"
     ["display: flex", "justify-content: center", "align-items: center", "text-align: center",
      "margin: 1rem 0"],
   short ".dd-row.alignment-center" ["align-items: center"],
   short ".dd-row.alignment-end" ["align-items: flex-end"],
   short ".dd-row.alignment-stretch" ["align-items: stretch"],
   short ".dd-column.cross-center" ["align-items: center"],
   short ".dd-column.cross-end" ["align-items: flex-end"],
   short ".dd-column.cross-stretch" ["align-items: stretch"]]

/-- The rules of a slide show. -/
def slides : Sheet :=
  [short ".reveal .slides section" ["text-align: left"],
   short ".reveal .slides section h1" ["margin-top: 0"]]

/-- The rules of a document on pages of paper size. -/
def paged : Sheet :=
  [tall ".paged-document"
     ["max-width: 210mm", "margin: 0 auto", "padding: 25mm", "background: white",
      "box-shadow: 0 0 10px rgba(0, 0, 0, 0.1)"],
   .media "@media print"
     [⟨".paged-document", ["margin: 0", "padding: 0", "box-shadow: none"], false⟩,
      ⟨"h1, h2, h3, h4, h5, h6", ["page-break-after: avoid"], false⟩,
      ⟨"img, table, pre", ["page-break-inside: avoid"], false⟩]]

/-- The rules of a page meant for paper. -/
def printed : Sheet :=
  [short "@page" ["size: A4", "margin: 20mm"],
   .media "@media print"
     [⟨"body", ["color: #000", "background: white"], false⟩,
      ⟨"a", ["color: inherit"], false⟩,
      ⟨"pre, blockquote, table", ["page-break-inside: avoid"], false⟩]]

/-- The themes by name. -/
def themes : Dictionary Sheet := [("default", []), ("darko", dark), ("minimal", minimal)]

/-- The variants of the layout by name. -/
def layouts : Dictionary Sheet :=
  [("standard", []), ("wide", [short ".document-content" ["max-width: none"]]),
   ("narrow", [short ".document-content" ["max-width: 720px"]])]

/-- The document types that have rules of their own. -/
def documentTypes : Dictionary Sheet := [("slides", slides), ("paged", paged)]

/-- The rules of a theme. -/
def ofTheme (theme : String) : Sheet := (themes.get? theme).getD []

/-- The rules of the layout containers in a variant of the layout. -/
def ofLayout (layout : Option String) : Sheet :=
  arrangement ++ ((layout.bind fun l => layouts.get? l).getD [])

/-- The rules of a document type. -/
def ofDocumentType (type : String) : Sheet := (documentTypes.get? type).getD []

/-- The rules for what a page is made for. -/
def ofMedium : Medium → Sheet
  | .screen => []
  | .paper => printed

/-- The whole style sheet of a page. -/
def whole (theme type : String) (layout : Option String) (medium : Medium) : Sheet :=
  base ++ ofTheme theme ++ ofLayout layout ++ ofDocumentType type ++ ofMedium medium

end Stylesheet

end Livedoc.Html
