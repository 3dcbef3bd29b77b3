import Livedoc.Markdown.Html
import Livedoc.Markdown.Line

/-!
# Blocks of HTML

A line that starts with certain markup starts a block of raw HTML. How the block
ends depends on the markup: a comment, an instruction, a declaration, character
data and a tag with raw content end on the line that holds their end marker; any
other tag's block ends before the next blank line.

A tag that is not a block tag starts a block only if it ends its line, does not
close itself and no paragraph precedes it.
-/

namespace Livedoc.Markdown

open Livedoc.Text

/-- How a block of HTML ends. -/
inductive HtmlEnd where
  /-- On the line of the first such marker in the given text. -/
  | atMarker (marker : List Char) (within : List Char)
  /-- Before the next blank line. -/
  | atBlank
  /-- Before the next blank line, for a block that cannot interrupt a paragraph. -/
  | atBlankAlone

/-- Whether the name of a tag ends where the given rest of its line starts: at a gap
or at the end of the line. -/
def endsTagName (after : List Char) : Bool := after.isEmpty || after.head?.any isGap

/-- Whether only spaces and tabs stand before the end of the line. -/
def restOfLineIsGap (cs : List Char) : Bool := (cs.takeWhile (· != '\n')).all isGap

/-- What follows the end of a tag that may start a block, after its name. Such a tag
does not close itself, and only spaces and tabs stand before its `>`. -/
def afterLoneTag? (closing : Bool) (cs : List Char) : Option (List Char) :=
  let body := if closing then cs else Html.afterAttributes cs.length cs
  match body.dropWhile isGap with
  | '>' :: rest => some rest
  | _ => none

/-- How the block that a tag starts ends. -/
def tagEnd? (closing : Bool) (body : List Char) : Option HtmlEnd :=
  match Html.tagName? body with
  | none => none
  | some (name, after) =>
    let name := String.ofList (name.map Char.toLower)
    if !closing && Html.rawTags.contains name then
      some (.atMarker ('<' :: '/' :: name.toList ++ ['>']) after)
    else if Html.blockTags.contains name then some .atBlank
    else
      if (afterLoneTag? closing after).any restOfLineIsGap then some .atBlankAlone else none

/-- How the block of HTML ends that starts at the text, after at most `indent`
spaces. -/
def htmlEnd? (indent : Nat) (cs : List Char) : Option HtmlEnd :=
  match dropIndent? indent cs with
  | some (_, '<' :: '!' :: '-' :: '-' :: rest) => some (.atMarker "-->".toList rest)
  | some (_, '<' :: '?' :: rest) => some (.atMarker "?>".toList rest)
  | some (_, '<' :: '!' :: '[' :: 'C' :: 'D' :: 'A' :: 'T' :: 'A' :: '[' :: rest) =>
    some (.atMarker "]]>".toList rest)
  | some (_, '<' :: '!' :: c :: rest) => if c.isUpper then some (.atMarker ['>'] rest) else none
  | some (_, '<' :: '/' :: body) => tagEnd? true body
  | some (_, '<' :: body) => tagEnd? false body
  | _ => none

/-- Whether the line, after at most `indent` spaces, starts markup that ends a list
item or a quotation: anything but a tag, or a block tag in lower case whose name
nothing follows directly. -/
def interruptsAsHtml (indent : Nat) (cs : List Char) : Bool :=
  match dropIndent? indent cs with
  | some (_, '<' :: '!' :: '-' :: '-' :: _) => true
  | some (_, '<' :: '?' :: _) => true
  | some (_, '<' :: '!' :: c :: rest) =>
    c.isUpper || "[CDATA[".toList.isPrefixOf (c :: rest)
  | some (_, '<' :: '/' :: body) => isBlockTag body
  | some (_, '<' :: body) => isBlockTag body
  | _ => false
where
  /-- Whether a block tag's name starts the text. -/
  isBlockTag (body : List Char) : Bool :=
    match Html.tagName? body with
    | none => false
    | some (name, after) =>
      let name := String.ofList name
      (Html.blockTags.contains name || Html.rawTags.contains name) && endsTagName after

/-- How many lines a block of HTML takes, given all lines from its first on. -/
def HtmlEnd.length (e : HtmlEnd) (ls : List Line) : Nat :=
  match e with
  | .atMarker marker within =>
    match Html.afterMarker? marker within with
    | some rest => ls.length - rest.count '\n' + (if rest.contains '\n' then 1 else 0)
    | none => ls.length
  | _ => (ls.takeWhile fun l => !isBlankLine l.chars).length

end Livedoc.Markdown
