import Livedoc.Text.Blank

/-!
# Markup of HTML

Where raw HTML starts and ends. These readers serve both the blocks that are HTML
and the tags within a line. Each takes the text from where the markup is expected
and gives what follows it; nothing if no such markup stands there.
-/

namespace Livedoc.Markdown.Html

open Livedoc.Text

/-- An ASCII letter. -/
def isLetter (c : Char) : Bool := c.isAlpha

/-- A character that continues the name of a tag. -/
def isTagChar (c : Char) : Bool := c.isAlphanum || c == '-'

/-- The name of a tag at the start, and the rest. -/
def tagName? (cs : List Char) : Option (List Char × List Char) :=
  match cs with
  | c :: _ => if isLetter c then some (cs.span isTagChar) else none
  | [] => none

/-- What follows the quote that closes a quoted value. -/
def afterQuote? (quote : Char) : List Char → Option (List Char)
  | [] => none
  | c :: rest => if c = quote then some rest else afterQuote? quote rest

/-- A character of a value without quotes. -/
def isBareValueChar (c : Char) : Bool :=
  !(isBlank c || c == '"' || c == '\x27' || c == '=' || c == '<' || c == '>' || c == '\x60')

/-- What follows the value of an attribute. -/
def afterValue? : List Char → Option (List Char)
  | '"' :: rest => afterQuote? '"' rest
  | '\x27' :: rest => afterQuote? '\x27' rest
  | cs =>
    let value := cs.takeWhile isBareValueChar
    if value.isEmpty then none else some (cs.drop value.length)

/-- A character that starts the name of an attribute. -/
def isAttributeStart (c : Char) : Bool := c.isAlpha || c == '_' || c == ':'

/-- A character that continues the name of an attribute. -/
def isAttributeChar (c : Char) : Bool :=
  c.isAlphanum || c == '_' || c == '.' || c == ':' || c == '-'

/-- What follows one attribute with the white space before it. -/
def afterAttribute? (cs : List Char) : Option (List Char) :=
  let body := trimStart cs
  if body.length = cs.length then none
  else
    match body with
    | c :: rest =>
      if isAttributeStart c then
        let after := rest.dropWhile isAttributeChar
        match trimStart after with
        | '=' :: value => some ((afterValue? (trimStart value)).getD after)
        | _ => some after
      else none
    | [] => none

/-- What follows as many attributes as there are. A text of `n` characters has at
most `n` of them. -/
def afterAttributes : Nat → List Char → List Char
  | 0, cs => cs
  | rounds + 1, cs =>
    match afterAttribute? cs with
    | some rest => afterAttributes rounds rest
    | none => cs

/-- What follows the end of an opening tag, after its name. -/
def afterOpenTag? (cs : List Char) : Option (List Char) :=
  match trimStart (afterAttributes cs.length cs) with
  | '>' :: rest => some rest
  | '/' :: '>' :: rest => some rest
  | _ => none

/-- What follows the end of a closing tag, after its name. -/
def afterCloseTag? (cs : List Char) : Option (List Char) :=
  match trimStart cs with
  | '>' :: rest => some rest
  | _ => none

/-- What follows the first occurrence of `marker`. -/
def afterMarker? (marker : List Char) : List Char → Option (List Char)
  | [] => if marker.isEmpty then some [] else none
  | c :: rest =>
    if marker.isPrefixOf (c :: rest) then some ((c :: rest).drop marker.length)
    else afterMarker? marker rest

/-- Names of the tags that make a block of their own. -/
def blockTags : List String :=
  ["address", "article", "aside", "base", "basefont", "blockquote", "body", "caption",
   "center", "col", "colgroup", "dd", "details", "dialog", "dir", "div", "dl", "dt",
   "fieldset", "figcaption", "figure", "footer", "form", "frame", "frameset", "h1", "h2",
   "h3", "h4", "h5", "h6", "head", "header", "hr", "html", "iframe", "legend", "li", "link",
   "main", "menu", "menuitem", "meta", "nav", "noframes", "ol", "optgroup", "option", "p",
   "param", "search", "section", "source", "summary", "table", "tbody", "td", "tfoot", "th",
   "thead", "title", "tr", "track", "ul"]

/-- Names of the tags whose content is not Markdown. -/
def rawTags : List String := ["pre", "script", "style", "textarea"]

end Livedoc.Markdown.Html
