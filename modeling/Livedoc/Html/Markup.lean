import Livedoc.Html.Escape
import Livedoc.Text.Blank

/-!
# Markup

A page is built as a tree of elements and printed at the end; nothing else writes
tags. Elements and attributes come from two fixed lists of names. Texts and values
are escaped when they are printed, so whatever they hold, they stay what they are.
The one exception is verbatim text, which the style sheet and the scripts of a page
need; it never comes from a document.
-/

namespace Livedoc.Html

open Livedoc.Text

/-- The elements that enclose content. -/
inductive Tag where
  | html | head | title | style | script | body
  | main | article | «section» | div | span
  | p | h1 | h2 | h3 | h4 | h5 | h6
  | ul | ol | li | blockquote | pre | code | em | strong | a
  | table | thead | tbody | tr | th | td
deriving DecidableEq, Repr

/-- The elements that stand alone. -/
inductive VoidTag where
  | «meta» | link | hr | br | img
deriving DecidableEq, Repr

/-- The names of attributes. -/
inductive AttributeName where
  | lang | charset | name | content | rel | href | src
  | «class» | id | title | style | start | alt
deriving DecidableEq, Repr

namespace Tag

/-- The name of an element as it is written. -/
def text : Tag → String
  | html => "html" | head => "head" | title => "title" | style => "style" | script => "script"
  | body => "body" | main => "main" | article => "article" | «section» => "section"
  | div => "div" | span => "span" | p => "p"
  | h1 => "h1" | h2 => "h2" | h3 => "h3" | h4 => "h4" | h5 => "h5" | h6 => "h6"
  | ul => "ul" | ol => "ol" | li => "li" | blockquote => "blockquote" | pre => "pre"
  | code => "code" | em => "em" | strong => "strong" | a => "a"
  | table => "table" | thead => "thead" | tbody => "tbody" | tr => "tr" | th => "th" | td => "td"

/-- The element for a heading; levels beyond the ends count as the end. -/
def ofLevel (level : Int) : Tag :=
  if level ≤ 1 then h1 else if level = 2 then h2 else if level = 3 then h3
  else if level = 4 then h4 else if level = 5 then h5 else h6

end Tag

/-- The name of a lone element as it is written. -/
def VoidTag.text : VoidTag → String
  | «meta» => "meta" | link => "link" | hr => "hr" | br => "br" | img => "img"

/-- The name of an attribute as it is written. -/
def AttributeName.text : AttributeName → String
  | lang => "lang" | charset => "charset" | name => "name" | content => "content" | rel => "rel"
  | href => "href" | src => "src" | «class» => "class" | id => "id" | title => "title"
  | style => "style" | start => "start" | alt => "alt"

/-- An attribute with its value. -/
structure Attribute where
  name : AttributeName
  value : String
deriving DecidableEq, Repr

/-- A piece of a page. -/
inductive Markup where
  /-- A text, escaped when printed. -/
  | text (s : String)
  /-- A text of the page's own, printed as it is. -/
  | verbatim (s : String)
  | element (tag : Tag) (attributes : List Attribute) (children : List Markup)
  | void (tag : VoidTag) (attributes : List Attribute)
deriving Repr

/-- An attribute in a tag. -/
def Attribute.print (a : Attribute) : List Char :=
  ' ' :: a.name.text.toList ++ '=' :: '"' :: escapeAttribute a.value.toList ++ ['"']

/-- A name with attributes between angle brackets. -/
def printTag (name : String) (attributes : List Attribute) : List Char :=
  '<' :: name.toList ++ attributes.flatMap Attribute.print ++ ['>']

namespace Markup

mutual

/-- A piece of a page as it is written. -/
def print : Markup → List Char
  | text s => escape s.toList
  | verbatim s => s.toList
  | element tag attributes children =>
    printTag tag.text attributes ++ printAll children ++ '<' :: '/' :: tag.text.toList ++ ['>']
  | void tag attributes => printTag tag.text attributes

/-- Several pieces, one after the other. -/
def printAll : List Markup → List Char
  | [] => []
  | m :: rest => print m ++ printAll rest

end

/-- A newline between tags. -/
def newline : Markup := text "\n"

/-! ## White space at the ends -/

/-- White space that is printed as it is. -/
def isPlainBlank (c : Char) : Bool := isBlank c && c.toNat ≤ 0x7F

/-- Pieces without the white space that they start with. -/
def trimStart : List Markup → List Markup
  | text s :: rest =>
    match s.toList.dropWhile isPlainBlank with
    | [] => trimStart rest
    | cs => text (String.ofList cs) :: rest
  | ms => ms

/-- A piece in front of pieces that are trimmed at their end. -/
def consTrimmed (m : Markup) (rest : List Markup) : List Markup :=
  match m, rest with
  | text s, [] =>
    match dropEndWhile isPlainBlank s.toList with
    | [] => []
    | cs => [text (String.ofList cs)]
  | _, _ => m :: rest

/-- Pieces without the white space that they end with. -/
def trimEnd (ms : List Markup) : List Markup := ms.foldr consTrimmed []

/-- Pieces without the white space at either end. -/
def trim (ms : List Markup) : List Markup := trimEnd (trimStart ms)

/-- Groups of pieces with a newline between two of them. -/
def onLines : List (List Markup) → List Markup
  | [] => []
  | [ms] => ms
  | ms :: rest => ms ++ newline :: onLines rest

end Markup

end Livedoc.Html
