import Livedoc.Call.Head

/-!
# Markup within a line

What stands within a paragraph, a heading or a table cell. Every piece keeps the
characters that it shows, so that it can be found again in the source.
-/

namespace Livedoc.Markdown

open Livedoc.Call

/-- An image with its measures, as it is written. -/
structure SizedImage where
  /-- The whole markup. -/
  raw : List Char
  source : String
  alt : String
  title : Option String
  width : Option String
  height : Option String

/-- A piece of markup within a line. -/
inductive Inline where
  | text (raw : List Char)
  /-- Characters whose meaning was taken away by backslashes. -/
  | escaped (raw : List Char)
  /-- A line break of the source that is shown as a space. -/
  | softBreak
  /-- A line break that is kept. -/
  | hardBreak
  | code (raw : List Char)
  | math (raw : List Char) (display : Bool)
  | emphasis (strong : Bool) (children : List Inline)
  | link (url : String) (title : Option String) (children : List Inline)
  | image (url : String) (title : Option String) (children : List Inline)
  | sizedImage (image : SizedImage)
  /-- A call or, if the head has no groups, a reference; a head that is not
  complete is text and a mistake. -/
  | call (head : Head) (raw : List Char)
  | html (raw : List Char)

namespace Inline

/-- The character that stands for a piece other than text where only the kind of
its neighbours matters. -/
def placeholder : Char := '\ufffc'

/-- The first character that a neighbour on the left sees. -/
def firstChar : Inline → Option Char
  | text raw | escaped raw => raw.head?
  | softBreak | hardBreak => some '\n'
  | _ => some placeholder

/-- The last character that a neighbour on the right sees. -/
def lastChar : Inline → Option Char
  | text raw | escaped raw => raw.getLast?
  | softBreak | hardBreak => some '\n'
  | _ => some placeholder

mutual

/-- How many emphases contain one another within a piece. -/
def emphasisDepth : Inline → Nat
  | emphasis _ children => depthOfAll children + 1
  | link _ _ children | image _ _ children => depthOfAll children
  | _ => 0

/-- The greatest depth of several pieces. -/
def depthOfAll : List Inline → Nat
  | [] => 0
  | i :: rest => max i.emphasisDepth (depthOfAll rest)

end

/-- The characters of a piece of text, escaped or not. -/
def textChars? : Inline → Option (List Char)
  | text raw | escaped raw => some raw
  | _ => none

/-- Neighbouring texts, escaped or not, as one text. Texts without characters
disappear. -/
def joinTexts : List Inline → List Inline
  | [] => []
  | i :: rest =>
    match i.textChars? with
    | none => i :: joinTexts rest
    | some raw =>
      match joinTexts rest with
      | text next :: others => text (raw ++ next) :: others
      | others => if raw.isEmpty then others else text raw :: others

end Inline

end Livedoc.Markdown
