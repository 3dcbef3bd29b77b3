import Livedoc.Text.Alphanumeric
import Livedoc.Text.Blank
import Livedoc.Text.Case

/-!
# Identifiers and class names

A heading can be linked to by an identifier made of its text: lower-case words
joined by hyphens, without punctuation. Class names are made in the same spirit but
hold ASCII letters, digits, underscores and hyphens only.
-/

namespace Livedoc.Html

open Livedoc.Text

/-- The words of a text, joined by a character. -/
def joinWords (d : Char) : List (List Char) → List Char
  | [] => []
  | [w] => w
  | w :: rest => w ++ d :: joinWords d rest

/-- A character that separates the words of an identifier. -/
def isSlugBreak (c : Char) : Bool := isBlank c || c == '_' || c == '-'

/-- A character that an identifier is made from. -/
def isSlugChar (c : Char) : Bool := isAlphanumeric c || isSlugBreak c

/-- The identifier made from a text. Every heading has one, even if its text holds
nothing to make it from. -/
def slugify (s : String) : String :=
  let kept := (lower s.toList).filter isSlugChar
  match joinWords '-' (runsFrom (fun c => !isSlugBreak c) kept []) with
  | [] => "section"
  | cs => String.ofList cs

/-- A character of a class name. -/
def isClassChar (c : Char) : Bool := c.isAlphanum || c == '_' || c == '-'

/-- A text with every run of characters that no class name may hold replaced by one
hyphen. `within` tells whether the character before belongs to such a run. -/
def replaceForeign (within : Bool) : List Char → List Char
  | [] => []
  | c :: rest =>
    if isClassChar c then c :: replaceForeign false rest
    else if within then replaceForeign true rest
    else '-' :: replaceForeign true rest

/-- The class name made from a text; empty if there is nothing to make it from. -/
def classToken (s : String) : String :=
  String.ofList (trimWhile (· == '-') (replaceForeign false (lower (trim s.toList))))

end Livedoc.Html
