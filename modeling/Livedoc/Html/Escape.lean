import Livedoc.Text.Literal

/-!
# Escaping

Text that goes into a page must not be taken for markup. The five characters that
could be are written as character references, and so is every character outside
ASCII, so that the page reads the same in any encoding. In the value of an
attribute a newline is written as a reference too.
-/

namespace Livedoc.Html

open Livedoc.Text

/-- How a character of a text is written. -/
def escapeChar (c : Char) : List Char :=
  if c = '&' then ['&', 'a', 'm', 'p', ';']
  else if c = '<' then ['&', 'l', 't', ';']
  else if c = '>' then ['&', 'g', 't', ';']
  else if c = '"' then ['&', 'q', 'u', 'o', 't', ';']
  else if c = '\x27' then ['&', '#', 'x', '2', '7', ';']
  else if c.toNat > 0x7F then '&' :: '#' :: 'x' :: (hexDigits 1 c.toNat).map Char.toUpper ++ [';']
  else [c]

/-- A text as it is written between tags. -/
def escape (cs : List Char) : List Char := cs.flatMap escapeChar

/-- How a character of an attribute is written. -/
def escapeAttributeChar (c : Char) : List Char :=
  if c = '\n' then ['&', '#', 'x', 'A', ';'] else escapeChar c

/-- A text as it is written as the value of an attribute. -/
def escapeAttribute (cs : List Char) : List Char := cs.flatMap escapeAttributeChar

end Livedoc.Html
