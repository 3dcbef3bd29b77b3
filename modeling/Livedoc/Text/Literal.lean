import Livedoc.Text.Printable

/-!
# Text as a literal

A text is shown between quotes so that every character of it can be told apart:
the quote and the backslash are escaped, the three common control characters get
their letter, and every other character that is not printable is written by its
code point, with as many hexadecimal digits as its size needs.

The quotes are single unless the text holds a single quote and no double one.
-/

namespace Livedoc.Text

/-- The hexadecimal digits of a number, at least `width` of them. -/
def hexDigits (width n : Nat) : List Char :=
  let digits := Nat.toDigits 16 n
  List.replicate (width - digits.length) '0' ++ digits

/-- How one character of a text is written inside the quotes `quote`. -/
def literalChar (quote c : Char) : List Char :=
  if c = quote || c = '\\' then ['\\', c]
  else if c = '\n' then ['\\', 'n']
  else if c = '\r' then ['\\', 'r']
  else if c = '\t' then ['\\', 't']
  else if isPrintable c then [c]
  else if c.toNat < 0x100 then '\\' :: 'x' :: hexDigits 2 c.toNat
  else if c.toNat < 0x10000 then '\\' :: 'u' :: hexDigits 4 c.toNat
  else '\\' :: 'U' :: hexDigits 8 c.toNat

/-- The quote that a literal of this text uses. -/
def literalQuote (cs : List Char) : Char :=
  if cs.contains '\x27' && !cs.contains '"' then '"' else '\x27'

/-- A text as a literal. -/
def literal (s : String) : String :=
  let cs := s.toList
  let quote := literalQuote cs
  String.ofList (quote :: cs.flatMap (literalChar quote) ++ [quote])

end Livedoc.Text
