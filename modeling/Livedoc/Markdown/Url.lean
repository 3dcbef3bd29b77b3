import Livedoc.Text.CharRange
import Livedoc.Text.Entity

/-!
# Escapes and addresses

A backslash before an ASCII punctuation character takes away its meaning. Before
any other character a backslash is a backslash.

The address of a link as it goes into the document: escapes undone, character
references decoded, and every character that an address may not hold written as
its UTF-8 bytes in hexadecimal. A percent sign stays as it is, so an address that
is encoded already is not encoded twice.
-/

namespace Livedoc.Markdown

/-- An ASCII punctuation character. -/
def isPunctuation (c : Char) : Bool :=
  let n := c.toNat
  (33 ≤ n && n ≤ 47) || (58 ≤ n && n ≤ 64) || (91 ≤ n && n ≤ 96) || (123 ≤ n && n ≤ 126)

/-- A text with its escapes undone. -/
def unescape : List Char → List Char
  | '\\' :: c :: rest => if isPunctuation c then c :: unescape rest else '\\' :: unescape (c :: rest)
  | c :: rest => c :: unescape rest
  | [] => []

/-! ## Addresses -/

open Livedoc.Text

/-- A character that an address shows as it is. -/
def isAddressChar (c : Char) : Bool :=
  c.isAlphanum || "_.-~:/?#@!$&()*+,;=%".toList.contains c

/-- A byte as a percent sign and two hexadecimal digits. -/
def percentByte (b : UInt8) : List Char :=
  let digit (n : Nat) : Char := (Nat.toDigits 16 n).headD '0' |>.toUpper
  ['%', digit (b.toNat / 16), digit (b.toNat % 16)]

/-- A character as an address holds it. -/
def addressChar (c : Char) : List Char :=
  if isAddressChar c then [c]
  else (String.singleton c).toUTF8.toList.flatMap percentByte

/-- An address without its escapes, as the document holds it. -/
def encodeAddress (cs : List Char) : String :=
  String.ofList ((decodeReferences cs).flatMap addressChar)

/-- An address as it is written, as the document holds it. -/
def address (cs : List Char) : String := encodeAddress (unescape cs)

end Livedoc.Markdown
