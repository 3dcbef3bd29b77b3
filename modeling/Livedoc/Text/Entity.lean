import Livedoc.Text.CharRange
import Livedoc.Text.EntityTable

/-!
# Character references

A text may name a character by `&#233;`, `&#xE9;` or `&eacute;`. Decoding
replaces every reference that is closed by a semicolon; an ampersand that opens
none stays as it is.

A number outside the Unicode range becomes the replacement character, a number of
the old Windows code page becomes the character meant, and a number that no text
may hold becomes nothing. A name that is not in the table may begin with an older
name that needs no semicolon; the longest such beginning counts.
-/

namespace Livedoc.Text

/-- Numbers of the old Windows code page, and null, with the character meant. -/
def remappedReferences : List (Nat × Nat) :=
  [(0x0, 0xFFFD), (0xD, 0xD), (0x80, 0x20AC), (0x81, 0x81), (0x82, 0x201A),
   (0x83, 0x192), (0x84, 0x201E), (0x85, 0x2026), (0x86, 0x2020), (0x87, 0x2021),
   (0x88, 0x2C6), (0x89, 0x2030), (0x8A, 0x160), (0x8B, 0x2039), (0x8C, 0x152),
   (0x8D, 0x8D), (0x8E, 0x17D), (0x8F, 0x8F), (0x90, 0x90), (0x91, 0x2018),
   (0x92, 0x2019), (0x93, 0x201C), (0x94, 0x201D), (0x95, 0x2022), (0x96, 0x2013),
   (0x97, 0x2014), (0x98, 0x2DC), (0x99, 0x2122), (0x9A, 0x161), (0x9B, 0x203A),
   (0x9C, 0x153), (0x9D, 0x9D), (0x9E, 0x17E), (0x9F, 0x178)]

/-- Code points that no text may hold: controls and the points that the standard
reserves, among them the last two of every plane. -/
def isForbiddenPoint (n : Nat) : Bool :=
  (0x1 ≤ n && n ≤ 0x8) || n == 0xB || (0xE ≤ n && n ≤ 0x1F) || (0x7F ≤ n && n ≤ 0x9F) ||
    (0xFDD0 ≤ n && n ≤ 0xFDEF) || n % 0x10000 ≥ 0xFFFE

/-- The characters that a reference by number stands for. -/
def referencedByNumber (n : Nat) : List Char :=
  match remappedReferences.lookup n with
  | some m => [Char.ofNat m]
  | none =>
    if (0xD800 ≤ n && n ≤ 0xDFFF) || n > 0x10FFFF then ['\ufffd']
    else if isForbiddenPoint n then []
    else [Char.ofNat n]

/-- The name's characters, if a semicolon closes a name of this spelling. -/
def namedCharacters? (name : List Char) : Option (List Char) :=
  (entityNames.lookup (String.ofList name)).map (·.map Char.ofNat)

/-- The longest beginning of the name, of at most `size` characters and at least
two, that is a name needing no semicolon, decoded and followed by the rest. -/
def openReference? (name : List Char) : Nat → Option (List Char)
  | 0 => none
  | 1 => none
  | size + 2 =>
    let start := String.ofList (name.take (size + 2))
    if openEntityNames.contains start then
      (namedCharacters? (name.take (size + 2))).map (· ++ name.drop (size + 2))
    else openReference? name (size + 1)

/-- The characters that the reference `&name;` stands for. -/
def referencedByName (name : List Char) : List Char :=
  match namedCharacters? name with
  | some cs => cs
  | none =>
    match openReference? name name.length with
    | some cs => cs ++ [';']
    | none => '&' :: name ++ [';']

/-- The value of a hexadecimal digit. -/
def hexValue (c : Char) : Nat :=
  if c.isDigit then c.toNat - 48 else (c.toLower.toNat - 97) + 10

/-- A hexadecimal digit. -/
def isHexDigit (c : Char) : Bool :=
  c.isDigit || ('a' ≤ c && c ≤ 'f') || ('A' ≤ c && c ≤ 'F')

/-- The number with these digits in this base. -/
def digitsValue (base : Nat) (digits : List Char) : Nat :=
  digits.foldl (fun n c => n * base + hexValue c) 0

/-- A character of a reference's name. -/
def isReferenceNameChar (c : Char) : Bool :=
  !(c == '\t' || c == '\n' || c == '\x0c' || c == ' ' || c == '<' || c == '&' || c == '#' ||
    c == ';')

/-- The reference that follows an ampersand: what it stands for, and how many
characters it takes up. -/
def reference? (cs : List Char) : Option (List Char × Nat) :=
  match cs with
  | '#' :: x :: rest =>
    if x == 'x' || x == 'X' then
      let digits := rest.takeWhile isHexDigit
      if !digits.isEmpty && rest[digits.length]? == some ';' then
        some (referencedByNumber (digitsValue 16 digits), digits.length + 3)
      else none
    else
      let digits := (x :: rest).takeWhile Char.isDigit
      if !digits.isEmpty && digits.length ≤ 7 && (x :: rest)[digits.length]? == some ';' then
        some (referencedByNumber (digitsValue 10 digits), digits.length + 2)
      else none
  | _ =>
    let name := cs.takeWhile isReferenceNameChar
    if !name.isEmpty && name.length ≤ 32 && cs[name.length]? == some ';' then
      some (referencedByName name, name.length + 1)
    else none

/-- Decoding with `skip` characters of a reference still to be passed over. -/
def decodeReferencesFrom : Nat → List Char → List Char
  | _, [] => []
  | skip + 1, _ :: rest => decodeReferencesFrom skip rest
  | 0, '&' :: rest =>
    match reference? rest with
    | some (cs, size) => cs ++ decodeReferencesFrom size rest
    | none => '&' :: decodeReferencesFrom 0 rest
  | 0, c :: rest => c :: decodeReferencesFrom 0 rest

/-- The text with every closed character reference replaced by what it names. -/
def decodeReferences (cs : List Char) : List Char := decodeReferencesFrom 0 cs

end Livedoc.Text
