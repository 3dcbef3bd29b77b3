import Livedoc.Text.CharRange

/-!
# White space

White space is taken in the sense of the Unicode standard, together with the four
ASCII separators U+001C to U+001F. It is the set that trimming, splitting into
words and the number reader use; Markdown itself knows a smaller one, which its
own modules name where they need it.

Texts are trimmed as lists of characters; the last section lifts the operations
to strings.
-/

namespace Livedoc.Text

/-- The white space characters. -/
def blankRanges : List CharRange :=
  [(0x9, 0xD), (0x1C, 0x20), (0x85, 0x85), (0xA0, 0xA0), (0x1680, 0x1680),
   (0x2000, 0x200A), (0x2028, 0x2029), (0x202F, 0x202F), (0x205F, 0x205F),
   (0x3000, 0x3000)]

/-- A white space character. -/
def isBlank (c : Char) : Bool := inRanges blankRanges c

/-- A space or a tab. -/
def isGap (c : Char) : Bool := c == ' ' || c == '\t'

/-- Whether a text holds white space only; the empty text does. -/
def allBlank (cs : List Char) : Bool := cs.all isBlank

/-! ## Trimming -/

/-- The text without its last characters that satisfy `p`. -/
def dropEndWhile (p : Char → Bool) (cs : List Char) : List Char :=
  cs.foldr (fun c rest => if rest.isEmpty && p c then [] else c :: rest) []

/-- The text without the characters at either end that satisfy `p`. -/
def trimWhile (p : Char → Bool) (cs : List Char) : List Char :=
  dropEndWhile p (cs.dropWhile p)

/-- The text without white space at its start. -/
def trimStart (cs : List Char) : List Char := cs.dropWhile isBlank

/-- The text without white space at its end. -/
def trimEnd (cs : List Char) : List Char := dropEndWhile isBlank cs

/-- The text without white space at either end. -/
def trim (cs : List Char) : List Char := trimWhile isBlank cs

/-- The maximal runs of characters that satisfy `keep`, in order. `word` holds the
run being read, last character first. -/
def runsFrom (keep : Char → Bool) : List Char → List Char → List (List Char)
  | [], word => if word.isEmpty then [] else [word.reverse]
  | c :: rest, word =>
    if keep c then runsFrom keep rest (c :: word)
    else if word.isEmpty then runsFrom keep rest []
    else word.reverse :: runsFrom keep rest []

/-- The words of a text: its maximal runs without white space. -/
def words (cs : List Char) : List (List Char) := runsFrom (fun c => !isBlank c) cs []

/-! ## Strings -/

/-- A string without white space at either end. -/
def strip (s : String) : String := String.ofList (trim s.toList)

/-- A string without white space at its start. -/
def stripStart (s : String) : String := String.ofList (trimStart s.toList)

end Livedoc.Text
