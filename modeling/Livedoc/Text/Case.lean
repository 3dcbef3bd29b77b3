import Livedoc.Text.CaseTable

/-!
# Upper and lower case

Case conversion of whole texts, with the full maps of the Unicode standard: a
letter may grow into several (`ß` becomes `SS`), and a capital sigma becomes a
final sigma at the end of a word.

A sigma is final when a cased letter stands before it and none after it, both
times passing over the characters that case context ignores, such as accents and
apostrophes.
-/

namespace Livedoc.Text

/-- Whether the shift moves the letter with this code point. -/
def CaseShift.moves (s : CaseShift) (n : Nat) : Bool :=
  s.first ≤ n && n ≤ s.last && (n - s.first) % s.step == 0

/-- The letter moved by the first shift that moves it, or the letter itself. -/
def shiftCase (shifts : List CaseShift) (c : Char) : Char :=
  match shifts.find? (·.moves c.toNat) with
  | some s => Char.ofNat (c.toNat + s.offset).toNat
  | none => c

/-- The lower case of a letter taken alone. -/
def lowerChar (c : Char) : List Char :=
  if c.toNat < 128 then [c.toLower]
  else if c = '\u0130' then ['i', '\u0307']
  else [shiftCase lowerShifts c]

/-- The upper case of a letter. -/
def upperChar (c : Char) : List Char :=
  if c.toNat < 128 then [c.toUpper]
  else
    match longUppers.lookup c.toNat with
    | some capitals => capitals.map Char.ofNat
    | none => [shiftCase upperShifts c]

/-- Whether the first character that case context does not ignore is cased. -/
def startsCased (cs : List Char) : Bool :=
  match cs.find? fun c => !inRanges caseIgnorableRanges c with
  | some c => inRanges casedRanges c
  | none => false

/-- The lower case of a text that follows `before`, a text given last character
first. -/
def lowerAfter : List Char → List Char → List Char
  | _, [] => []
  | before, c :: rest =>
    (if c = '\u03a3' then
      [if startsCased before && !startsCased rest then '\u03c2' else '\u03c3']
    else lowerChar c) ++ lowerAfter (c :: before) rest

/-- A text in lower case. -/
def lower (cs : List Char) : List Char := lowerAfter [] cs

/-- A text in upper case. -/
def upper (cs : List Char) : List Char := cs.flatMap upperChar

/-- A string in lower case. -/
def toLower (s : String) : String := String.ofList (lower s.toList)

/-- A string in upper case. -/
def toUpper (s : String) : String := String.ofList (upper s.toList)

/-- Whether a character is the small ASCII letter `letter` when case is ignored.
The two dotless and dotted forms of `i` count as that letter. -/
def sameLetter (letter c : Char) : Bool :=
  c.toLower == letter || (letter == 'i' && (c == '\u0131' || c == '\u0130'))

/-- What follows the small ASCII word `word` at the start of a text when case is
ignored. -/
def dropWord? : List Char → List Char → Option (List Char)
  | [], cs => some cs
  | _ :: _, [] => none
  | letter :: word, c :: cs => if sameLetter letter c then dropWord? word cs else none

end Livedoc.Text
