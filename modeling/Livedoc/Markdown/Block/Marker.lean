import Livedoc.Markdown.Line
import Livedoc.Text.Digit

/-!
# Markers of list items

An item starts with a bullet, or with a number of at most nine digits and a point
or a parenthesis, followed by a space, a tab or the end of the line. Two items
belong to the same list only if their markers end in the same character.
-/

namespace Livedoc.Markdown

open Livedoc.Text

/-- The start of a list item. -/
structure Marker where
  /-- Spaces before the marker. -/
  indent : Nat
  /-- The number, if the item is numbered. -/
  number : Option Nat
  /-- The bullet, or the character after the number. -/
  bullet : Char
  /-- The length of the marker itself. -/
  size : Nat
  /-- What follows the marker on the line. -/
  rest : List Char

/-- The column after the marker. -/
def Marker.width (m : Marker) : Nat := m.indent + m.size

/-- The value of digits of any script. -/
def numeralValue (digits : List Char) : Nat :=
  digits.foldl (fun n c => n * 10 + (digitValue? c).getD 0) 0

/-- The marker at the start of a line after at most `indent` spaces, if its digits
and its last character are as `allows` says. -/
def markerWith? (allows : List Char → Char → Bool) (indent : Nat) (cs : List Char) :
    Option Marker :=
  match dropIndent? indent cs with
  | none => none
  | some (indent, body) =>
    let digits := body.takeWhile isDecimalDigit
    match body.drop digits.length with
    | c :: rest =>
      if allows digits c && (rest.isEmpty || rest.head?.any isGap) then
        some
          { indent
            number := if digits.isEmpty then none else some (numeralValue digits)
            bullet := c
            size := digits.length + 1
            rest }
      else none
    | [] => none

/-- A character that ends the marker of a numbered item. -/
def isNumberEnd (c : Char) : Bool := c == '.' || c == ')'

/-- A bullet. -/
def isBullet (c : Char) : Bool := c == '*' || c == '+' || c == '-'

/-- The marker at the start of a line, after at most `indent` spaces. -/
def marker? (indent : Nat) (cs : List Char) : Option Marker :=
  markerWith? (fun digits c =>
    if digits.isEmpty then isBullet c else isNumberEnd c && digits.length ≤ 9) indent cs

/-- The marker of a further item of a list with this bullet, after at most `indent`
spaces. A further item of a numbered list may leave its number out. -/
def nextMarker? (bullet : Char) (indent : Nat) (cs : List Char) : Option Marker :=
  markerWith? (fun digits c =>
    c == bullet && (if isNumberEnd bullet then digits.length ≤ 9 else digits.isEmpty)) indent cs

/-- Whether nothing stands after the marker. -/
def Marker.isEmpty (m : Marker) : Bool := allBlank m.rest

/-- The content of the first line and the column at which the content of the item
starts. Five columns or more after the marker are one column and indented code. -/
def Marker.content (m : Marker) : List Char × Nat :=
  let text := expandSecondTab (expandLeadingTab 3 m.rest)
  if allBlank text then ([], m.width + 1)
  else
    let gap := (text.takeWhile isBlank).length
    let gap := if indentOf text ≥ 5 then 1 else gap
    (text.drop gap, m.width + gap)

end Livedoc.Markdown
