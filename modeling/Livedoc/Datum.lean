import Livedoc.Text.Lines
import Livedoc.Text.Literal
import Livedoc.Value

/-!
# Data from outside

A caller and a configuration file hand over data of more kinds than a variable can
hold: nothing, integers of any size, lists and tables. This module says how such
data become values and how they are shown in a message.

A datum that is not a text, a number or a truth value becomes the text that shows
it. Inside a list or a table, texts are shown as literals.
-/

namespace Livedoc

open Livedoc.Text Livedoc.Decimal

/-- Data handed over from outside. Tables keep the order of their keys. -/
inductive Datum where
  | null
  | boolean (b : Bool)
  | integer (n : Int)
  | number (x : Float)
  | text (s : String)
  | list (items : List Datum)
  | table (entries : List (String × Datum))

namespace Datum

/-- The layout of a number inside a shown datum. -/
def numberStyle : Decimal.Style := ⟨-4, 16, true, 2⟩

/-- A number inside a shown datum. -/
def showNumber (x : Float) : String :=
  match Binary.ofFloat x with
  | .nan => "nan"
  | .infinite negative => signText negative ++ "inf"
  | .finite negative mantissa exponent =>
    if mantissa = 0 then signText negative ++ "0.0"
    else signText negative ++ numberStyle.write (shortest mantissa exponent)

mutual

/-- A datum as a message shows it. -/
def quoted : Datum → String
  | .null => "None"
  | .boolean b => if b then "True" else "False"
  | .integer n => intText n
  | .number x => showNumber x
  | .text s => literal s
  | .list items => "[" ++ intercalate ", " (quotedItems items) ++ "]"
  | .table entries => "\x7b" ++ intercalate ", " (quotedEntries entries) ++ "\x7d"

/-- The items of a list as a message shows them. -/
def quotedItems : List Datum → List String
  | [] => []
  | d :: rest => d.quoted :: quotedItems rest

/-- The entries of a table as a message shows them. -/
def quotedEntries : List (String × Datum) → List String
  | [] => []
  | (key, d) :: rest => (literal key ++ ": " ++ d.quoted) :: quotedEntries rest

end

/-- The text of a datum: a text is itself, anything else is as shown. -/
def toText : Datum → String
  | .text s => s
  | d => d.quoted

/-- Whether a datum counts as given where a setting may be left out. -/
def isGiven : Datum → Bool
  | .null => false
  | .boolean b => b
  | .integer n => n != 0
  | .number x => x != 0
  | .text s => s != ""
  | .list items => !items.isEmpty
  | .table entries => !entries.isEmpty

/-- The value of a variable set to this datum. An integer that no double comes
near has none. -/
def toValue? : Datum → Option Value
  | .boolean b => some (.boolean b)
  | .integer n => (ofInt? n).map .number
  | .number x => some (.number x)
  | d => some (.text d.toText)

end Datum

end Livedoc
