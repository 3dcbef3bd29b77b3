import Livedoc.Decimal.Number
import Livedoc.Decimal.Reading
import Livedoc.Text.Case

/-!
# Values of variables

A variable holds a text, a number or a truth value. Every value has a text, can be
read as a number and counts as true or false; the three views are defined here.

A text counts as false if it is empty, says `false` or spells a number equal to
zero, each after trimming. A truth value and a number print as texts that count
the same.
-/

namespace Livedoc

open Livedoc.Text Livedoc.Decimal

/-- What a variable holds. -/
inductive Value where
  | text (s : String)
  | number (x : Float)
  | boolean (b : Bool)

/-- Whether a number counts as true: it is neither zero nor undefined. -/
def isTruthyNumber (x : Float) : Bool := x != 0 && !x.isNaN

/-- Whether a text counts as true. -/
def isTruthyText (s : String) : Bool :=
  let stripped := strip s
  let lowered := toLower stripped
  if lowered = "true" then true
  else if lowered = "false" then false
  else
    match parseWholeNumber? stripped with
    | some x => isTruthyNumber x
    | none => stripped != ""

namespace Value

/-- The text of a value, as a reference to the variable shows it. -/
def toText : Value → String
  | .text s => s
  | .number x => formatNumber x
  | .boolean b => if b then "true" else "false"

/-- A value read as a number; a text without a number is zero. -/
def toNumber : Value → Float
  | .text s => (parseNumber? s).getD 0
  | .number x => x
  | .boolean b => if b then 1 else 0

/-- Whether a value counts as true. -/
def isTruthy : Value → Bool
  | .text s => isTruthyText s
  | .number x => isTruthyNumber x
  | .boolean b => b

/-- The value of a natural number. -/
def ofNat (n : Nat) : Value := .number ((ofInt? n).getD (infinity false))

end Value

end Livedoc
