import Livedoc.Decimal.Binary
import Livedoc.Text.Blank
import Livedoc.Text.Digit

/-!
# Reading a number

A number is read off the start of a text, and what follows it is ignored: `12px`
is twelve. White space before it is passed over, a sign is allowed, and digits may
be of any script. The number is the word `Infinity`, or digits with an optional
point and further digits, or a point with digits after it; the last two may carry
an exponent. A point or an exponent mark that lacks its digits is not part of the
number.
-/

namespace Livedoc.Decimal

open Livedoc.Text

/-- A number as it is spelled, before it is rounded. -/
inductive Numeral where
  /-- The word `Infinity`. -/
  | infinity (negative : Bool)
  /-- `value * 10 ^ exponent`, negated if `negative` is set. -/
  | decimal (negative : Bool) (value : Nat) (exponent : Int)
deriving DecidableEq, Repr

/-- The value of a run of decimal digits. -/
def decimalValue (digits : List Char) : Nat :=
  digits.foldl (fun n c => n * 10 + (digitValue? c).getD 0) 0

/-- The longest run of decimal digits at the start, and the rest. -/
def spanDigits (cs : List Char) : List Char × List Char := cs.span isDecimalDigit

/-- A sign at the start, `true` for minus, and the rest. -/
def takeSign : List Char → Bool × List Char
  | '-' :: rest => (true, rest)
  | '+' :: rest => (false, rest)
  | cs => (false, cs)

/-- The exponent at the start, zero if there is none, and the rest. -/
def takeExponent (cs : List Char) : Int × List Char :=
  match cs with
  | c :: rest =>
    if c = 'e' || c = 'E' then
      let (negative, rest) := takeSign rest
      let (digits, rest) := spanDigits rest
      if digits.isEmpty then (0, cs)
      else (if negative then - (decimalValue digits : Int) else decimalValue digits, rest)
    else (0, cs)
  | [] => (0, cs)

/-- The digits of a number at the start, before and after the point, and the rest. -/
def takeDigits? (cs : List Char) : Option (List Char × List Char × List Char) :=
  let (whole, rest) := spanDigits cs
  match whole, rest with
  | [], '.' :: rest =>
    let (fraction, rest) := spanDigits rest
    if fraction.isEmpty then none else some ([], fraction, rest)
  | [], _ => none
  | _, '.' :: rest =>
    let (fraction, rest) := spanDigits rest
    some (whole, fraction, rest)
  | _, _ => some (whole, [], rest)

/-- The number spelled at the start of a text, and the rest. -/
def takeNumeral? (cs : List Char) : Option (Numeral × List Char) :=
  let (negative, cs) := takeSign (trimStart cs)
  let word := "Infinity".toList
  if word.isPrefixOf cs then some (.infinity negative, cs.drop word.length)
  else
    match takeDigits? cs with
    | none => none
    | some (whole, fraction, rest) =>
      let (exponent, rest) := takeExponent rest
      some (.decimal negative (decimalValue (whole ++ fraction)) (exponent - fraction.length), rest)

/-- The double nearest to a numeral. An exponent so large or so small that the
number must be infinite or zero is not multiplied out. -/
def Numeral.toFloat : Numeral → Float
  | .infinity negative => Decimal.infinity negative
  | .decimal negative value exponent =>
    if value = 0 then nearest negative 0 1
    else if exponent > 400 then Decimal.infinity negative
    else if exponent + digitCount value < -400 then nearest negative 0 1
    else if exponent < 0 then nearest negative value (Nat.pow 10 (-exponent).toNat)
    else nearest negative (value * Nat.pow 10 exponent.toNat) 1

/-- The number at the start of a text, if there is one. -/
def parseNumber? (s : String) : Option Float :=
  (takeNumeral? s.toList).map (·.1.toFloat)

/-- The number that makes up the whole text, if the text is one. -/
def parseWholeNumber? (s : String) : Option Float :=
  match takeNumeral? s.toList with
  | some (n, []) => some n.toFloat
  | _ => none

end Livedoc.Decimal
