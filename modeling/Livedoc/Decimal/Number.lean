import Livedoc.Decimal.Shortest

/-!
# Numbers of a document

Digits and the place of the point become text in one of two ways: positionally
(`0.00125`, `1200`) or with an exponent (`1.25e-9`). A `Style` says for which
exponents the positional way is taken and how an exponent is spelled.

A document shows the result of its arithmetic in a style of its own. A whole number
below `10 ^ 21` shows all its digits and no fraction. Any other number shows its
shortest decimal, positionally while the first digit has an exponent from -6 to 20.

With a fixed number of places the exact value of the double is rounded, a half
going to the even neighbour; the sign of a negative number stays even where all
digits round to zero.
-/

namespace Livedoc.Decimal

/-- How the digits of a decimal are laid out. -/
structure Style where
  /-- The least exponent of the first digit that is still written positionally. -/
  positionalFrom : Int
  /-- The first exponent of the first digit that is no longer written positionally. -/
  positionalBelow : Int
  /-- Whether a whole number keeps a fraction of one zero. -/
  keepFraction : Bool
  /-- The least number of digits of an exponent. -/
  exponentWidth : Nat

/-- The digits of a number as text. -/
def digitText (n : Nat) : String := String.ofList (Nat.toDigits 10 n)

/-- The digits of an integer as text, with a sign if it is negative. -/
def intText (n : Int) : String := if n < 0 then "-" ++ digitText n.natAbs else digitText n.natAbs

/-- So many zeros. -/
def zeros (n : Nat) : String := String.ofList (List.replicate n '0')

/-- The digits with the point at its place and zeros where the digits do not reach. -/
def Style.positional (style : Style) (d : Digits) : String :=
  let digits := Nat.toDigits 10 d.value
  let size : Int := digits.length
  if d.point ≤ 0 then "0." ++ zeros (-d.point).toNat ++ String.ofList digits
  else if d.point < size then
    String.ofList (digits.take d.point.toNat) ++ "." ++ String.ofList (digits.drop d.point.toNat)
  else
    String.ofList digits ++ zeros (d.point - size).toNat ++
      (if style.keepFraction then ".0" else "")

/-- One digit, the others after a point, and the exponent with its sign. -/
def Style.scientific (style : Style) (d : Digits) : String :=
  let digits := Nat.toDigits 10 d.value
  let exponent := d.point - 1
  let size := digitText exponent.natAbs
  String.ofList (digits.take 1) ++
    (if digits.length > 1 then "." ++ String.ofList (digits.drop 1) else "") ++
    "e" ++ (if exponent < 0 then "-" else "+") ++ zeros (style.exponentWidth - size.length) ++ size

/-- A decimal laid out as the style says. -/
def Style.write (style : Style) (d : Digits) : String :=
  if style.positionalFrom ≤ d.point - 1 && d.point - 1 < style.positionalBelow then
    style.positional d
  else style.scientific d

/-! ## Numbers -/

/-- The layout of a number that is not whole. -/
def numberStyle : Style := ⟨-6, 21, false, 1⟩

/-- A minus sign, or nothing. -/
def signText (negative : Bool) : String := if negative then "-" else ""

/-- The first number that is too large to show all its digits. -/
def wholeLimit : Nat := Nat.pow 10 21

/-- A number as a document shows it. -/
def formatBinary : Binary → String
  | .nan => "NaN"
  | .infinite negative => signText negative ++ "Infinity"
  | .finite negative mantissa exponent =>
    if mantissa = 0 then "0"
    else if isWhole mantissa exponent && wholePart mantissa exponent < wholeLimit then
      signText negative ++ digitText (wholePart mantissa exponent)
    else signText negative ++ numberStyle.write (shortest mantissa exponent)

/-- A number as a document shows it. -/
def formatNumber (x : Float) : String := formatBinary (.ofFloat x)

/-- The most places a number can be asked for. -/
def maxPlaces : Nat := 100

/-- `value / 10 ^ places` written with exactly that many places. -/
def placesText (value places : Nat) : String :=
  let whole := digitText (value / Nat.pow 10 places)
  if places = 0 then whole
  else
    let fraction := digitText (value % Nat.pow 10 places)
    whole ++ "." ++ zeros (places - fraction.length) ++ fraction

/-- A number with a fixed number of places, between none and a hundred. -/
def formatFixed (x : Float) (places : Int) : String :=
  let places := min maxPlaces places.toNat
  match Binary.ofFloat x with
  | .finite negative mantissa exponent =>
    let p := powerOfTwo exponent
    signText negative ++ placesText (roundDiv (mantissa * p.1 * Nat.pow 10 places) p.2) places
  | b => formatBinary b

/-- The integer part of a finite number, toward zero. -/
def truncate : Binary → Int
  | .finite negative mantissa exponent =>
    if negative then - (wholePart mantissa exponent : Int) else wholePart mantissa exponent
  | _ => 0

end Livedoc.Decimal
