import Livedoc.Decimal.Binary

/-!
# The shortest decimal of a double

A double stands for every real number that rounds to it. Among the decimals in
that interval the shortest are those with the fewest digits, and of two the one
nearer to the double is taken.

The search tries one digit, two digits, and so on. With `n` digits the candidates
are the double's two neighbours on the grid of `n`-digit decimals: if any decimal
of the grid lies in the interval, so does one of these two. Seventeen digits
always suffice.
-/

namespace Livedoc.Decimal

/-- A positive decimal `0.d₁d₂… * 10 ^ point`: its digits as a number, without
trailing zeros, and the place of the point counted from the first digit. -/
structure Digits where
  /-- The digits read as one number. -/
  value : Nat
  /-- Where the point stands, counted from before the first digit. -/
  point : Int
deriving DecidableEq, Repr

/-- `10 ^ e` as a quotient of natural numbers. -/
def powerOfTen (e : Int) : Nat × Nat :=
  if e < 0 then (1, Nat.pow 10 (-e).toNat) else (Nat.pow 10 e.toNat, 1)

/-- The decimal exponent of the first digit of `num / den`, a positive quotient. -/
def leadingExponent (num den : Nat) : Int :=
  if den ≤ num then digitCount (num / den) - 1
  else - (digitCount ((den + num - 1) / num - 1) : Int)

/-- The interval of reals that round to a double, in quarters of its last place:
the double itself, the lower and the upper end, and whether the ends belong. -/
structure Interval where
  /-- The double, as a numerator over the common denominator. -/
  center : Nat
  /-- The lower end. -/
  low : Nat
  /-- The upper end. -/
  high : Nat
  /-- The common denominator. -/
  den : Nat
  /-- Whether the ends round to the double as well. -/
  closed : Bool

/-- The interval of `mantissa * 2 ^ exponent`. Below a power of two the doubles lie
twice as dense, so the lower end is only half as far away. -/
def Interval.of (mantissa : Nat) (exponent : Int) : Interval :=
  let p := powerOfTwo (exponent - 2)
  let below := if mantissa = leadingBit && exponent != -1074 then 1 else 2
  { center := 4 * mantissa * p.1
    low := (4 * mantissa - below) * p.1
    high := (4 * mantissa + 2) * p.1
    den := p.2
    closed := mantissa % 2 = 0 }

/-- Whether `num / den` lies in the interval. -/
def Interval.holds (i : Interval) (num den : Nat) : Bool :=
  let x := num * i.den
  let low := i.low * den
  let high := i.high * den
  if i.closed then low ≤ x && x ≤ high else low < x && x < high

/-- The decimal nearest to the center among the two neighbours on the grid of
multiples of `10 ^ e`, if one of them lies in the interval. -/
def Interval.onGrid? (i : Interval) (e : Int) : Option Nat :=
  let ten := powerOfTen e
  let down := i.center * ten.2 / (i.den * ten.1)
  let lowHit := i.holds (down * ten.1) ten.2
  let highHit := i.holds ((down + 1) * ten.1) ten.2
  let twice := 2 * (i.center * ten.2)
  let middle := (2 * down + 1) * (i.den * ten.1)
  if lowHit && highHit then
    if twice < middle || (twice == middle && down % 2 == 0) then some down else some (down + 1)
  else if lowHit then some down
  else if highHit then some (down + 1)
  else none

/-- A decimal without its trailing zeros, of which it has at most `fuel`. -/
def dropZeros : Nat → Nat → Nat
  | 0, n => n
  | fuel + 1, n => if n % 10 = 0 && n != 0 then dropZeros fuel (n / 10) else n

/-- The first grid with a hit, trying `tries` grids from the one on which the
number has `count` digits. -/
def Interval.search (i : Interval) (lead : Int) : Nat → Nat → Digits
  | 0, count => ⟨i.center * Nat.pow 10 count / i.den, lead + 1⟩
  | tries + 1, count =>
    let e := lead - count + 1
    match i.onGrid? e with
    | some n => ⟨dropZeros (count + 1) n, e + digitCount n⟩
    | none => i.search lead tries (count + 1)

/-- The shortest decimal of the positive double `mantissa * 2 ^ exponent`. -/
def shortest (mantissa : Nat) (exponent : Int) : Digits :=
  let i := Interval.of mantissa exponent
  i.search (leadingExponent i.center i.den) 17 1

end Livedoc.Decimal
