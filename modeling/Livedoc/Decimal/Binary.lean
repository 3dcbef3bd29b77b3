/-!
# Doubles as exact numbers

A quotient of natural numbers is rounded to the nearest natural number, and a
quotient halfway between two goes to the even one. Printing with a fixed number of
places and reading a decimal into a double are both this one operation.

A finite double is a signed natural number times a power of two. This module
takes a double apart into those three parts and, the other way round, finds the
double that is nearest to an exact quotient. All arithmetic is on natural numbers,
so nothing is lost on the way.
-/

namespace Livedoc.Decimal

/-- `num / den` rounded to the nearest number, a half going to the even neighbour. -/
def roundDiv (num den : Nat) : Nat :=
  let down := num / den
  let twice := 2 * (num % den)
  if twice < den then down
  else if den < twice then down + 1
  else if down % 2 = 0 then down else down + 1

/-- The rounded quotient is within half a unit of the exact one. -/
theorem roundDiv_near (num : Nat) {den : Nat} (h : 0 < den) :
    2 * (roundDiv num den * den) ≤ 2 * num + den ∧
      2 * num ≤ 2 * (roundDiv num den * den) + den := by
  have hdiv := Nat.div_add_mod num den
  have hmod := Nat.mod_lt num h
  have hcomm : num / den * den = den * (num / den) := Nat.mul_comm _ _
  have hsucc : (num / den + 1) * den = den * (num / den) + den := by
    rw [Nat.add_mul, hcomm]; omega
  unfold roundDiv
  simp only
  split
  · rw [hcomm]; omega
  · split
    · rw [hsucc]; omega
    · split
      · rw [hcomm]; omega
      · rw [hsucc]; omega

/-- A quotient without remainder is not changed. -/
theorem roundDiv_mul (n : Nat) {den : Nat} (h : 0 < den) : roundDiv (n * den) den = n := by
  simp [roundDiv, Nat.mul_div_cancel n h, h]

/-- The number of decimal digits of a number; zero has one. -/
def digitCount (n : Nat) : Nat := (Nat.toDigits 10 n).length

/-! ## Doubles -/

/-- A double taken apart. A finite one is `mantissa * 2 ^ exponent`, negated if
`negative` is set; the mantissa has at most 53 bits. -/
inductive Binary where
  | nan
  | infinite (negative : Bool)
  | finite (negative : Bool) (mantissa : Nat) (exponent : Int)
deriving DecidableEq, Repr

/-- The bit pattern of a double whose sign alone is set. -/
def signBit : Nat := Nat.pow 2 63

/-- The leading bit of a full mantissa. It is not stored: in a bit pattern its place
belongs to the exponent. -/
def leadingBit : Nat := Nat.pow 2 52

/-- The parts that a bit pattern encodes: a sign bit, eleven bits of exponent and
fifty-two of mantissa. -/
def Binary.ofBits (bits : Nat) : Binary :=
  let negative := bits / signBit % 2 == 1
  let biased : Nat := bits / leadingBit % 2048
  let fraction : Nat := bits % leadingBit
  if biased = 2047 then
    if fraction = 0 then .infinite negative else .nan
  else if biased = 0 then .finite negative fraction (-1074)
  else .finite negative (leadingBit + fraction) ((biased : Int) - 1075)

/-- A double taken apart. -/
def Binary.ofFloat (x : Float) : Binary := .ofBits x.toBits.toNat

/-- `2 ^ e` as a quotient of natural numbers. -/
def powerOfTwo (e : Int) : Nat × Nat :=
  if e < 0 then (1, Nat.pow 2 (-e).toNat) else (Nat.pow 2 e.toNat, 1)

/-- The bits of positive infinity. -/
def infinityBits : Nat := 2047 * leadingBit

/-- The bits of the non-negative double nearest to `num / den`.

The exponent is the least one, and at least that of the subnormal numbers, with
which the quotient has at most 53 bits before the point. A mantissa that rounding
carries to 54 bits flows into the exponent field by itself. -/
def nearestBits (num den : Nat) : Nat :=
  if num = 0 then 0
  else
    let scaled (e : Int) : Nat × Nat :=
      let p := powerOfTwo e
      (num * p.2, den * p.1)
    let low : Int := (num.log2 : Int) - den.log2 - 53
    let fits (e : Int) : Bool := (scaled e).1 / (scaled e).2 < 2 * leadingBit
    let e := max (-1074) (if fits low then low else low + 1)
    let mantissa := roundDiv (scaled e).1 (scaled e).2
    let bits :=
      if mantissa < leadingBit then mantissa
      else (e + 1075).toNat * leadingBit + (mantissa - leadingBit)
    min bits infinityBits

/-- The double nearest to `num / den`, negated if `negative` is set. -/
def nearest (negative : Bool) (num den : Nat) : Float :=
  let bits := nearestBits num den
  Float.ofBits (UInt64.ofNat (if negative then bits + signBit else bits))

/-- Positive or negative infinity. -/
def infinity (negative : Bool) : Float :=
  Float.ofBits (UInt64.ofNat (if negative then infinityBits + signBit else infinityBits))

/-- The largest natural number not above `mantissa * 2 ^ exponent`. -/
def wholePart (mantissa : Nat) (exponent : Int) : Nat :=
  let p := powerOfTwo exponent
  mantissa * p.1 / p.2

/-- Whether `mantissa * 2 ^ exponent` is a natural number. -/
def isWhole (mantissa : Nat) (exponent : Int) : Bool :=
  let p := powerOfTwo exponent
  mantissa * p.1 % p.2 == 0

/-- The double nearest to an integer, unless the integer rounds to infinity. -/
def ofInt? (n : Int) : Option Float :=
  if nearestBits n.natAbs 1 < infinityBits then some (nearest (n < 0) n.natAbs 1) else none

end Livedoc.Decimal
