import Livedoc.Decimal.Binary

/-!
# Powers

The power of two doubles. Its sign is settled first: it is that of the base if the
exponent is an odd integer, and positive if it is any other one. What is left is the
size, the power of the base without its sign.

A size that must be infinite is not worked out: the base reaches a power of two, so
the size reaches a multiple of it.
-/

namespace Livedoc.Decimal

/-- The number with the sign that is given. -/
def withSign (negative : Bool) (x : Float) : Float :=
  let bits := x.toBits.toNat % signBit
  Float.ofBits (UInt64.ofNat (if negative then bits + signBit else bits))

/-- The double that is no number. -/
def undefinedNumber : Float := Float.ofBits (UInt64.ofNat (infinityBits + leadingBit / 2))

namespace Binary

/-- Whether the sign is set. -/
def hasSign : Binary → Bool
  | .nan => false
  | .infinite negative => negative
  | .finite negative _ _ => negative

/-- Whether the number is finite and not zero, with the sign that is given. -/
def isFiniteWith (negative : Bool) : Binary → Bool
  | .finite sign mantissa _ => sign == negative && mantissa != 0
  | _ => false

def isFinite : Binary → Bool
  | .finite .. => true
  | _ => false

def isInfinite : Binary → Bool
  | .infinite _ => true
  | _ => false

/-- Whether the number is an integer. -/
def isInteger : Binary → Bool
  | .finite _ mantissa exponent => isWhole mantissa exponent
  | _ => false

/-- Whether the number is an odd integer. -/
def isOdd : Binary → Bool
  | .finite _ mantissa exponent =>
    isWhole mantissa exponent && wholePart mantissa exponent % 2 == 1
  | _ => false

end Binary

/-- The exponent of a power of two that the size of a power reaches. The base lies
between a power of two and the next one, and the whole part of the exponent says how
many factors there are at least. -/
def reachedExponent : Binary → Binary → Int
  | .finite _ mantissa exponent, .finite negative mantissa' exponent' =>
    let low : Int := mantissa.log2 + exponent
    let factors : Int := wholePart mantissa' exponent'
    if mantissa = 0 then 0 else if negative then -(low + 1) * factors else low * factors
  | _, _ => 0

/-- The first power of two that is beyond the doubles. -/
def infiniteFrom : Int := 1024

/-- The power of the base without its sign. -/
def powerSize (base exponent : Float) : Float :=
  if infiniteFrom ≤ reachedExponent (.ofFloat base) (.ofFloat exponent) then infinity false
  else withSign false (Float.pow (withSign false base) exponent)

/-- The power of two numbers. Where it is too large, or where zero is raised to a
negative power, it is infinite. A negative number has integer powers only. -/
def power (base exponent : Float) : Float :=
  let x := Binary.ofFloat base
  let y := Binary.ofFloat exponent
  if x.isFiniteWith true && !y.isInteger && !y.isInfinite then undefinedNumber
  else
    let size := powerSize base exponent
    if x.isFinite && y.isFinite && (Binary.ofFloat size).isInfinite then infinity false
    else withSign (x.hasSign && y.isOdd) size

end Livedoc.Decimal
