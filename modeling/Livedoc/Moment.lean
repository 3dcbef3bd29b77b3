import Livedoc.Value

/-!
# The moment of compilation

A document can show the date and the time of its compilation. The moment is part
of the settings, so that the same document compiled for the same moment gives the
same result.
-/

namespace Livedoc

open Livedoc.Decimal

/-- A date with a time of the day. -/
structure Moment where
  year : Nat
  month : Nat
  day : Nat
  hour : Nat := 0
  minute : Nat := 0
  second : Nat := 0
  microsecond : Nat := 0
deriving DecidableEq, Repr

namespace Moment

/-- A number with at least `width` digits. -/
def padded (width n : Nat) : String :=
  let digits := digitText n
  zeros (width - digits.length) ++ digits

/-- The date: year, month and day. -/
def date (m : Moment) : String :=
  padded 4 m.year ++ "-" ++ padded 2 m.month ++ "-" ++ padded 2 m.day

/-- The date and the time to the second. -/
def toSeconds (m : Moment) : String :=
  m.date ++ "T" ++ padded 2 m.hour ++ ":" ++ padded 2 m.minute ++ ":" ++ padded 2 m.second

/-- The date and the time, with the fraction of the second if there is any. -/
def toText (m : Moment) : String :=
  m.toSeconds ++ (if m.microsecond = 0 then "" else "." ++ padded 6 m.microsecond)

end Moment

/-- The double nearest to the ratio of a circle's circumference to its diameter. -/
def circleRatio : Float := Float.ofBits 0x400921FB54442D18

/-- The double nearest to the base of the natural logarithms. -/
def naturalBase : Float := Float.ofBits 0x4005BF0A8B145769

/-- The variables that every document starts with. -/
def Moment.constants (m : Moment) : List (String × Value) :=
  [("pi", .number circleRatio), ("e", .number naturalBase), ("today", .text m.date),
   ("now", .text m.toSeconds), ("year", .ofNat m.year), ("month", .ofNat m.month),
   ("day", .ofNat m.day)]

end Livedoc
