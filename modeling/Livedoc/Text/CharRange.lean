/-!
# Sets of characters given by ranges

The character classes of this library (letters, digits, printable characters, …)
are properties that the Unicode standard lists. Each is written down as a list of
closed ranges of code points, and a character belongs to the class when one of
the ranges covers it.

This module holds the one membership test that all those tables share.
-/

namespace Livedoc.Text

/-- A closed range of code points: first and last member. -/
abbrev CharRange := Nat × Nat

/-- Whether the range covers the character. -/
def CharRange.covers (r : CharRange) (c : Char) : Bool :=
  r.1 ≤ c.toNat && c.toNat ≤ r.2

/-- Whether one of the ranges covers the character. -/
def inRanges (ranges : List CharRange) (c : Char) : Bool :=
  ranges.any (·.covers c)

/-- Membership in a table is membership in one of its ranges. -/
theorem inRanges_iff {ranges : List CharRange} {c : Char} :
    inRanges ranges c = true ↔ ∃ r ∈ ranges, r.1 ≤ c.toNat ∧ c.toNat ≤ r.2 := by
  simp [inRanges, CharRange.covers]

end Livedoc.Text
