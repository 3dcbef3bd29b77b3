import Livedoc.Expansion.Basic

/-!
# Conditions and repetitions

A condition is a reference to a variable, which counts as the variable does and as
false if there is none, or a literal text.

The number of rounds of a repetition is read off a text. A text without a number
means one round, a negative number none, and no repetition goes on for more rounds
than the limit allows. The counting variable holds the number of rounds done.
-/

namespace Livedoc

open Livedoc.Decimal Livedoc.Problem Livedoc.Source Livedoc.Text Livedoc.Tree

/-- Whether a condition holds. -/
def Store.holds (s : Store) (condition : String) : Bool :=
  match trim condition.toList with
  | '.' :: name => ((s.lookup (String.ofList (trim name))).map Value.isTruthy).getD false
  | text => isTruthyText (String.ofList text)

/-- A number of rounds. -/
inductive Rounds where
  /-- So many. -/
  | exactly (n : Nat)
  /-- As many as the limit allows, which is less than the given number. -/
  | limited (wanted : Float)

/-- The rounds that a text asks for under a limit. -/
def roundsOf (text : String) (limit : Int) : Rounds :=
  match parseNumber? text with
  | none => .exactly 1
  | some x =>
    match Binary.ofFloat x with
    | .nan => .exactly 1
    | .infinite negative => if negative then .exactly 0 else .limited x
    | .finite negative mantissa exponent =>
      let whole := wholePart mantissa exponent
      if negative || mantissa = 0 then .exactly 0
      else if whole > limit || (whole = limit && !isWhole mantissa exponent) then .limited x
      else .exactly whole

/-- The number of rounds that a text asks for. Asking for more than the limit is
worth a warning. -/
def iterationCount (text : String) (span : Span) : Expansion Int := do
  let limit ← Expansion.inspect (·.setting.limits.iterations)
  match roundsOf text limit with
  | .exactly n => return n
  | .limited wanted =>
    Expansion.warn
      ("repeat count " ++ formatNumber wanted ++ " exceeds limit of " ++ toString limit)
      .performance span
    return limit

/-- Expands a body once for each of `rounds` further rounds, `done` rounds being
done. -/
def repeatFrom (expand : Expander) (body : List Node) (counter : String) :
    Nat → Nat → Expansion (List Node)
  | _, 0 => return []
  | done, rounds + 1 => do
    Expansion.update (·.assign counter (.ofNat done))
    let first ← expand body
    let others ← repeatFrom expand body counter (done + 1) rounds
    return first ++ others

/-- Expands a body so many times, and not at all if the number is negative. -/
def repeatBody (expand : Expander) (body : List Node) (counter : String) (rounds : Int) :
    Expansion (List Node) :=
  repeatFrom expand body counter 0 rounds.toNat

end Livedoc
