import Livedoc.Compilation
import Livedoc.Proofs.Decimal.Integer
import Livedoc.Proofs.Dictionary
import Livedoc.Proofs.Expansion.Resolved

/-!
# Integer variables

A caller may hand over integers as variables of a document. A variable holds no integers, so each
becomes a double, and a reference to the variable shows the digits of this double. Of the integers
with 64 bits some become a double that is another integer. Which one, and when it is the same, is
said by `NearestInteger` and `FewBits`.

The variables that a document starts with are those of the caller, over the constants
(`lookup_environment`).
-/

namespace Livedoc

open Livedoc.Decimal Livedoc.Environment Livedoc.Expansion Livedoc.Source Livedoc.Tree

namespace CompileOptions

/-- The values of the variables stand under the names of the data. -/
theorem frame_spec {bindings : Dictionary Datum} : ∀ {frame : Frame},
    bindings.mapM (fun (name, d) => d.toValue?.map fun v => (name, v)) = some frame →
      frame.map (fun entry => entry.1) = bindings.map (fun entry => entry.1) ∧
        ∀ name, frame.get? name = (bindings.get? name).bind Datum.toValue? := by
  induction bindings with
  | nil =>
      intro frame h
      obtain rfl : [] = frame := by simpa using h
      exact ⟨rfl, fun name => rfl⟩
  | cons entry rest ih =>
      intro frame h
      obtain ⟨key, d⟩ := entry
      rw [List.mapM_cons] at h
      obtain ⟨bound, hbound, hmore⟩ := Option.bind_eq_some_iff.mp h
      obtain ⟨others, hothers, hframe⟩ := Option.bind_eq_some_iff.mp hmore
      obtain ⟨v, hv, rfl⟩ := Option.map_eq_some_iff.mp hbound
      obtain rfl : (key, v) :: others = frame := Option.some.inj hframe
      obtain ⟨hkeys, hvalues⟩ := ih hothers
      constructor
      · rw [List.map_cons, List.map_cons, hkeys]
      · intro name
        rw [Dictionary.get?_cons, Dictionary.get?_cons, hvalues]
        by_cases hname : name = key
        · rw [if_pos hname, if_pos hname]
          exact hv.symm
        · rw [if_neg hname, if_neg hname]

/-- A document starts with the variables of the caller. -/
theorem lookup_environment {o : CompileOptions} {frame : Frame} {name : String} {d : Datum}
    {v : Value} (hdistinct : o.bindings.Distinct) (hframe : o.frame? = some frame)
    (hd : o.bindings.get? name = some d) (hv : d.toValue? = some v) (source : String) :
    (o.environment source frame).store.lookup name = some v := by
  obtain ⟨hkeys, hvalues⟩ := frame_spec hframe
  have hsame : frame.Distinct := by
    rw [Dictionary.Distinct, hkeys]
    exact hdistinct
  show (none : Option Value).or ((Dictionary.setAll o.moment.constants frame).get? name) = _
  rw [Option.none_or, Dictionary.get?_setAll hsame, hvalues, hd, Option.bind_some, hv]
  rfl

end CompileOptions

/-- **An integer variable prints as the nearest integer with few bits.** Let an integer have 64 bits,
with its sign. As a variable it becomes a number, the text of which are the digits of an integer with
no more significant bits than the mantissa of a double. No such integer is nearer to the one that was
given, and it is this one exactly if this has so few bits, as all have up to the largest mantissa. A
reference to a variable that the caller sets to the integer expands to these digits, and does nothing
else. -/
theorem toText_integer (n : Int) (hlow : -2 ^ 63 ≤ n) (hhigh : n < 2 ^ 63) :
    ∃ k, NearestInteger n k ∧ (k = n ↔ FewBits n.natAbs) ∧
      (n.natAbs ≤ 2 ^ 53 → k = n) ∧
      (∃ v, (Datum.integer n).toValue? = some v ∧ v.toText = intText k) ∧
      ∀ (o : CompileOptions) frame source name span, o.bindings.Distinct →
        o.bindings.get? name = some (.integer n) → o.frame? = some frame →
          expandNodes [.reference name span] (o.environment source frame) =
            (.ok [.text (intText k) span], o.environment source frame) := by
  obtain ⟨x, k, hx, htext, hnearest, hself⟩ := exists_nearestInteger (n := n) (by omega)
  have hvalue : (Datum.integer n).toValue? = some (.number x) := by rw [Datum.toValue?, hx]; rfl
  use k, hnearest, hself
  constructor
  · intro hsmall
    exact hself.mpr (.of_le hsmall)
  · constructor
    · exact ⟨_, hvalue, htext⟩
    · intro o frame source name span hdistinct hget hframe
      have hlookup := CompileOptions.lookup_environment hdistinct hframe hget hvalue source
      rw [expandNodes_single, expandNode, expandReference, bind_ok (inspect_run _ _), hlookup]
      show (_, _) = _
      rw [← htext]
      rfl

/-- The first integer that is no double. It is as near to the one before it as to the one behind
it, and the one before it has the even mantissa. -/
theorem toText_integer_tie :
    let o : CompileOptions := { bindings := [("n", .integer 9007199254740993)]
                                moment := { year := 2024, month := 3, day := 9 } }
    (-2 ^ 63 : Int) ≤ 9007199254740993 ∧ (9007199254740993 : Int) < 2 ^ 63 ∧
      o.bindings.Distinct ∧ o.bindings.get? "n" = some (.integer 9007199254740993) ∧
      ∃ frame, o.frame? = some frame ∧
        expandNodes [.reference "n" .unknown] (o.environment "" frame) =
          (.ok [.text "9007199254740992" .unknown], o.environment "" frame) := by
  intro o
  obtain ⟨k, -, -, -, ⟨v, hv, htext⟩, hexpand⟩ :=
    toText_integer 9007199254740993 (by decide) (by decide)
  have hshown : (Datum.integer 9007199254740993).toValue?.map Value.toText =
      some "9007199254740992" := by decide +kernel
  rw [hv, Option.map_some, htext] at hshown
  have hdistinct : o.bindings.Distinct := List.pairwise_singleton _ "n"
  have hframe : o.frame? = some [("n", v)] := by simp [o, CompileOptions.frame?, hv]
  have hrun := hexpand o [("n", v)] "" "n" .unknown hdistinct rfl hframe
  rw [Option.some.inj hshown] at hrun
  exact ⟨by decide, by decide, hdistinct, rfl, _, hframe, hrun⟩

/-- The text of this integer as a variable is that of another integer. -/
theorem toText_integer_ne :
    ((Datum.integer 9007199254740993).toValue?.map Value.toText) = some "9007199254740992" ∧
      intText 9007199254740993 = "9007199254740993" := by
  decide +kernel

end Livedoc
