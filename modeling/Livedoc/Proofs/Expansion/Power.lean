import Livedoc.Proofs.Decimal.Power
import Livedoc.Proofs.Expansion.ControlFlow
import Livedoc.Proofs.Expansion.Splice

/-!
# Calls of powers

A call of `pow` with literals comes to the text of the power of the numbers that they are read as, and
changes nothing (`expandNodes_pow`). Its sign is that of the power, but for the powers that are too
large: these are all shown as positive infinity (`pow_sign`).
-/

namespace Livedoc

open Livedoc.Decimal Livedoc.Environment Livedoc.Expansion Livedoc.Source Livedoc.Tree

namespace Expansion

variable {e : Environment} {argument raw : String}

/-- The power that a call of `pow` with literals asks for. -/
def powerText (argument raw : String) : String :=
  formatNumber (power (numberOr 0 (literalText argument)) (numberOr 1 (literalText raw)))

/-- A call of `pow` with literals comes to the text of the power. -/
theorem expandNodes_pow (hnone : e.store.functions.get? "pow" = none)
    (hdepth : (e.setting.calls.length : Int) < e.setting.limits.callDepth)
    (hargument : Literal argument) (hraw : Literal raw) (c : Invocation) (hname : c.name = "pow")
    {place : Span} (hfirst : c.arguments = [⟨argument, place⟩])
    (hto : c.namedTexts.get? "to" = some raw) :
    expandNodes [c.toNode] e = (.ok [.text (powerText argument raw) .unknown], e) := by
  have hcallee : e.store.callee? c.name = some (.builtin .pow) := by
    rw [hname]
    exact callee_builtin (b := .pow) hnone
  let inner : Environment := { e with setting := e.setting.enterCall c.name c.namedTexts }
  have henter : e.enter (.call c.name c.namedTexts c.span) = .ok (inner, .call e.setting.named) :=
    enter_call_of_lt hdepth _ _ _
  have hbase : argumentText expandNodes c 0 inner = (.ok (literalText argument), inner) := by
    simp only [argumentText, hfirst, List.getElem?_cons_zero]
    exact hargument.resolve inner
  have hgiven : named? "to" inner = (.ok (some raw), inner) := by
    show (Except.ok (c.namedTexts.get? "to"), inner) = _
    rw [hto]
  have hexponent : namedNumber expandNodes "to" 1 inner =
      (.ok (numberOr 1 (literalText raw)), inner) := by
    unfold namedNumber namedText?
    rw [bind_ok (bind_ok hgiven _ |>.trans (bind_ok (hraw.resolve inner) _))]
    rfl
  have hrun : Builtin.run expandNodes c .pow inner =
      (.ok [.text (powerText argument raw) .unknown], inner) := by
    rw [Builtin.run, bind_ok hbase, bind_ok hexponent]
    rfl
  rw [expandNodes_builtin hcallee rfl, inBlock_ok henter, hrun]
  simp [inner, Environment.leave, Setting.enterCall]

/-- **Powers have the right sign, unless they are too large.** An odd integer power of a negative
finite number is shown as a positive number only if it is too large for a double, which is then shown
as `Infinity`; an even integer power, and a power of a number without a minus sign, is never shown as
a negative number. Let `pow` be no function of the document, and let a call be possible. A call of it
with literals that are read as the base and the exponent comes to the text of the power, and leaves
the environment as it is. -/
theorem pow_sign (base exponent : Float) :
    ((Binary.ofFloat base).isFiniteWith true = true → (Binary.ofFloat exponent).isOdd = true →
      (ShowsPositive (formatNumber (power base exponent)) ↔ Overflows base exponent) ∧
        (Overflows base exponent → formatNumber (power base exponent) = "Infinity")) ∧
    ((Binary.ofFloat base).hasSign = false ∨ (Binary.ofFloat exponent).isEven = true →
      ¬ ShowsNegative (formatNumber (power base exponent))) ∧
    (∀ (e : Environment) (argument raw : String) (place : Span) (named : List NamedArgument)
      (body : List Node) (span : Span),
      e.store.functions.get? "pow" = none →
      (e.setting.calls.length : Int) < e.setting.limits.callDepth →
      Literal argument → numberOr 0 (literalText argument) = base →
      Literal raw → numberOr 1 (literalText raw) = exponent →
        let c : Invocation := ⟨"pow", [⟨argument, place⟩], named, body, span⟩
        c.namedTexts.get? "to" = some raw →
          expandNodes [c.toNode] e =
            (.ok [.text (formatNumber (power base exponent)) .unknown], e)) := by
  constructor
  · intro hbase hodd
    constructor
    · exact showsPositive_power_iff hbase hodd
    · intro hover
      rw [power_of_overflows hover hodd]
      decide
  · constructor
    · exact not_showsNegative_power
    · rintro e argument raw place named body span hnone hdepth hargument rfl hraw rfl c hto
      exact expandNodes_pow hnone hdepth hargument hraw c rfl rfl hto

/-- A negative number with an odd exponent, and with an even one. -/
theorem pow_sign_sixteen :
    let e := folderWith ""
    let call : Node :=
      .call "pow" [⟨"-16", .unknown⟩] [⟨"to", ⟨"3", .unknown⟩, .unknown⟩] [] .unknown
    let base := numberOr 0 "-16"
    (Binary.ofFloat base).isFiniteWith true = true ∧ (Binary.ofFloat (numberOr 1 "3")).isOdd = true ∧
      (ShowsPositive (formatNumber (power base (numberOr 1 "3"))) ↔
        Overflows base (numberOr 1 "3")) ∧
      expandNodes [call] e = (.ok [.text (formatNumber (power base (numberOr 1 "3"))) .unknown], e) ∧
      (Binary.ofFloat (numberOr 1 "4")).isEven = true ∧
      ¬ ShowsNegative (formatNumber (power base (numberOr 1 "4"))) := by
  intro e call base
  have hbase : (Binary.ofFloat base).isFiniteWith true = true := by decide +kernel
  have hodd : (Binary.ofFloat (numberOr 1 "3")).isOdd = true := by decide +kernel
  have heven : (Binary.ofFloat (numberOr 1 "4")).isEven = true := by decide +kernel
  obtain ⟨hcube, -, hcall⟩ := pow_sign base (numberOr 1 "3")
  have hcall := hcall e "-16" "3" .unknown [⟨"to", ⟨"3", .unknown⟩, .unknown⟩] [] .unknown rfl
    (by decide) (Literal.of_no_dot (by decide)) rfl (Literal.of_no_dot (by decide)) rfl (by decide)
  exact ⟨hbase, hodd, (hcube hbase hodd).1, hcall, heven, (pow_sign base _).2.1 (.inr heven)⟩

/-- A negative number to an odd power that is too large. -/
theorem pow_positive_infinity :
    (Binary.ofFloat (numberOr 0 "-16")).isFiniteWith true = true ∧
      (Binary.ofFloat (numberOr 1 "257")).isOdd = true ∧
      (expandNodes (Document.read ".pow {-16} to:{257}").result.children (folderWith "")).1.toOption.map
        Node.textOf = some "Infinity" ∧ ShowsPositive "Infinity" := by
  decide +kernel

end Expansion

end Livedoc
