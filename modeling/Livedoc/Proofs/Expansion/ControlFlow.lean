import Livedoc.Proofs.Expansion.Nesting
import Livedoc.Proofs.Expansion.Resolved

/-!
# Control flow in calls and in the tree

A choice or a repetition stands in a document as a call of the built-in function, with the body of
the call, or in the tree as a node of its own. A call of `if` gives its body, which is expanded
afterwards; a call of `repeat` expands it once for each round, and what it gives is static. Either
way the call does, within itself, what the node does (`run_conditional`, `run_repetition`). Being
within the call makes no difference to that, so a call that does not break off comes to what the
node comes to (`expandNodes_controlFlow`).

The converse does not hold. A call takes one of the levels that are left, and where none is left
it breaks off, though the node would not.
-/

namespace Livedoc

open Livedoc.Environment Livedoc.Expansion Livedoc.Problem Livedoc.Source Livedoc.Tree

namespace Expansion

/-- A name without a function of the document stands for the built-in one. -/
theorem callee_builtin {s : Store} {b : Builtin} (hnone : s.functions.get? b.name = none) :
    s.callee? b.name = some (.builtin b) := by
  rw [Store.callee?, hnone]
  cases b <;> rfl

variable {c : Invocation} {a : Argument}

/-- Within its call, a choice is the node for it without an alternative. -/
theorem run_conditional (h : c.arguments = [a]) (span : Span) :
    Callee.run expandNodes c (.builtin .conditional) =
      expandNodes [.conditional a.content c.body [] span] := by
  funext e
  have hrun : Builtin.run expandNodes c .conditional e =
      (.ok (if e.store.holds a.content then c.body else []), e) := by
    simp only [Builtin.run, h, List.head?_cons]
    rw [bind_ok (inspect_run _ e)]
    cases e.store.holds a.content <;> rfl
  rw [expandNodes_single, expandNode, bind_ok (inspect_run _ e)]
  show (Builtin.run expandNodes c .conditional >>= expandNodes) e = _
  rw [bind_ok hrun]
  cases e.store.holds a.content <;> rfl

/-- Within its call, a repetition is the node for it that counts in the same variable. -/
theorem run_repetition (h : c.arguments = [a]) :
    Callee.run expandNodes c (.builtin .repetition) =
      expandNodes [.loop a.content c.body "_index" a.span] := by
  have hrun : Callee.run expandNodes c (.builtin .repetition) =
      Builtin.run expandNodes c .repetition := bind_expandNodes (Builtin.run_static rfl c)
  rw [hrun, expandNodes_single]
  simp only [Builtin.run, argumentText, Invocation.firstSpan, h]
  rfl

/-- A call that does within itself what a node does comes to what the node comes to. -/
theorem expandNodes_of_call {e after : Environment} {b : Builtin} {n : Node} {nodes : List Node}
    (hcallee : e.store.callee? c.name = some (.builtin b))
    (hrun : Callee.run expandNodes c (.builtin b) = expandNodes [n])
    (h : expandNodes [c.toNode] e = (.ok nodes, after)) :
    expandNodes [n] e = (.ok nodes, after) := by
  rw [expandNodes_call, expandCall_known hcallee, hrun] at h
  exact expandNodes_of_inCall h

/-- **Control flow in calls and in the tree agree.** Let `if` and `repeat` be no functions of the
document. If a call of `if` with one argument expands without breaking off, then the node for a
choice with that condition and the body of the call, and without an alternative, expands to the
same nodes and leaves the same environment: the variables, the frames, the functions, the
metadata and the messages. So does the node for a repetition, with the body, the counting
variable and the place of the argument, if a call of `repeat` expands. -/
theorem expandNodes_controlFlow (e after : Environment) (condition count : String)
    (body nodes : List Node) (named : List NamedArgument) (argument call choice : Span) :
    (e.store.functions.get? "if" = none →
      expandNodes [.call "if" [⟨condition, argument⟩] named body call] e = (.ok nodes, after) →
        expandNodes [.conditional condition body [] choice] e = (.ok nodes, after)) ∧
    (e.store.functions.get? "repeat" = none →
      expandNodes [.call "repeat" [⟨count, argument⟩] named body call] e = (.ok nodes, after) →
        expandNodes [.loop count body "_index" argument] e = (.ok nodes, after)) := by
  constructor
  · intro hnone h
    let c : Invocation := ⟨"if", [⟨condition, argument⟩], named, body, call⟩
    have hcallee : e.store.callee? c.name = some (.builtin .conditional) :=
      callee_builtin (b := .conditional) hnone
    have hrun : Callee.run expandNodes c (.builtin .conditional) =
        expandNodes [.conditional condition body [] choice] :=
      run_conditional (a := ⟨condition, argument⟩) rfl choice
    exact expandNodes_of_call hcallee hrun h
  · intro hnone h
    let c : Invocation := ⟨"repeat", [⟨count, argument⟩], named, body, call⟩
    have hcallee : e.store.callee? c.name = some (.builtin .repetition) :=
      callee_builtin (b := .repetition) hnone
    have hrun : Callee.run expandNodes c (.builtin .repetition) =
        expandNodes [.loop count body "_index" argument] :=
      run_repetition (a := ⟨count, argument⟩) rfl
    exact expandNodes_of_call hcallee hrun h

/-- A body that shows the counting variable, which is missing in a choice. The count of the
repetition is no number, so there is one round. -/
theorem expandNodes_controlFlow_index :
    let e := folderWith ""
    let body : List Node := [.reference "_index" .unknown]
    let choice := expandNodes [.conditional "true" body [] .unknown] e
    let repetition := expandNodes [.loop "once" body "_index" .unknown] e
    e.store.functions.get? "if" = none ∧ e.store.functions.get? "repeat" = none ∧
      choice = expandNodes [.call "if" [⟨"true", .unknown⟩] [] body .unknown] e ∧
      choice.1 = .ok [.text "\x7b\x7b_index\x7d\x7d" .unknown] ∧
      repetition = expandNodes [.call "repeat" [⟨"once", .unknown⟩] [] body .unknown] e ∧
      repetition.1 = .ok [.text "0" .unknown] := by
  intro e body choice repetition
  let ifCall := expandNodes [.call "if" [⟨"true", .unknown⟩] [] body .unknown] e
  let repeatCall := expandNodes [.call "repeat" [⟨"once", .unknown⟩] [] body .unknown] e
  have hif : ifCall.1 = .ok [.text "\x7b\x7b_index\x7d\x7d" .unknown] := by rfl
  have hrepeat : repeatCall.1 = .ok [.text "0" .unknown] := by rfl
  have hchoice : choice = ifCall :=
    ((expandNodes_controlFlow e ifCall.2 "true" "once" body _ [] .unknown .unknown .unknown).1 rfl
      (Prod.ext hif rfl)).trans (Prod.ext hif.symm rfl)
  have hrepetition : repetition = repeatCall :=
    ((expandNodes_controlFlow e repeatCall.2 "true" "once" body _ [] .unknown .unknown .unknown).2
      rfl (Prod.ext hrepeat rfl)).trans (Prod.ext hrepeat.symm rfl)
  exact ⟨rfl, rfl, hchoice, hchoice ▸ hif, hrepetition, hrepetition ▸ hrepeat⟩

end Expansion

end Livedoc
