import Livedoc.Proofs.Expansion.Unfolding

/-!
# Environments that expansion cannot tell apart

Two environments may differ in something that expansion never looks at. Then it does the same
in both of them, and the environments that it leaves differ in the same way. Such a difference
is a relation between environments that single steps, blocks and isolated work keep
(`Indistinct`). What is composed of them keeps it as well, so it is enough to look at these:
expansion of nodes agrees (`Indistinct.expandNodes`), and so does that of a document
(`Indistinct.expandEach`).
-/

namespace Livedoc.Expansion

open Livedoc.Environment Livedoc.Source Livedoc.Tree

variable {α β : Type} {R : Environment → Environment → Prop}

/-- In related environments the step gives the same, and leaves related environments. -/
def Agrees (R : Environment → Environment → Prop) (m : Expansion α) : Prop :=
  ∀ e e', R e e' → (m e').1 = (m e).1 ∧ R (m e).2 (m e').2

namespace Agrees

theorem pure (a : α) : Agrees R (pure a) := fun _ _ h => ⟨rfl, h⟩

theorem bind {m : Expansion α} {k : α → Expansion β} (hm : Agrees R m)
    (hk : ∀ a, Agrees R (k a)) : Agrees R (m >>= k) := by
  intro e e' h
  obtain ⟨hresult, hafter⟩ := hm e e' h
  rcases hrun : m e with ⟨result, after⟩
  rcases hrun' : m e' with ⟨result', after'⟩
  rw [hrun, hrun'] at hresult hafter
  obtain rfl : result' = result := hresult
  cases result' with
  | ok a =>
      rw [bind_ok hrun, bind_ok hrun']
      exact hk a after after' hafter
  | error f =>
      rw [bind_error hrun, bind_error hrun']
      exact ⟨rfl, hafter⟩

theorem iterationCount (hlimit : Agrees R (inspect (·.setting.limits.iterations)))
    (hwarn : ∀ message kind span, Agrees R (warn message kind span)) (text : String) (span : Span) :
    Agrees R (iterationCount text span) :=
  iterationCount_of (P := fun _ => Agrees R) pure bind hlimit hwarn text span

end Agrees

/-- A difference between environments that does not show: related environments leave as many
levels of calls, and all of which steps are composed agrees in them. -/
structure Indistinct (R : Environment → Environment → Prop) : Prop where
  levels : ∀ {e e'}, R e e' → e'.setting.levels = e.setting.levels
  primitive : ∀ {α : Type} {m : Expansion α}, Primitive m → Agrees R m
  inBlock : ∀ {α : Type} (o : Opening) {m : Expansion α}, Agrees R m → Agrees R (inBlock o m)
  inIsolation : ∀ {α : Type} {m : Expansion α}, Agrees R m → Agrees R (inIsolation m)

namespace Indistinct

/-- Whatever is put together agrees. -/
theorem closed (hR : Indistinct R) : Closed fun _ => Agrees R where
  pure := Agrees.pure
  primitive := hR.primitive
  bind := Agrees.bind
  inBlock := hR.inBlock
  inIsolation := hR.inIsolation

/-- **Expansion cannot tell related environments apart.** -/
theorem expandNodes (hR : Indistinct R) (ns : List Node) : Agrees R (expandNodes ns) := by
  intro e e' h
  have hlevels : Livedoc.expandNodes ns e' =
      Livedoc.expander (Livedoc.callMeaning e.setting.levels) ns e' := by
    rw [← hR.levels h]
    rfl
  rw [hlevels]
  exact hR.closed.expander (hR.closed.callMeaning e.setting.levels) ns e e' h

/-- Neither can the expansion of a document, node by node, if giving up does not show the
difference. -/
theorem expandEach (hR : Indistinct R)
    (hgiveUp : ∀ {e e'} reason, R e e' →
      R (e.mapStore (·.giveUp reason)) (e'.mapStore (·.giveUp reason)))
    (ns : List Node) : ∀ e e', R e e' →
      (expandEach Livedoc.expandNodes ns e').1 = (expandEach Livedoc.expandNodes ns e).1 ∧
        R (expandEach Livedoc.expandNodes ns e).2 (expandEach Livedoc.expandNodes ns e').2 := by
  induction ns with
  | nil => exact fun e e' h => ⟨rfl, h⟩
  | cons n rest ih =>
      intro e e' h
      obtain ⟨hresult, hafter⟩ := hR.expandNodes [n] e e' h
      rcases hrun : Livedoc.expandNodes [n] e with ⟨result, after⟩
      rcases hrun' : Livedoc.expandNodes [n] e' with ⟨result', after'⟩
      rw [hrun, hrun'] at hresult hafter
      obtain rfl : result' = result := hresult
      cases result' with
      | ok nodes =>
          obtain ⟨hothers, hlast⟩ := ih after after' hafter
          simp only [Livedoc.expandEach, hrun, hrun']
          exact ⟨congrArg (nodes ++ ·) hothers, hlast⟩
      | error f =>
          simp only [Livedoc.expandEach, hrun, hrun']
          by_cases hfatal : f.cause.isFatal
          · rw [if_pos hfatal, if_pos hfatal]
            exact ⟨rfl, hgiveUp f.message hafter⟩
          · rw [if_neg hfatal, if_neg hfatal]
            have hfailed : R (after.mapStore (·.fail f.toError))
                (after'.mapStore (·.fail f.toError)) :=
              (hR.primitive (.failAll [f.toError]) after after' hafter).2
            exact ih _ _ hfailed

end Indistinct

end Livedoc.Expansion
