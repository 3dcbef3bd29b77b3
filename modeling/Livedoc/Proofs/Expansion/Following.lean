import Livedoc.Proofs.Expansion.Demand

/-!
# Runs that are followed elsewhere

Expansion may succeed in one environment and break off in another one that differs from it only
in what is allowed there, or in how deep it is already. Two environments are then related as long
as a run that succeeds in the first is followed, step by step, in the second: it succeeds there
too, gives the same, and leaves related environments. Where the first run breaks off nothing is
said. A relation that single steps, blocks and isolated work keep in this sense is a `Simulation`,
and what is composed of them keeps it as well (`Simulation.expandNodes`).

The second environment may have more levels of calls left. Expansion is by recursion on the
levels, so it has to be known first that more levels than are left change nothing
(`expander_of_levels_le`).
-/

namespace Livedoc.Expansion

open Livedoc.Environment Livedoc.Source Livedoc.Tree Livedoc.Tree.Node

/-! ## More levels than are left -/

/-- Calls that mean, up to a number of levels, what expansion takes them to mean make nodes expand
as they should, up to that number. -/
theorem expander_of_calls {onCall : CallMeaning} {levels : Nat}
    (hcall : ∀ c e, e.setting.levels ≤ levels → onCall c e = expandCall expandNodes c e) :
    ∀ ns e, e.setting.levels ≤ levels → expander onCall ns e = expandNodes ns e := by
  intro ns
  induction ns using fragment_induction with
  | h ns ih =>
      intro e hle
      have hkeeps : (Use.ofNodes ns).Keeps (·.levels ≤ levels) := fun hblock => False.elim hblock
      obtain ⟨ds, hds, hagree⟩ := (Composed.level ns).exists_demands (P := (·.levels ≤ levels))
        (Meaning.of_restores expandNodes_restores _) hkeeps e hle
      rw [expander_eq, ← unfold_expandNodes]
      refine hagree ⟨expander onCall, onCall⟩ fun d hd => ?_
      have hwithin := hds d hd
      cases d with
      | nodes t =>
          obtain ⟨⟨n, hn, hcs⟩, ht⟩ := hwithin
          exact ih n hn t.nodes hcs t.environment ht
      | call c e' => exact hcall c e' hwithin.2

/-- More levels than are left make no difference to a call: it takes one of them, and within it
the same holds of one level less. -/
theorem callMeaning_of_levels_le (levels : Nat) : ∀ (c : Invocation) (e : Environment),
    e.setting.levels ≤ levels → callMeaning levels c e = expandCall expandNodes c e := by
  induction levels with
  | zero =>
      intro c e hle
      rw [expandCall_expandNodes, Nat.le_zero.mp hle]
  | succ levels ih =>
      intro c e hle
      obtain ⟨ts, hts, hagree⟩ := exists_tasks_of_call expandNodes_restores c e
      refine hagree (expander (callMeaning levels)) fun t ht => ?_
      obtain ⟨inner, hcall, hinside⟩ := hts t ht
      have hleft : e.setting.levels = inner.levels + 1 := Setting.levels_of_call hcall
      have htask : t.environment.setting.levels ≤ levels := by
        rw [hinside.levels]
        omega
      exact expander_of_calls ih t.nodes t.environment htask

/-- **More levels than are left make no difference.** -/
theorem expander_of_levels_le {e : Environment} {levels : Nat} (h : e.setting.levels ≤ levels)
    (ns : List Node) : expander (callMeaning levels) ns e = expandNodes ns e :=
  expander_of_calls (callMeaning_of_levels_le levels) ns e h

/-! ## Following a run -/

variable {α β : Type} {R : Environment → Environment → Prop}

/-- What the step gives in the first of two related environments it gives in the second, and it
leaves related environments. -/
def Follows (R : Environment → Environment → Prop) (m : Expansion α) : Prop :=
  ∀ e e' after a, R e e' → m e = (.ok a, after) → ∃ after', m e' = (.ok a, after') ∧ R after after'

namespace Follows

theorem pure (a : α) : Follows R (pure a) := by
  intro e e' after b h hrun
  cases hrun
  exact ⟨e', rfl, h⟩

theorem bind {m : Expansion α} {k : α → Expansion β} (hm : Follows R m)
    (hk : ∀ a, Follows R (k a)) : Follows R (m >>= k) := by
  intro e e' after b h hrun
  obtain ⟨a, between, hfirst, hsecond⟩ := bind_eq_ok hrun
  obtain ⟨between', hfirst', hbetween⟩ := hm e e' between a h hfirst
  rw [bind_ok hfirst']
  exact hk a between between' after b hbetween hsecond

theorem iterationCount (hlimit : Follows R (inspect (·.setting.limits.iterations)))
    (hwarn : ∀ message kind span, Follows R (warn message kind span)) (text : String)
    (span : Span) : Follows R (iterationCount text span) :=
  iterationCount_of (P := fun _ => Follows R) pure bind hlimit hwarn text span

/-- A step within a block is followed if the block can be entered in the second environment as
well, and related environments are left as such. -/
theorem inBlock {o : Opening} {m : Expansion α}
    (hblock : ∀ {e e' inner block}, R e e' → e.enter o = .ok (inner, block) →
      ∃ inner' block', e'.enter o = .ok (inner', block') ∧ R inner inner' ∧
        ∀ {after after'}, R after after' → R (after.leave block) (after'.leave block'))
    (hm : Follows R m) : Follows R (inBlock o m) := by
  intro e e' after a h hrun
  obtain ⟨inner, block, last, henter, hinner, rfl⟩ := inBlock_eq_ok hrun
  obtain ⟨inner', block', henter', hwithin, hleave⟩ := hblock h henter
  obtain ⟨last', hinner', hlast⟩ := hm inner inner' last a hwithin hinner
  rw [inBlock_ok henter', hinner']
  exact ⟨_, rfl, hleave hlast⟩

/-- Isolated work is followed if copies of related environments are related, and remain so where
they are taken over. -/
theorem inIsolation {m : Expansion α} (hclone : ∀ {e e'}, R e e' → R e.clone e'.clone)
    (hadopt : ∀ {e e' copy copy'}, R e e' → R copy copy' →
      R (e.mapStore (·.adopt copy.store)) (e'.mapStore (·.adopt copy'.store)))
    (hm : Follows R m) : Follows R (inIsolation m) := by
  intro e e' after a h hrun
  obtain ⟨copy, hcopy, rfl⟩ := inIsolation_eq_ok hrun
  obtain ⟨copy', hcopy', hcopies⟩ := hm _ _ copy a (hclone h) hcopy
  exact ⟨_, inIsolation_ok hcopy', hadopt h hcopies⟩

end Follows

/-- A relation under which runs are followed: the second environment leaves as many levels of
calls as the first, or more, and follows all of which steps are composed. -/
structure Simulation (R : Environment → Environment → Prop) : Prop where
  levels : ∀ {e e'}, R e e' → e.setting.levels ≤ e'.setting.levels
  primitive : ∀ {α : Type} {m : Expansion α}, Primitive m → Follows R m
  inBlock : ∀ {α : Type} (o : Opening) {m : Expansion α}, Follows R m → Follows R (inBlock o m)
  inIsolation : ∀ {α : Type} {m : Expansion α}, Follows R m → Follows R (inIsolation m)

namespace Simulation

/-- Whatever is put together is followed. -/
theorem closed (hR : Simulation R) : Closed fun _ => Follows R where
  pure := Follows.pure
  primitive := hR.primitive
  bind := Follows.bind
  inBlock := hR.inBlock
  inIsolation := hR.inIsolation

/-- **Expansion is followed.** Both runs are taken with the levels that the second one has. -/
theorem expandNodes (hR : Simulation R) (ns : List Node) : Follows R (expandNodes ns) := by
  intro e e' after nodes h hrun
  rw [← expander_of_levels_le (hR.levels h)] at hrun
  exact hR.closed.expander (hR.closed.callMeaning e'.setting.levels) ns e e' after nodes h hrun

end Simulation

end Livedoc.Expansion
