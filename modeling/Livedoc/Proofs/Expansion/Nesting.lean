import Livedoc.Proofs.Expansion.Following
import Livedoc.Proofs.Expansion.NamedArguments

/-!
# Being within a call

Nodes may be expanded within a call that has nothing to do with them, as the body of a built-in
function is. Two things are different there from what they are outside. Named arguments are
those of the call, which nodes do not look at (`expandNodes_agrees`). And one more call is open.
Open calls are counted where a call is entered, and listed where that fails; fewer of them allow
more, and show in nothing else (`nested_simulation`).

So what nodes come to within a call, if they do not break off there, they come to without it
(`expandNodes_of_inCall`).
-/

namespace Livedoc

open Livedoc.Environment Livedoc.Expansion Livedoc.Problem Livedoc.Source Livedoc.Tree

/-- The environment with other calls open. -/
def Environment.withCalls (e : Environment) (calls : List String) : Environment :=
  { e with setting := { e.setting with calls } }

namespace Expansion

variable {α : Type} {e e' : Environment}

/-- The second environment is the first one with as many calls open, or fewer. -/
def Nested (e e' : Environment) : Prop :=
  ∃ calls, calls.length ≤ e.setting.calls.length ∧ e' = e.withCalls calls

/-- The levels that other calls have taken are left. -/
theorem Nested.levels (h : Nested e e') : e.setting.levels ≤ e'.setting.levels := by
  obtain ⟨calls, hle, rfl⟩ := h
  simp only [Setting.levels, withCalls]
  omega

theorem inspect_nested {f : Environment → α} (hf : ∀ e calls, f (withCalls e calls) = f e) :
    Follows Nested (inspect f) := by
  rintro e _ after a ⟨calls, hle, rfl⟩ hrun
  cases hrun
  exact ⟨_, Prod.ext (congrArg Except.ok (hf e calls)) rfl, calls, hle, rfl⟩

theorem update_nested (f : Store → Store) : Follows Nested (update f) := by
  rintro e _ after a ⟨calls, hle, rfl⟩ hrun
  cases hrun
  exact ⟨_, rfl, calls, hle, rfl⟩

theorem findFile_nested (path : String) (span : Span) : Follows Nested (findFile path span) := by
  rintro e _ after a ⟨calls, hle, rfl⟩ hrun
  have hsearch : (e.withCalls calls).setting.searchInclude path = e.setting.searchInclude path := rfl
  simp only [findFile] at hrun ⊢
  rw [hsearch]
  split at hrun
  · cases hrun
    exact ⟨_, rfl, calls, hle, rfl⟩
  · cases hrun
    exact ⟨_, rfl, calls, hle, rfl⟩
  · cases hrun

theorem primitive_nested {m : Expansion α} (h : Primitive m) : Follows Nested m := by
  cases h with
  | lookup | holds | callee | named => exact inspect_nested fun _ _ => rfl
  | count text span =>
      exact .iterationCount (inspect_nested fun _ _ => rfl) (fun _ _ _ => update_nested _) text span
  | findFile path span => exact findFile_nested path span
  | warn | assign | record | define | failAll => exact update_nested _

/-- A block that can be entered can be entered with fewer calls open. -/
theorem enter_nested {inner : Environment} {o : Opening} {block : OpenBlock} (h : Nested e e')
    (henter : e.enter o = .ok (inner, block)) :
    ∃ inner', e'.enter o = .ok (inner', block) ∧ Nested inner inner' := by
  obtain ⟨calls, hle, rfl⟩ := h
  obtain ⟨locals, rfl, rfl, rfl⟩ | ⟨name, named, span, rfl, hlt, rfl, rfl⟩ |
    ⟨path, display, span, rfl, hlt, hnot, rfl, rfl⟩ | ⟨path, text, rfl, rfl, rfl⟩ :=
      enter_cases henter
  · exact ⟨_, rfl, calls, hle, rfl⟩
  · have hfewer : ((e.withCalls calls).setting.calls.length : Int) <
        (e.withCalls calls).setting.limits.callDepth := by
      simp only [withCalls]
      omega
    refine ⟨{ e with setting := (e.withCalls calls).setting.enterCall name named }, ?_, ?_⟩
    · exact enter_call_of_lt hfewer name named span
    · refine ⟨calls ++ [name], ?_, rfl⟩
      simpa [Setting.enterCall] using hle
  · have hfile : (e.withCalls calls).setting.including path display span =
        .ok { (e.withCalls calls).setting with includes := e.setting.includes ++ [path] } :=
      including_eq_ok_iff.mpr ⟨hlt, hnot, rfl⟩
    refine ⟨_, ?_, calls, hle, rfl⟩
    simp only [enter, hfile]
    rfl
  · exact ⟨_, rfl, calls, hle, rfl⟩

/-- Leaving a block takes the innermost call from both. -/
theorem Nested.leave (h : Nested e e') (block : OpenBlock) :
    Nested (e.leave block) (e'.leave block) := by
  obtain ⟨calls, hle, rfl⟩ := h
  cases block with
  | call named =>
      refine ⟨calls.dropLast, ?_, rfl⟩
      simp only [Environment.leave, List.length_dropLast]
      omega
  | frame | file | source => exact ⟨calls, hle, rfl⟩

/-- **What is done with more calls open is followed with fewer.** -/
theorem nested_simulation : Simulation Nested where
  levels := Nested.levels
  primitive := primitive_nested
  inBlock _ _ hm := by
    refine hm.inBlock fun h henter => ?_
    obtain ⟨inner', henter', hinner⟩ := enter_nested h henter
    exact ⟨inner', _, henter', hinner, fun hafter => hafter.leave _⟩
  inIsolation hm := by
    refine hm.inIsolation ?_ ?_
    · rintro e _ ⟨calls, hle, rfl⟩
      exact ⟨calls, hle, rfl⟩
    · rintro e _ copy _ ⟨calls, hle, rfl⟩ ⟨-, -, rfl⟩
      exact ⟨calls, hle, rfl⟩

/-- Nodes that do not break off come to the same with fewer calls open, and with other named
arguments. -/
theorem expandNodes_outside {ns nodes : List Node} {after : Environment} (calls : List String)
    (named : Dictionary String) (hle : calls.length ≤ e.setting.calls.length)
    (hrun : expandNodes ns e = (.ok nodes, after)) :
    expandNodes ns ((e.withCalls calls).withNamed named) =
      (.ok nodes, (after.withCalls calls).withNamed named) := by
  obtain ⟨_, hrun', calls', -, rfl⟩ :=
    nested_simulation.expandNodes ns e _ after nodes ⟨calls, hle, rfl⟩ hrun
  -- the calls that are open afterwards are those that were open before
  have hcalls : calls' = calls :=
    congrArg Setting.calls ((expandNodes_restores ns).restored hrun').setting
  rw [(expandNodes_agrees ns).run_withNamed, hrun', hcalls]

/-- **What nodes come to within a call they come to without it**, if they do not break off. -/
theorem expandNodes_of_inCall {name : String} {named : Dictionary String} {span : Span}
    {ns nodes : List Node} {after : Environment}
    (h : inBlock (.call name named span) (expandNodes ns) e = (.ok nodes, after)) :
    expandNodes ns e = (.ok nodes, after) := by
  obtain ⟨inner, block, last, henter, hinner, rfl⟩ := inBlock_eq_ok h
  obtain ⟨setting, hcall, rfl, rfl⟩ := enter_call_eq_ok henter
  obtain ⟨-, rfl⟩ := call_eq_ok_iff.mp hcall
  have houtside := expandNodes_outside e.setting.calls e.setting.named
    (by simp [Setting.enterCall]) hinner
  -- leaving the call takes it from the open ones and brings the named arguments back
  have hleave : (last.withCalls e.setting.calls).withNamed e.setting.named =
      last.leave (.call e.setting.named) := by
    have hsetting := ((expandNodes_restores ns).restored hinner).setting
    simp [withCalls, withNamed, Environment.leave, hsetting, Setting.enterCall]
  rw [← hleave]
  exact houtside

end Expansion

end Livedoc
