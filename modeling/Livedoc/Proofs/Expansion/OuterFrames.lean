import Livedoc.Proofs.Expansion.Agreement
import Livedoc.Proofs.Expansion.InPlace

/-!
# Frames below the innermost one

A variable is looked up in the innermost frame and in the globals, and set in the innermost
frame. The frames below it belong to the callers. A call puts a frame on top of them and takes
it away again, so it leaves them as they are, and only a copy for isolated work makes use of
what they hold.

Environments are `Covered` by one innermost frame if they differ in the frames below it alone,
in what these hold and in how many there are. Steps in place do not tell them apart
(`covered_closed`): a frame that is opened covers those that were there, and when it is closed,
the one that was innermost before covers the others again. So nodes that are not expanded in
isolation at any place expand to the same (`expandNodes_withFrames`).
-/

namespace Livedoc

open Livedoc.Environment Livedoc.Expansion Livedoc.Problem Livedoc.Source Livedoc.Tree
open Livedoc.Tree.Node

namespace Environment

/-- The environment with other open frames. -/
def withFrames (e : Environment) (frames : List Frame) : Environment :=
  { e with store := { e.store with frames } }

variable {e : Environment} {top : Frame} {outer : List Frame}

theorem lookup_withFrames (h : e.store.frames = top :: outer) (outer' : List Frame)
    (name : String) :
    (e.withFrames (top :: outer')).store.lookup name = e.store.lookup name := by
  simp only [Store.lookup, withFrames, h, List.head?_cons]

/-- Frames have no say in whether a block can be entered. -/
theorem enter_withFrames (o : Opening) (ho : ∀ locals, o ≠ .frame locals) (frames : List Frame) :
    (e.withFrames frames).enter o =
      (e.enter o).map fun entered => (entered.1.withFrames frames, entered.2) := by
  have hsetting : (e.withFrames frames).setting = e.setting := rfl
  cases o with
  | frame locals => exact absurd rfl (ho locals)
  | call name named span =>
      simp only [enter, hsetting]
      cases e.setting.call name named span <;> rfl
  | file path display span =>
      simp only [enter, hsetting]
      cases e.setting.including path display span <;> rfl
  | source path text => rfl

/-- Blocks other than frames keep the frames. -/
theorem frames_enter {inner : Environment} {o : Opening} {block : OpenBlock}
    (ho : ∀ locals, o ≠ .frame locals) (h : e.enter o = .ok (inner, block)) :
    inner.store = e.store ∧ block ≠ .frame := by
  obtain ⟨locals, rfl, -, -⟩ | ⟨name, named, span, -, -, rfl, rfl⟩ |
    ⟨path, display, span, -, -, -, rfl, rfl⟩ | ⟨path, text, -, rfl, rfl⟩ := enter_cases h
  · exact absurd rfl (ho locals)
  all_goals exact ⟨rfl, nofun⟩

end Environment

namespace Expansion

variable {α : Type} {outer outer' : List Frame} {e e' : Environment}

/-- The innermost frame is the same in both environments. Below it, the first one has these
frames and the second one those, and there is no other difference. -/
def Covered (outer outer' : List Frame) (e e' : Environment) : Prop :=
  ∃ top, e.store.frames = top :: outer ∧ e' = e.withFrames (top :: outer')

namespace Covered

theorem setting (h : Covered outer outer' e e') : e'.setting = e.setting := by
  obtain ⟨top, -, rfl⟩ := h
  rfl

/-- A change of the store that has nothing to do with frames. -/
theorem mapStore {f : Store → Store} (hkeeps : ∀ s, (f s).frames = s.frames)
    (hcommutes : ∀ s frames, f { s with frames } = { f s with frames })
    (h : Covered outer outer' e e') : Covered outer outer' (e.mapStore f) (e'.mapStore f) := by
  obtain ⟨top, hframes, rfl⟩ := h
  refine ⟨top, (hkeeps e.store).trans hframes, ?_⟩
  exact congrArg (Environment.mk e.setting) (hcommutes e.store (top :: outer'))

/-- Blocks other than frames are left alike. -/
theorem leave {block : OpenBlock} (hblock : block ≠ .frame) (h : Covered outer outer' e e') :
    Covered outer outer' (e.leave block) (e'.leave block) := by
  obtain ⟨top, hframes, rfl⟩ := h
  cases block with
  | frame => exact absurd rfl hblock
  | call | file | source => exact ⟨top, hframes, rfl⟩

/-- A new frame covers the one that was innermost as well. -/
theorem push (h : Covered outer outer' e e') (locals : Frame) :
    ∃ top, Covered (top :: outer) (top :: outer') (e.mapStore (·.push locals))
      (e'.mapStore (·.push locals)) := by
  obtain ⟨top, hframes, rfl⟩ := h
  exact ⟨top, locals, congrArg (locals :: ·) hframes, rfl⟩

/-- Without it that one is innermost again. -/
theorem pop {top : Frame} (h : Covered (top :: outer) (top :: outer') e e') :
    Covered outer outer' (e.mapStore (·.pop)) (e'.mapStore (·.pop)) := by
  obtain ⟨locals, hframes, rfl⟩ := h
  exact ⟨top, congrArg List.tail hframes, rfl⟩

end Covered

/-! ## Steps -/

theorem inspect_covered {f : Environment → α}
    (hf : ∀ e top, e.store.frames = top :: outer → f (e.withFrames (top :: outer')) = f e) :
    Agrees (Covered outer outer') (inspect f) := by
  rintro e e' ⟨top, hframes, rfl⟩
  exact ⟨congrArg Except.ok (hf e top hframes), top, hframes, rfl⟩

theorem update_covered {f : Store → Store} (hkeeps : ∀ s, (f s).frames = s.frames)
    (hcommutes : ∀ s frames, f { s with frames } = { f s with frames }) :
    Agrees (Covered outer outer') (update f) :=
  fun _ _ h => ⟨rfl, h.mapStore hkeeps hcommutes⟩

theorem holds_covered (condition : String) :
    Agrees (Covered outer outer') (inspect (·.store.holds condition)) := by
  refine inspect_covered fun e top hframes => ?_
  simp only [Store.holds, lookup_withFrames hframes]

/-- A variable is set in the frame that both have. -/
theorem assign_covered (name : String) (value : Value) :
    Agrees (Covered outer outer') (update (·.assign name value)) := by
  rintro e e' ⟨top, hframes, rfl⟩
  refine ⟨rfl, top.set name value, ?_, ?_⟩
  · simp only [update, mapStore, Store.assign, hframes]
  · simp only [update, mapStore, Store.assign, withFrames, hframes]

theorem findFile_covered (path : String) (span : Span) :
    Agrees (Covered outer outer') (findFile path span) := by
  intro e e' h
  let unknown := e.setting.files.unknown (e.setting.candidates path)
  have hasked := h.mapStore (f := (·.askFor unknown)) (fun _ => rfl) fun _ _ => rfl
  simp only [findFile, h.setting]
  split <;> exact ⟨rfl, hasked⟩

theorem primitive_covered {m : Expansion α} (h : Primitive m) :
    Agrees (Covered outer outer') m := by
  cases h with
  | lookup name => exact inspect_covered fun e top hframes => lookup_withFrames hframes outer' name
  | holds condition => exact holds_covered condition
  | callee | named => exact inspect_covered fun _ _ _ => rfl
  | count text span =>
      exact .iterationCount (inspect_covered fun _ _ _ => rfl)
        (fun _ _ _ => update_covered (fun _ => rfl) fun _ _ => rfl) text span
  | findFile path span => exact findFile_covered path span
  | assign name value => exact assign_covered name value
  | warn | record | define | failAll => exact update_covered (fun _ => rfl) fun _ _ => rfl

theorem inFrame_covered (locals : Frame) {m : Expansion α}
    (hm : ∀ outer outer', Agrees (Covered outer outer') m) :
    Agrees (Covered outer outer') (inBlock (.frame locals) m) := by
  intro e e' h
  obtain ⟨top, hinner⟩ := h.push locals
  obtain ⟨hresult, hafter⟩ := hm (top :: outer) (top :: outer') _ _ hinner
  exact ⟨hresult, hafter.pop⟩

theorem inBlock_covered (o : Opening) {m : Expansion α}
    (hm : ∀ outer outer', Agrees (Covered outer outer') m) :
    Agrees (Covered outer outer') (inBlock o m) := by
  by_cases ho : ∃ locals, o = .frame locals
  · obtain ⟨locals, rfl⟩ := ho
    exact inFrame_covered locals hm
  · have hother : ∀ locals, o ≠ .frame locals := fun locals hframe => ho ⟨locals, hframe⟩
    rintro e e' ⟨top, hframes, rfl⟩
    have henter' := enter_withFrames (e := e) o hother (top :: outer')
    cases henter : e.enter o with
    | error f =>
        rw [henter] at henter'
        rw [inBlock_error henter, inBlock_error henter']
        exact ⟨rfl, top, hframes, rfl⟩
    | ok entered =>
        obtain ⟨inner, block⟩ := entered
        obtain ⟨hstore, hblock⟩ := frames_enter hother henter
        rw [henter] at henter'
        rw [inBlock_ok henter, inBlock_ok henter']
        have hinner : inner.store.frames = top :: outer := hstore ▸ hframes
        obtain ⟨hresult, hafter⟩ := hm outer outer' inner _ ⟨top, hinner, rfl⟩
        exact ⟨hresult, hafter.leave hblock⟩

/-- **Steps in place do not see what is below the innermost frame.** -/
theorem covered_closed :
    ClosedInPlace fun _ m => ∀ outer outer', Agrees (Covered outer outer') m where
  pure a _ _ := .pure a
  primitive h _ _ := primitive_covered h
  bind hm hk outer outer' := .bind (hm outer outer') fun a => hk a outer outer'
  inBlock o _ hm _ _ := inBlock_covered o hm

/-! ## Nodes -/

theorem expandInPlace_covered (f : Failure) (ns : List Node) :
    Agrees (Covered outer outer') (expandInPlace f ns) := by
  intro e e' h
  have hfailure : ∀ _ : Expansion (List Node), ∀ outer outer',
      Agrees (Covered outer outer') (throw f : Expansion (List Node)) := fun _ _ _ _ _ h => ⟨rfl, h⟩
  have hagrees := covered_closed.expanderBy hfailure e.setting.levels ns outer outer' e e' h
  have hlevels : expandInPlace f ns e' =
      expander (callMeaningBy (fun _ => throw f) e.setting.levels) ns e' := by
    rw [← h.setting]
    rfl
  rw [hlevels]
  exact hagrees

/-- **The variables of callers do not show.** Let nodes be expanded in an environment with an
innermost frame, and nothing be expanded in isolation on the way. With any other frames below
that one, they expand to the same, or break off with the same failure. The environment that is
left is the same, with the same innermost frame, apart from the frames below it; these are the
ones that were there. Nor is anything expanded in isolation there. -/
theorem expandNodes_withFrames {ns : List Node} {top : Frame}
    (hframes : e.store.frames = top :: outer) (hplace : NeverIsolates ns e)
    (outer' : List Frame) :
    ∃ top', (expandNodes ns e).2.store.frames = top' :: outer ∧
      expandNodes ns (e.withFrames (top :: outer')) =
        ((expandNodes ns e).1, (expandNodes ns e).2.withFrames (top' :: outer')) ∧
      NeverIsolates ns (e.withFrames (top :: outer')) := by
  obtain ⟨f, hf⟩ := neverIsolates_iff.mp hplace
  have hsame : expandInPlace f ns e = expandNodes ns e := hplace _
  have hcovered : Covered outer outer' e (e.withFrames (top :: outer')) := ⟨top, hframes, rfl⟩
  obtain ⟨hresult, top', htop, hafter⟩ := expandInPlace_covered f ns e _ hcovered
  -- a failure that expansion does not end with here, it does not end with there
  have hplace' : NeverIsolates ns (e.withFrames (top :: outer')) :=
    neverIsolates_iff.mpr ⟨f, hresult ▸ hf⟩
  have hsame' : expandInPlace f ns (e.withFrames (top :: outer')) =
      expandNodes ns (e.withFrames (top :: outer')) := hplace' _
  rw [hsame, hsame'] at hresult hafter
  rw [hsame] at htop
  exact ⟨top', htop, Prod.ext hresult hafter, hplace'⟩

/-- An included file sees the variables of the call that includes it, whatever the callers of
that one have. -/
theorem expandNodes_withFrames_shared :
    let near : Frame := [("x", .text "near")]
    let far : Frame := [("x", .text "far"), ("y", .text "far")]
    let e := (folderWith ".x .y").withFrames [near, far]
    let ns := [(includeCall "false").toNode]
    let after := expandNodes ns e
    let after' := expandNodes ns (e.withFrames [near])
    NeverIsolates ns e ∧
      after.2.store.report.warnings.map (·.message) = ["Undefined variable: y"] ∧
      after'.1 = after.1 ∧ after'.2.store.report = after.2.store.report := by
  intro near far e ns after after'
  have hplace : NeverIsolates ns e := by
    let f : Failure := ⟨.unreadable "", .unknown, "", []⟩
    have hdone : (expandInPlace f ns e).1.toOption.isSome = true := by decide +kernel
    refine neverIsolates_iff.mpr ⟨f, fun herror => ?_⟩
    rw [herror] at hdone
    cases hdone
  obtain ⟨top, -, hrun, -⟩ := expandNodes_withFrames (e := e) rfl hplace []
  have hafter : after' = (after.1, after.2.withFrames [top]) := hrun
  rw [hafter]
  exact ⟨hplace, by decide +kernel, rfl, rfl⟩

end Expansion

end Livedoc
