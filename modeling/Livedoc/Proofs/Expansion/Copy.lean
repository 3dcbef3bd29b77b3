import Livedoc.Proofs.Dictionary
import Livedoc.Proofs.Expansion.Isolation
import Livedoc.Proofs.Expansion.Session

/-!
# What a copy sees

A variable is looked up in the innermost frame and in the globals. A copy for isolated work has
no frames: the variables of all frames have become global, those of inner frames going before
those of outer ones. So it sees what its original does not, the variables of the frames between
the innermost one and the globals (`Store.hidden?`). A name comes to the same in both exactly if
the innermost frame has it, or if the frames between do not have it, or if they have it with the
value that it has among the globals (`lookup_clone_eq_iff`).

All of this takes that a frame lists no name twice (`Store.Distinct`). Frames start that way, and
whatever is done in a session keeps them so (`History.run_distinct`): expansion only ever sets
names (`keepsDistinct_closed`).
-/

namespace Livedoc

open Livedoc.Environment Livedoc.Expansion Livedoc.Problem Livedoc.Source Livedoc.Tree

/-! ## Looking up in a copy -/

namespace Store

/-- No name is listed twice in the globals or in a frame. -/
structure Distinct (s : Store) : Prop where
  globals : s.globals.Distinct
  frames : ∀ frame ∈ s.frames, frame.Distinct

/-- The value of a variable of the innermost frame. -/
def own? (s : Store) (name : String) : Option Value :=
  (s.frames.head?).bind fun frame => frame.get? name

/-- The value of a variable in the frames below the innermost one: what it is in the first of
them that has it. -/
def hidden? (s : Store) (name : String) : Option Value :=
  s.frames.tail.findSome? fun frame => frame.get? name

variable {s : Store}

theorem lookup_eq (s : Store) (name : String) :
    s.lookup name = (s.own? name).or (s.globals.get? name) := rfl

/-- Frames that are laid over the globals one by one go before them, the first one first. -/
theorem get?_overlaid {frames : List Frame} (h : ∀ frame ∈ frames, frame.Distinct)
    (globals : Frame) (name : String) :
    (frames.foldr (fun frame all => all.setAll frame) globals : Frame).get? name =
      (frames.findSome? fun frame => frame.get? name).or (globals.get? name) := by
  induction frames with
  | nil => rfl
  | cons frame outer ih =>
      have hframe : frame.Distinct := h frame (by simp)
      rw [List.foldr_cons, Dictionary.get?_setAll hframe, List.findSome?_cons,
        ih fun f hf => h f (by simp [hf])]
      cases frame.get? name <;> rfl

/-- A copy finds a name in the innermost frame, then in those below it, then in the globals. -/
theorem lookup_clone (h : s.Distinct) (name : String) :
    s.clone.lookup name = (s.own? name).or ((s.hidden? name).or (s.globals.get? name)) := by
  have hcopy : s.clone.lookup name =
      (s.frames.findSome? fun frame => frame.get? name).or (s.globals.get? name) :=
    get?_overlaid h.frames s.globals name
  rw [hcopy, own?, hidden?]
  cases s.frames with
  | nil => rfl
  | cons frame outer =>
      rw [List.findSome?_cons, List.head?_cons, List.tail_cons, Option.bind_some]
      cases frame.get? name <;> rfl

/-- **A copy sees a name as its original does** exactly if the innermost frame has it, or if it is
not hidden, or if what is hidden is what the globals have. -/
theorem lookup_clone_eq_iff (h : s.Distinct) (name : String) :
    s.clone.lookup name = s.lookup name ↔
      (s.own? name).isSome ∨ s.hidden? name = none ∨ s.hidden? name = s.globals.get? name := by
  rw [lookup_clone h, lookup_eq]
  cases s.own? name with
  | some value => simp
  | none => cases s.hidden? name <;> simp

theorem Distinct.clone (h : s.Distinct) : s.clone.Distinct where
  globals := by
    show Dictionary.Distinct (s.frames.foldr (fun frame all => all.setAll frame) s.globals : Frame)
    induction s.frames with
    | nil => exact h.globals
    | cons frame outer ih => exact ih.setAll frame
  frames := nofun

end Store

/-! ## Work keeps names distinct -/

namespace Store

/-- The frame that variables are set in, or the globals if no frame is open. -/
def current (s : Store) : Frame := s.frames.headD s.globals

theorem current_assign (s : Store) (name : String) (value : Value) :
    (s.assign name value).current = s.current.set name value := by
  cases h : s.frames <;> simp [current, assign, h]

theorem Distinct.current {s : Store} (h : s.Distinct) : s.current.Distinct := by
  rw [Store.current]
  cases hframes : s.frames with
  | nil => exact h.globals
  | cons frame outer => exact h.frames frame (by simp [hframes])

end Store

/-- Apart from where variables are set, names are distinct as they were before. -/
theorem Environment.Restored.distinct {e e' : Environment} (h : Restored e e')
    (hcurrent : e'.store.current.Distinct) (hd : e.store.Distinct) : e'.store.Distinct := by
  cases hframes : e.store.frames with
  | nil =>
      have hframes' : e'.store.frames = [] := h.frames_eq_nil_iff.mpr hframes
      rw [Store.current, hframes'] at hcurrent
      exact ⟨hcurrent, by simp [hframes']⟩
  | cons frame outer =>
      have hglobals : e'.store.globals = e.store.globals := h.globals (by simp [hframes])
      have houter : e'.store.frames.tail = outer := by rw [h.outer, hframes, List.tail_cons]
      refine ⟨hglobals ▸ hd.globals, fun f hf => ?_⟩
      cases hframes' : e'.store.frames with
      | nil => simp [hframes'] at hf
      | cons frame' outer' =>
          rw [Store.current, hframes'] at hcurrent
          rw [hframes', List.tail_cons] at houter
          rw [hframes', houter] at hf
          rcases List.mem_cons.mp hf with rfl | hf
          · exact hcurrent
          · exact hd.frames f (by simp [hframes, hf])

namespace Expansion

variable {α β : Type}

/-- Whether it fails or not, the step keeps names distinct where variables are set. -/
def KeepsDistinct (m : Expansion α) : Prop :=
  ∀ e, e.store.current.Distinct → (m e).2.store.current.Distinct

namespace KeepsDistinct

theorem pure (a : α) : KeepsDistinct (pure a : Expansion α) := fun _ h => h

theorem inspect (f : Environment → α) : KeepsDistinct (inspect f) := fun _ h => h

/-- A change of the store that has nothing to do with variables. -/
theorem update {f : Store → Store} (hf : ∀ s, (f s).current = s.current) :
    KeepsDistinct (update f) := fun e h => (hf e.store).symm ▸ h

theorem bind {m : Expansion α} {k : α → Expansion β} (hm : KeepsDistinct m)
    (hk : ∀ a, KeepsDistinct (k a)) : KeepsDistinct (m >>= k) := by
  intro e h
  have hfirst := hm e h
  rcases hrun : m e with ⟨result, e'⟩
  rw [hrun] at hfirst
  cases result with
  | ok a =>
      rw [bind_ok hrun]
      exact hk a e' hfirst
  | error f =>
      rw [bind_error hrun]
      exact hfirst

/-- The frame of a block is gone when the block is left, and the others are as they were. -/
theorem inBlock (o : Opening) {m : Expansion α} (hrestores : Restores m) (hm : KeepsDistinct m) :
    KeepsDistinct (inBlock o m) := by
  intro e h
  cases henter : e.enter o with
  | error f =>
      rw [inBlock_error henter]
      exact h
  | ok entered =>
      obtain ⟨inner, block⟩ := entered
      rw [inBlock_ok henter]
      obtain ⟨locals, -, rfl, rfl⟩ | ⟨name, named, span, -, -, rfl, rfl⟩ |
        ⟨path, display, span, -, -, -, rfl, rfl⟩ | ⟨path, text, -, rfl, rfl⟩ := enter_cases henter
      · have hafter := hrestores (e.mapStore (·.push locals))
        have hglobals := hafter.globals (by simp [mapStore, Store.push])
        have hframes := hafter.outer
        show Dictionary.Distinct (((m _).2.store.frames.tail).headD (m _).2.store.globals)
        rw [hglobals, hframes]
        exact h
      all_goals exact hm _ h

theorem inIsolation (m : Expansion α) : KeepsDistinct (inIsolation m) := by
  intro e h
  rcases hrun : m e.clone with ⟨result, copy⟩
  simp only [Expansion.inIsolation, hrun]
  cases result <;> exact h

theorem iterationCount (text : String) (span : Span) :
    KeepsDistinct (iterationCount text span) :=
  iterationCount_of (P := @KeepsDistinct) pure bind (inspect _)
    (fun _ _ _ => update fun _ => rfl) text span

theorem primitive {m : Expansion α} (h : Primitive m) : KeepsDistinct m := by
  cases h with
  | lookup | holds | callee | named => exact inspect _
  | count text span => exact iterationCount text span
  | findFile path span =>
      intro e h
      simp only [findFile]
      split <;> exact h
  | assign name value =>
      intro e h
      exact (Store.current_assign e.store name value).symm ▸ h.set name value
  | warn | record | define | failAll => exact update fun _ => rfl

end KeepsDistinct

/-- **Expansion only ever sets names**, in frames that it opens and in the innermost one. -/
theorem keepsDistinct_closed : Closed fun _ m => Restores m ∧ KeepsDistinct m where
  pure a := ⟨.pure a, .pure a⟩
  primitive h := ⟨h.restores, .primitive h⟩
  bind hm hk := ⟨.bind hm.1 fun a => (hk a).1, .bind hm.2 fun a => (hk a).2⟩
  inBlock o _ hm := ⟨.inBlock o hm.1, .inBlock o hm.1 hm.2⟩
  inIsolation _ := ⟨.inIsolation _, .inIsolation _⟩

theorem expandNodes_keepsDistinct (ns : List Node) : KeepsDistinct (expandNodes ns) :=
  fun e => (keepsDistinct_closed.expander (keepsDistinct_closed.callMeaning _) ns).2 e

theorem resolveText_keepsDistinct (raw : String) : KeepsDistinct (resolveText expandNodes raw) := by
  unfold resolveText
  split
  · exact .bind (expandNodes_keepsDistinct _) fun ns => .pure _
  · exact .pure raw

theorem KeepsDistinct.run {m : Expansion α} (hm : KeepsDistinct m) (hrestores : Restores m)
    {e : Environment} (hd : e.store.Distinct) : (m e).2.store.Distinct :=
  (hrestores e).distinct (hm e hd.current) hd

/-- Recording a failure has nothing to do with variables. -/
theorem expandEach_distinct (ns : List Node) :
    ∀ e : Environment, e.store.Distinct → (expandEach expandNodes ns e).2.store.Distinct :=
  expandEach_keeps (I := (·.store.Distinct))
    (fun n _ hd => (expandNodes_keepsDistinct [n]).run (expandNodes_restores [n]) hd)
    (fun _ _ hd => ⟨hd.globals, hd.frames⟩) (fun _ _ hd => ⟨hd.globals, hd.frames⟩) ns

end Expansion

/-! ## Sessions -/

/-- A frame that a step opens lists no name twice. -/
def Step.Distinct : Step → Prop
  | .openFrame frame => frame.Distinct
  | _ => True

namespace Environment

variable {e : Environment}

theorem answer_distinct {α : Type} {step : Expansion α} (hrestores : Restores step)
    (hkeeps : KeepsDistinct step) (hd : e.store.Distinct) (f : α → StepAnswer) :
    (e.answer step f).2.store.Distinct := by
  have hstep := hkeeps.run hrestores hd
  rw [answer]
  rcases hrun : step e with ⟨result, e'⟩
  rw [hrun] at hstep
  cases result <;> exact hstep

theorem leave_distinct (hd : e.store.Distinct) (block : OpenBlock) :
    (e.leave block).store.Distinct := by
  cases block with
  | frame => exact ⟨hd.globals, fun f hf => hd.frames f (List.mem_of_mem_tail hf)⟩
  | call | file | source => exact hd

theorem opened_distinct (hd : e.store.Distinct) {o : Opening}
    (ho : ∀ locals, o = .frame locals → locals.Distinct) : (e.opened o).2.1.store.Distinct := by
  unfold opened
  cases henter : e.enter o with
  | error f => exact hd
  | ok entered =>
      obtain ⟨inner, block⟩ := entered
      obtain ⟨locals, rfl, rfl, -⟩ | ⟨name, named, span, -, -, rfl, -⟩ |
        ⟨path, display, span, -, -, -, rfl, -⟩ | ⟨path, text, -, rfl, -⟩ := enter_cases henter
      · exact ⟨hd.globals, List.forall_mem_cons.mpr ⟨ho locals rfl, hd.frames⟩⟩
      all_goals exact hd

/-- One step keeps names distinct in its environment. -/
theorem step_distinct (hd : e.store.Distinct) {st : Step} (hst : st.Distinct) :
    (e.step st).2.1.store.Distinct := by
  cases st with
  | assign name value =>
      refine (Restored.assign e name value).distinct ?_ hd
      show (e.store.assign name value).current.Distinct
      rw [Store.current_assign]
      exact hd.current.set name value
  | openFrame frame => exact opened_distinct hd fun locals h => Opening.frame.inj h ▸ hst
  | openCall name named span => exact opened_distinct hd nofun
  | openFile path display span => exact opened_distinct hd nofun
  | lookup | holds | close | clone | use => exact hd
  | warn w => exact ⟨hd.globals, hd.frames⟩
  | fail error => exact ⟨hd.globals, hd.frames⟩
  | find path =>
      simp only [step]
      split <;> exact hd
  | named name default =>
      simp only [step]
      split
      · exact answer_distinct (resolveText_restores _) (resolveText_keepsDistinct _) hd _
      · exact hd
  | resolve text default =>
      cases text with
      | some raw => exact answer_distinct (resolveText_restores raw) (resolveText_keepsDistinct raw) hd _
      | none => exact hd
  | count text span =>
      exact answer_distinct (iterationCount_restores text span) (.iterationCount text span) hd _
  | run source => exact answer_distinct (expandNodes_restores _) (expandNodes_keepsDistinct _) hd _
  | expand nodes =>
      exact answer_distinct (expandNodes_restores nodes) (expandNodes_keepsDistinct nodes) hd _
  | document d => exact expandEach_distinct d.children e hd

theorem create_distinct (source filename : String) (folder : Option Path)
    (includePaths : List Path) (files : Files) (limits : Limits) (bindings : Frame)
    (now : Moment) :
    (create source filename folder includePaths files limits bindings now).store.Distinct where
  globals := by
    have hconstants : Dictionary.Distinct now.constants := by
      show (now.constants.map fun entry => entry.1).Nodup
      simp [Moment.constants]
    exact hconstants.setAll bindings
  frames := nofun

end Environment

namespace Session

variable {s : Session}

theorem modify_distinct (h : ∀ e ∈ s.environments, e.store.Distinct) (index : Nat)
    {f : Environment → Environment} (hf : ∀ e ∈ s.environments, (f e).store.Distinct) :
    ∀ e ∈ (s.modify index f).environments, e.store.Distinct := by
  intro e' he'
  obtain ⟨i, hi⟩ := List.mem_iff_getElem?.mp he'
  rcases modify_cases hi with ⟨-, e, he, rfl⟩ | ⟨-, he⟩
  · exact hf e (List.mem_of_getElem? he)
  · exact h e' (List.mem_of_getElem? he)

theorem close_distinct (h : ∀ e ∈ s.environments, e.store.Distinct) :
    ∀ e ∈ s.close.environments, e.store.Distinct := by
  unfold Session.close
  cases s.blocks with
  | nil => exact h
  | cons b outer => exact modify_distinct h _ fun e he => leave_distinct (h e he) b.2

/-- **One step keeps names distinct** in all environments. -/
theorem step_distinct (h : ∀ e ∈ s.environments, e.store.Distinct) {st : Step}
    (hst : st.Distinct) : ∀ e ∈ (s.step st).2.environments, e.store.Distinct := by
  unfold step environment?
  cases he : s.environments[s.current]? with
  | none => exact h
  | some e =>
      have hcurrent : e.store.Distinct := h e (List.mem_of_getElem? he)
      have halone := modify_distinct h s.current
        fun _ _ => Environment.step_distinct hcurrent hst
      cases st with
      | close => exact close_distinct h
      | clone =>
          intro e' he'
          rcases List.mem_append.mp he' with he' | he'
          · exact h e' he'
          · rw [List.mem_singleton.mp he']
            exact hcurrent.clone
      | use index =>
          dsimp only
          split <;> exact h
      | _ => exact halone

end Session

/-- Every step of a run keeps names distinct. -/
theorem History.run_distinct {e : Environment} (he : e.store.Distinct) {steps : List Step}
    (h : ∀ st ∈ steps, st.Distinct) :
    ∀ e' ∈ (History.run e steps).session.environments, e'.store.Distinct := by
  induction steps using List.reverseRecOn with
  | nil =>
      intro e' he'
      rw [List.mem_singleton.mp he']
      exact he
  | append_singleton steps st ih =>
      rw [run, List.foldl_append]
      exact Session.step_distinct (ih fun st' hst' => h st' (by simp [hst'])) (h st (by simp))

/-- **What a copy sees.** Take any steps from a fresh environment on, such as opening and closing
frames and setting variables, where a frame that is opened lists no name twice. In every
environment a copy finds a name in the innermost frame, or else in the frames below it, or else
in the globals. It comes to the same in the copy as in its original exactly if the innermost
frame has it, or the frames below do not have it, or they have it with the value that it has
among the globals. -/
theorem session_lookup_clone (source filename : String) (folder : Option Path)
    (includePaths : List Path) (files : Files) (limits : Limits) (bindings : Frame)
    (now : Moment) (steps : List Step) (hsteps : ∀ st ∈ steps, st.Distinct) :
    ∀ e ∈ (History.run (.create source filename folder includePaths files limits bindings now)
        steps).session.environments, ∀ name,
      e.clone.store.lookup name =
          (e.store.own? name).or ((e.store.hidden? name).or (e.store.globals.get? name)) ∧
        (e.clone.store.lookup name = e.store.lookup name ↔
          (e.store.own? name).isSome ∨ e.store.hidden? name = none ∨
            e.store.hidden? name = e.store.globals.get? name) := by
  intro e he name
  have hfresh := create_distinct source filename folder includePaths files limits bindings now
  have hdistinct : e.store.Distinct := History.run_distinct hfresh hsteps e he
  exact ⟨Store.lookup_clone hdistinct name, Store.lookup_clone_eq_iff hdistinct name⟩

/-- Two frames over a global variable: the copy sees what the inner frame has as its original
does, and what only the outer one has in another way. -/
theorem session_lookup_clone_two :
    let steps : List Step := [.assign "x" (.text "0"),
      .openFrame [("x", .text "1"), ("a", .text "1")], .openFrame [("x", .text "2")]]
    let fresh := Environment.create "" "d" none [] {} {} [] { year := 2024, month := 3, day := 9 }
    (∀ st ∈ steps, st.Distinct) ∧
      ∃ e ∈ (History.run fresh steps).session.environments,
        e.clone.store.lookup "x" = e.store.lookup "x" ∧
          e.clone.store.lookup "a" ≠ e.store.lookup "a" := by
  intro steps fresh
  have hsteps : ∀ st ∈ steps, st.Distinct := by
    simp [steps, Step.Distinct, Dictionary.Distinct]
  let e := ((fresh.mapStore (·.assign "x" (.text "0"))).mapStore
    (·.push [("x", .text "1"), ("a", .text "1")])).mapStore (·.push [("x", .text "2")])
  have he : e ∈ (History.run fresh steps).session.environments := List.mem_singleton.mpr rfl
  have hsees := session_lookup_clone "" "d" none [] {} {} [] { year := 2024, month := 3, day := 9 }
    steps hsteps e he
  refine ⟨hsteps, e, he, (hsees "x").2.mpr (.inl rfl), fun heq => ?_⟩
  have hown : e.store.own? "a" = none := rfl
  have hhidden : e.store.hidden? "a" = some (.text "1") := rfl
  have hglobals : e.store.globals.get? "a" = none := rfl
  simpa [hown, hhidden, hglobals] using (hsees "a").2.mp heq

/-- Two frames, of which the outer one has the variable. Its name comes to nothing, and in a copy
to the value. So a file that refers to it lacks it where it is included as a part of the
document, and has it where it is included in isolation. -/
theorem session_lookup_clone_ne :
    let steps : List Step := [.openFrame [("a", .text "1")], .openFrame []]
    ∃ e ∈ (History.run (folderWith ".a") steps).session.environments,
      e.store.lookup "a" = none ∧ e.clone.store.lookup "a" = some (.text "1") ∧
      (expandNodes [(includeCall "false").toNode] e).2.store.report.warnings.map (·.message) =
        ["Undefined variable: a"] ∧
      (expandNodes [(includeCall "true").toNode] e).2.store.report.warnings = [] := by
  intro steps
  let e := ((folderWith ".a").mapStore (·.push [("a", .text "1")])).mapStore (·.push [])
  have he : e ∈ (History.run (folderWith ".a") steps).session.environments :=
    List.mem_singleton.mpr rfl
  exact ⟨e, he, rfl, rfl, by decide +kernel, by decide +kernel⟩

end Livedoc
