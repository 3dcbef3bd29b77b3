import Livedoc.Expansion.Session
import Livedoc.Proofs.Expansion.Termination

/-!
# Sessions close what they open

A session enters blocks in several environments and leaves the one entered last, in
whichever environment it was.  So the open blocks of one environment lie scattered among
those of the others.  But each environment sees its own blocks only, and these are left in
the reverse order of their entry: what was open when the environment was made comes back by
leaving them one after the other, which is `Environment.unwind`.

The invariant of a session is therefore about unwound environments.  An environment, once
unwound, is `Restored` from what it was when it was made.  Work on the environment keeps
that, since leaving a block keeps the relation (`Restored.unwind`).  Entering a block keeps
it, since leaving undoes entering.  Closing a block does nothing to the unwound environment.
-/

namespace Livedoc

open Livedoc.Environment Livedoc.Expansion Livedoc.Problem Livedoc.Source Livedoc.Tree

/-! ## What a step does to its environment -/

namespace Environment

/-- The environment after its open blocks are left, the innermost first. -/
def unwind (e : Environment) (blocks : List OpenBlock) : Environment := blocks.foldl leave e

/-- Leaving the same block keeps the relation between two environments. -/
theorem Restored.leave_congr {e e' : Environment} (h : Restored e e') (block : OpenBlock) :
    Restored (e.leave block) (e'.leave block) := by
  have hsetting := leave_setting_congr h.setting block
  cases block with
  | frame =>
      have hlength : e'.store.frames.tail.length = e.store.frames.tail.length := by rw [h.outer]
      have hglobals : e.store.frames.tail ≠ [] → e'.store.globals = e.store.globals := by
        intro hne
        refine h.globals fun hnil => hne ?_
        rw [hnil, List.tail_nil]
      exact ⟨hsetting, hlength, congrArg List.tail h.outer, hglobals, h.warnings, h.errors⟩
  | call | file | source =>
      exact ⟨hsetting, h.frames_length, h.outer, h.globals, h.warnings, h.errors⟩

theorem Restored.unwind {e e' : Environment} (h : Restored e e') (blocks : List OpenBlock) :
    Restored (e.unwind blocks) (e'.unwind blocks) := by
  induction blocks generalizing e e' with
  | nil => exact h
  | cons block outer ih => exact ih (h.leave_congr block)

/-- Unwinding an environment within a block leaves that block first. -/
theorem unwind_enter {e inner : Environment} {o : Opening} {block : OpenBlock}
    (h : e.enter o = .ok (inner, block)) (blocks : List OpenBlock) :
    inner.unwind (block :: blocks) = e.unwind blocks := by
  show (inner.leave block).unwind blocks = e.unwind blocks
  rw [leave_enter h]

theorem answer_restored {α : Type} {step : Expansion α} (h : Restores step) (e : Environment)
    (f : α → StepAnswer) : Restored e (e.answer step f).2 := by
  rcases hrun : step e with ⟨result, e'⟩
  have hstep : Restored e e' := h.restored hrun
  cases result <;> simpa only [answer, hrun] using hstep

theorem resolveText_restores (raw : String) : Restores (resolveText expandNodes raw) :=
  (Composed.anyText raw).restores (Meaning.of_restores expandNodes_restores .inCall)

/-- What a step may do to its environment: enter a block, or restore it and enter none. -/
def Enters (e e' : Environment) (block : Option OpenBlock) : Prop :=
  (∃ o b, e.enter o = .ok (e', b) ∧ block = some b) ∨ (Restored e e' ∧ block = none)

theorem opened_enters (e : Environment) (o : Opening) :
    e.Enters (e.opened o).2.1 (e.opened o).2.2 := by
  unfold opened
  cases henter : e.enter o with
  | ok entered => exact .inl ⟨o, entered.2, henter, rfl⟩
  | error f => exact .inr ⟨Restored.refl e, rfl⟩

theorem step_enters (e : Environment) (st : Step) :
    e.Enters (e.step st).2.1 (e.step st).2.2 := by
  cases st with
  | openFrame frame => exact opened_enters e _
  | openCall name named span => exact opened_enters e _
  | openFile path display span => exact opened_enters e _
  | assign name value => exact .inr ⟨Restored.assign e name value, rfl⟩
  | warn w => exact .inr ⟨Restored.warn e w, rfl⟩
  | fail error => exact .inr ⟨Restored.failAll e [error], rfl⟩
  | lookup | holds | close | clone | use => exact .inr ⟨Restored.refl e, rfl⟩
  | find path =>
      simp only [step]
      split <;> exact .inr ⟨Restored.refl e, rfl⟩
  | named name default =>
      simp only [step]
      split
      · exact .inr ⟨answer_restored (resolveText_restores _) e _, rfl⟩
      · exact .inr ⟨Restored.refl e, rfl⟩
  | resolve text default =>
      have hresolved : Restores (resolved text default) := by
        cases text with
        | some raw => exact resolveText_restores raw
        | none => exact Restores.pure default
      exact .inr ⟨answer_restored hresolved e _, rfl⟩
  | count text span =>
      exact .inr ⟨answer_restored (iterationCount_restores text span) e _, rfl⟩
  | run source => exact .inr ⟨answer_restored (expandNodes_restores _) e _, rfl⟩
  | expand nodes => exact .inr ⟨answer_restored (expandNodes_restores nodes) e _, rfl⟩
  | document d => exact .inr ⟨expandEach_restored d.children e, rfl⟩

end Environment

/-! ## Limits -/

/-- What the limits allow to be open: so many calls, and so many files, none of them twice.
The document itself may be open whatever the limit is. -/
structure Setting.WithinLimits (allowed : Limits) (s : Setting) : Prop where
  limits : s.limits = allowed
  calls : (s.calls.length : Int) ≤ max 0 allowed.callDepth
  includes_nodup : s.includes.Nodup
  includes : (s.includes.length : Int) ≤ max 1 allowed.includeDepth

namespace Setting.WithinLimits

theorem stable (limits : Limits) : Task.Stable (Setting.WithinLimits limits) where
  call := by
    intro s inner name named span hs hcall
    obtain ⟨hlt, rfl⟩ := call_eq_ok_iff.mp hcall
    refine ⟨hs.limits, ?_, hs.includes_nodup, hs.includes⟩
    rw [hs.limits] at hlt
    simp only [Setting.enterCall, List.length_append, List.length_singleton]
    omega
  including := by
    intro s inner path display span hs hfile
    obtain ⟨hlt, hnot, rfl⟩ := including_eq_ok_iff.mp hfile
    refine ⟨hs.limits, hs.calls, ?_, ?_⟩
    · exact List.nodup_append.mpr ⟨hs.includes_nodup, List.nodup_singleton path, by
        intro a ha b hb
        obtain rfl := List.mem_singleton.mp hb
        exact fun heq => hnot (heq ▸ ha)⟩
    · rw [hs.limits] at hlt
      simp only [List.length_append, List.length_singleton]
      omega
  reading := fun path text hs => ⟨hs.limits, hs.calls, hs.includes_nodup, hs.includes⟩

theorem enter {limits : Limits} {e inner : Environment} {o : Opening} {block : OpenBlock}
    (h : e.setting.WithinLimits limits) (hin : e.enter o = .ok (inner, block)) :
    inner.setting.WithinLimits limits := by
  cases o with
  | frame locals => cases hin; exact h
  | call name named span =>
      obtain ⟨setting, hcall, rfl, -⟩ := enter_call_eq_ok hin
      exact (stable limits).call h hcall
  | file path display span =>
      obtain ⟨setting, hfile, rfl, -⟩ := enter_file_eq_ok hin
      exact (stable limits).including h hfile
  | source path text => cases hin; exact (stable limits).reading path text h

/-- Leaving a block closes a call or a file at most. -/
theorem leave {limits : Limits} {e : Environment} (h : e.setting.WithinLimits limits)
    (block : OpenBlock) : (e.leave block).setting.WithinLimits limits := by
  cases block with
  | frame => exact h
  | call named =>
      refine ⟨h.limits, ?_, h.includes_nodup, h.includes⟩
      have hcalls := h.calls
      simp only [Environment.leave, List.length_dropLast]
      omega
  | file =>
      refine ⟨h.limits, h.calls, h.includes_nodup.sublist (List.dropLast_sublist _), ?_⟩
      have hincludes := h.includes
      simp only [Environment.leave, List.length_dropLast]
      omega
  | source text filename folder => exact ⟨h.limits, h.calls, h.includes_nodup, h.includes⟩

/-- A fresh environment has no call open, and no file but its own. -/
theorem create (source filename : String) (folder : Option Path) (includePaths : List Path)
    (files : Files) (limits : Limits) (bindings : Frame) (now : Moment) :
    (Environment.create source filename folder includePaths files limits bindings
      now).setting.WithinLimits limits := by
  refine ⟨rfl, ?_, ?_, ?_⟩
  · simp [Environment.create]
  · simp only [Environment.create]
    split <;> simp
  · simp only [Environment.create]
    split <;> simp

end Setting.WithinLimits

/-! ## What a step does to the session -/

/-- The steps that are there to enter a block. -/
def Step.opens : Step → Bool
  | .openFrame _ | .openCall .. | .openFile .. => true
  | _ => false

namespace Session

/-- What a step can do to a session. -/
inductive Moves (s : Session) : Session → Prop
  | stay : s.Moves s
  | use {index : Nat} (h : index < s.environments.length) : s.Moves { s with current := index }
  | work {e e' : Environment} (he : s.environments[s.current]? = some e) (h : Restored e e') :
      s.Moves (s.modify s.current fun _ => e')
  | enter {e inner : Environment} {o : Opening} {block : OpenBlock}
      (he : s.environments[s.current]? = some e) (h : e.enter o = .ok (inner, block)) :
      s.Moves { s.modify s.current (fun _ => inner) with
        blocks := (s.current, block) :: s.blocks }
  | close {index : Nat} {block : OpenBlock} {outer : List (Nat × OpenBlock)}
      (h : s.blocks = (index, block) :: outer) :
      s.Moves { s.modify index (·.leave block) with blocks := outer }
  | clone {e : Environment} (he : s.environments[s.current]? = some e) :
      s.Moves { s with environments := s.environments ++ [e.clone] }

theorem close_moves (s : Session) : s.Moves s.close := by
  unfold Session.close
  cases h : s.blocks with
  | nil => exact .stay
  | cons b outer => exact .close h

/-- A step that is for its environment alone. -/
theorem moves_of_enters {s : Session} {e e' : Environment} {block : Option OpenBlock}
    (he : s.environments[s.current]? = some e) (h : e.Enters e' block) :
    s.Moves { s.modify s.current (fun _ => e') with
      blocks := (block.map fun b => (s.current, b)).toList ++ s.blocks } := by
  rcases h with ⟨o, b, henter, rfl⟩ | ⟨hrestored, rfl⟩
  · exact .enter he henter
  · exact .work he hrestored

theorem step_moves (s : Session) (st : Step) : s.Moves (s.step st).2 := by
  unfold step environment?
  cases he : s.environments[s.current]? with
  | none => exact .stay
  | some e =>
      have halone := moves_of_enters he (e.step_enters st)
      cases st with
      | close => exact s.close_moves
      | clone => exact .clone he
      | use index =>
          dsimp only
          split
          · rename_i hlt
            exact .use hlt
          · exact .stay
      | _ => exact halone

/-! ## The invariant -/

/-- The open blocks of one environment, innermost first. -/
def openIn (index : Nat) (blocks : List (Nat × OpenBlock)) : List OpenBlock :=
  (blocks.filter (·.1 = index)).map Prod.snd

theorem openIn_cons_self (index : Nat) (block : OpenBlock) (blocks : List (Nat × OpenBlock)) :
    openIn index ((index, block) :: blocks) = block :: openIn index blocks := by
  simp [openIn]

theorem openIn_cons_of_ne {index other : Nat} (h : index ≠ other) (block : OpenBlock)
    (blocks : List (Nat × OpenBlock)) :
    openIn other ((index, block) :: blocks) = openIn other blocks := by
  simp [openIn, h]

/-- A session whose environments were as `origins` says when they were made: blocks are open
in environments that there are, each environment is within the limits, and, once unwound, it
is restored from its origin, in which no frame was open. -/
structure Bracketed (limits : Limits) (origins : List Environment) (s : Session) : Prop where
  length : origins.length = s.environments.length
  fresh : ∀ o ∈ origins, o.store.frames = []
  blocks : ∀ b ∈ s.blocks, b.1 < s.environments.length
  within : ∀ e ∈ s.environments, e.setting.WithinLimits limits
  restored : ∀ (i : Nat) (o e : Environment), origins[i]? = some o →
    s.environments[i]? = some e → Restored o (e.unwind (openIn i s.blocks))

/-- An environment after one of them is changed is the changed one or another one. -/
theorem modify_cases {s : Session} {index i : Nat} {f : Environment → Environment}
    {e' : Environment} (h : (s.modify index f).environments[i]? = some e') :
    (index = i ∧ ∃ e, s.environments[i]? = some e ∧ f e = e') ∨
      (index ≠ i ∧ s.environments[i]? = some e') := by
  simp only [modify, List.getElem?_modify] at h
  cases he : s.environments[i]? with
  | none => simp [he] at h
  | some e =>
      rw [he] at h
      by_cases heq : index = i
      · simp only [heq, if_true, Option.map_eq_map, Option.map_some, Option.some.injEq] at h
        exact .inl ⟨heq, e, rfl, h⟩
      · simp only [heq, if_false, Option.map_eq_map, Option.map_some] at h
        exact .inr ⟨heq, h⟩

namespace Bracketed

variable {limits : Limits} {origins : List Environment} {s : Session}

theorem start {e : Environment} (hwithin : e.setting.WithinLimits limits)
    (hfresh : e.store.frames = []) : Bracketed limits [e] (Session.start e) where
  length := rfl
  fresh := by simpa using hfresh
  blocks := by simp [Session.start]
  within := by simpa [Session.start] using hwithin
  restored := by
    intro i o e' ho he'
    rw [Session.start] at he'
    obtain rfl : o = e' := Option.some.inj (ho.symm.trans he')
    exact Restored.refl o

/-- The invariant where one environment is changed, and with it its own open blocks. -/
theorem modify (h : s.Bracketed limits origins) {index : Nat} {f : Environment → Environment}
    {blocks : List (Nat × OpenBlock)} (hblocks : ∀ b ∈ blocks, b.1 < s.environments.length)
    (hothers : ∀ i, index ≠ i → openIn i blocks = openIn i s.blocks)
    (hself : ∀ e, s.environments[index]? = some e → (f e).setting.WithinLimits limits ∧
      Restored (e.unwind (openIn index s.blocks)) ((f e).unwind (openIn index blocks))) :
    Bracketed limits origins { s.modify index f with blocks } where
  length := by simpa [Session.modify] using h.length
  fresh := h.fresh
  blocks := by simpa [Session.modify] using hblocks
  within := by
    intro e' he'
    obtain ⟨i, hi⟩ := List.mem_iff_getElem?.mp he'
    rcases modify_cases hi with ⟨rfl, e, he, rfl⟩ | ⟨-, he⟩
    · exact (hself e he).1
    · exact h.within e' (List.mem_of_getElem? he)
  restored := by
    intro i o e' ho hi
    rcases modify_cases hi with ⟨rfl, e, he, rfl⟩ | ⟨hne, he⟩
    · exact (h.restored index o e ho he).trans (hself e he).2
    · have hsame := h.restored i o e' ho he
      rwa [← hothers i hne] at hsame

/-- No block is open in an environment that is yet to be made. -/
theorem openIn_length (h : s.Bracketed limits origins) :
    openIn s.environments.length s.blocks = [] := by
  have hnone : s.blocks.filter (·.1 = s.environments.length) = [] := by
    refine List.filter_eq_nil_iff.mpr fun b hb => ?_
    have hlt := h.blocks b hb
    simp only [decide_eq_true_eq]
    omega
  rw [openIn, hnone, List.map_nil]

/-- The invariant where an environment is cloned: the clone is its own origin. -/
theorem clone (h : s.Bracketed limits origins) {e : Environment} (he : e ∈ s.environments) :
    Bracketed limits (origins ++ [e.clone])
      { s with environments := s.environments ++ [e.clone] } where
  length := by simp [h.length]
  fresh := by
    intro o ho
    rcases List.mem_append.mp ho with ho | ho
    · exact h.fresh o ho
    · rw [List.mem_singleton.mp ho]
      rfl
  blocks := by
    intro b hb
    rw [List.length_append]
    exact Nat.lt_add_right _ (h.blocks b hb)
  within := by
    intro e' he'
    rcases List.mem_append.mp he' with he' | he'
    · exact h.within e' he'
    · rw [List.mem_singleton.mp he']
      exact h.within e he
  restored := by
    intro i o e' ho he'
    dsimp only at he'
    by_cases hlt : i < s.environments.length
    · rw [List.getElem?_append_left (h.length ▸ hlt)] at ho
      rw [List.getElem?_append_left hlt] at he'
      exact h.restored i o e' ho he'
    · have hnew : i < (s.environments ++ [e.clone]).length := (List.getElem?_eq_some_iff.mp he').1
      obtain rfl : i = s.environments.length := by
        rw [List.length_append, List.length_singleton] at hnew
        omega
      rw [← h.length, List.getElem?_concat_length] at ho
      rw [List.getElem?_concat_length] at he'
      obtain rfl := Option.some.inj (ho.symm.trans he')
      rw [h.openIn_length]
      exact Restored.refl o

/-- **One step keeps the invariant**; a step that makes an environment adds its origin. -/
theorem moves (h : s.Bracketed limits origins) {s' : Session} (hmoves : s.Moves s') :
    s'.Bracketed limits (origins ++ s'.environments.drop s.environments.length) := by
  -- apart from cloning, no environment is made
  have hnone : ∀ {s' : Session}, s'.environments.length = s.environments.length →
      s'.Bracketed limits origins →
        s'.Bracketed limits (origins ++ s'.environments.drop s.environments.length) := by
    intro s' hlength hs'
    rwa [List.drop_of_length_le (Nat.le_of_eq hlength), List.append_nil]
  cases hmoves with
  | stay => exact hnone rfl h
  | use hlt => exact hnone rfl ⟨h.length, h.fresh, h.blocks, h.within, h.restored⟩
  | work he hrestored =>
      refine hnone (by simp [Session.modify]) (h.modify h.blocks (fun _ _ => rfl) fun e' he' => ?_)
      obtain rfl := Option.some.inj (he.symm.trans he')
      refine ⟨?_, hrestored.unwind _⟩
      rw [hrestored.setting]
      exact h.within _ (List.mem_of_getElem? he)
  | enter he henter =>
      refine hnone (by simp [Session.modify]) (h.modify ?_ ?_ fun e' he' => ?_)
      · intro b hb
        rcases List.mem_cons.mp hb with rfl | hb
        · exact (List.getElem?_eq_some_iff.mp he).1
        · exact h.blocks b hb
      · exact fun i hne => openIn_cons_of_ne hne _ _
      · obtain rfl := Option.some.inj (he.symm.trans he')
        refine ⟨(h.within _ (List.mem_of_getElem? he)).enter henter, ?_⟩
        rw [openIn_cons_self, unwind_enter henter]
        exact Restored.refl _
  | close hblocks =>
      refine hnone (by simp [Session.modify]) (h.modify ?_ ?_ fun e he => ?_)
      · exact fun b hb => h.blocks b (hblocks ▸ List.mem_cons_of_mem _ hb)
      · exact fun i hne => by rw [hblocks, openIn_cons_of_ne hne]
      · refine ⟨(h.within e (List.mem_of_getElem? he)).leave _, ?_⟩
        rw [hblocks, openIn_cons_self]
        exact Restored.refl _
  | @clone e he =>
      show Bracketed limits (origins ++ (s.environments ++ [e.clone]).drop s.environments.length)
        { s with environments := s.environments ++ [e.clone] }
      rw [List.drop_left]
      exact h.clone (List.mem_of_getElem? he)

end Bracketed

/-! ## Failing to enter -/

/-- Putting an environment back where it is changes nothing. -/
theorem modify_self {s : Session} {index : Nat} {e : Environment}
    (he : s.environments[index]? = some e) : s.modify index (fun _ => e) = s := by
  have hsame : s.environments.modify index (fun _ => e) = s.environments := by
    apply List.ext_getElem?
    intro i
    rw [List.getElem?_modify]
    by_cases heq : index = i
    · subst heq
      simp [he]
    · simp [heq]
  rw [modify, hsame]

/-- **A step that fails to enter a block changes nothing**, in the environment and in the
session. -/
theorem step_eq_of_failure {s : Session} {st : Step} {f : Failure} (hopens : st.opens = true)
    (h : (s.step st).1 = .failure f) : (s.step st).2 = s := by
  unfold step environment? at h ⊢
  cases he : s.environments[s.current]? with
  | none => rfl
  | some e =>
      rw [he] at h
      have hopened : ∀ o, (e.opened o).1 = .failure f →
          ({ s.modify s.current (fun _ => (e.opened o).2.1) with
            blocks := ((e.opened o).2.2.map fun b => (s.current, b)).toList ++ s.blocks } :
              Session) = s := by
        intro o hfailure
        unfold opened at hfailure ⊢
        cases henter : e.enter o with
        | ok entered => simp [henter] at hfailure
        | error f' => exact modify_self he
      cases st with
      | openFrame frame => exact hopened _ h
      | openCall name named span => exact hopened _ h
      | openFile path display span => exact hopened _ h
      | _ => cases hopens

end Session

/-! ## Runs -/

/-- A session, and its environments as they were when they were made. -/
structure History where
  session : Session
  origins : List Environment

namespace History

/-- A session with one environment. -/
def start (e : Environment) : History := ⟨Session.start e, [e]⟩

/-- Takes a step.  The environments that there are more afterwards have just been made. -/
def step (h : History) (st : Step) : History :=
  let s := (h.session.step st).2
  ⟨s, h.origins ++ s.environments.drop h.session.environments.length⟩

/-- Takes steps, from a session with one environment on. -/
def run (e : Environment) (steps : List Step) : History := steps.foldl step (start e)

/-- Every step of a run keeps the invariant. -/
theorem run_bracketed {limits : Limits} {e : Environment}
    (hwithin : e.setting.WithinLimits limits) (hfresh : e.store.frames = []) (steps : List Step) :
    (run e steps).session.Bracketed limits (run e steps).origins := by
  induction steps using List.reverseRecOn with
  | nil => exact Session.Bracketed.start hwithin hfresh
  | append_singleton steps st ih =>
      rw [run, List.foldl_append]
      exact ih.moves (Session.step_moves _ st)

end History

/-- What is open in an environment: its frames, its calls, its files, and the named
arguments of the innermost call. -/
def Environment.openState (e : Environment) :
    List Frame × List String × List Path × Dictionary String :=
  (e.store.frames, e.setting.calls, e.setting.includes, e.setting.named)

/-- Once no block is open, each environment has open what it had when it was made. -/
theorem Session.Bracketed.openState_eq {limits : Limits} {origins : List Environment} {s : Session}
    (h : s.Bracketed limits origins) (hclosed : s.blocks = []) :
    s.environments.map openState = origins.map openState := by
  apply List.ext_getElem?
  intro i
  rw [List.getElem?_map, List.getElem?_map]
  cases ho : origins[i]? with
  | none =>
      rw [List.getElem?_eq_none_iff, h.length] at ho
      rw [List.getElem?_eq_none_iff.mpr ho]
  | some o =>
      have hlt : i < s.environments.length := h.length ▸ (List.getElem?_eq_some_iff.mp ho).1
      have hrestored := h.restored i o s.environments[i] ho (List.getElem?_eq_getElem hlt)
      rw [hclosed] at hrestored
      have hframes : s.environments[i].store.frames = o.store.frames := by
        have hfresh := h.fresh o (List.mem_of_getElem? ho)
        rw [hfresh]
        exact hrestored.frames_eq_nil_iff.mpr hfresh
      have hsetting : s.environments[i].setting = o.setting := hrestored.setting
      rw [List.getElem?_eq_getElem hlt]
      simp only [Option.map_some, openState, hframes, hsetting]

/-- **Sessions close what they open.**  Take any steps from a fresh environment on.  Then

* in every environment, and in every setting that expanding nodes there leads through, no
  more calls are open than the limit allows, no more files than the limit allows or the
  document itself, and no file is open twice;
* a step that fails to enter a frame, a call or a file changes nothing;
* if no block is open, then in every environment the frames, the calls, the files and the
  named arguments are those that were there when it was made. -/
theorem session_closes_blocks (source filename : String) (folder : Option Path)
    (includePaths : List Path) (files : Files) (limits : Limits) (bindings : Frame)
    (now : Moment) (steps : List Step) :
    let h := History.run
      (.create source filename folder includePaths files limits bindings now) steps
    (∀ e ∈ h.session.environments, e.setting.WithinLimits limits ∧
      ∀ (p q : Task) (s : Setting), p.setting = e.setting →
        Relation.ReflTransGen Task.Under q p → q.Visits s → s.WithinLimits limits) ∧
    (∀ (st : Step) (f : Failure), st.opens = true → (h.session.step st).1 = .failure f →
      (h.session.step st).2 = h.session) ∧
    (h.session.blocks = [] → h.session.environments.map openState = h.origins.map openState) := by
  intro h
  have hbracketed : h.session.Bracketed limits h.origins :=
    History.run_bracketed (.create source filename folder includePaths files limits bindings now)
      rfl steps
  refine ⟨fun e he => ⟨hbracketed.within e he, ?_⟩, ?_, hbracketed.openState_eq⟩
  · intro p q s hp hq hs
    have hstable := Setting.WithinLimits.stable limits
    have hwithin : p.setting.WithinLimits limits := hp ▸ hbracketed.within e he
    exact hstable.visits (hstable.nested hwithin hq) hs
  · exact fun st f hopens hfailure => Session.step_eq_of_failure hopens hfailure

end Livedoc
