import Livedoc.Proofs.Expansion.Unfolding

/-!
# What an expansion demands

A composed step asks for other expansions while it runs, each in the environment that
it has reached by then.  Such a question is a `Demand`.  A run asks finitely many of
them, and its outcome hangs on their answers alone: `Composed.exists_demands` gives
the list.  Where the demands lie is known beforehand, for they are of the kind that
the step may use, in a setting that entering the permitted blocks leads to.

Two meanings that agree where it matters therefore give the same outcome.  That is how
expansion is shown to satisfy the equation of its own recursion: `unfold_expandNodes`.
-/

namespace Livedoc

open Livedoc.Environment Livedoc.Tree Livedoc.Tree.Node

namespace Expansion

variable {α : Type}

/-- Nodes to expand in an environment. -/
structure Task where
  nodes : List Node
  environment : Environment

/-- How a task turns out, if this expands it. -/
def Task.outcome (t : Task) (x : Expander) : Except Failure (List Node) × Environment :=
  x t.nodes t.environment

/-- A question that a step asks: how a task turns out, or what a call stands for in an
environment. -/
inductive Demand where
  | nodes (t : Task)
  | call (c : Invocation) (e : Environment)

/-- The task that a demand is about, if it is about one. -/
def Demand.task? : Demand → Option Task
  | .nodes t => some t
  | .call _ _ => none

/-- The answer that a meaning gives. -/
def Meaning.answer (x : Meaning) : Demand → Except Failure (List Node) × Environment
  | .nodes t => t.outcome x.nodes
  | .call c e => x.call c e

/-- A demand is one that a step may ask, in a setting with a certain property. -/
def Demand.Within (u : Use) (P : Setting → Prop) : Demand → Prop
  | .nodes t => u.nodes t.nodes ∧ P t.environment.setting
  | .call c e => u.call c ∧ P e.setting

/-- A property of settings that entering the permitted blocks does not end. -/
def Use.Keeps (u : Use) (P : Setting → Prop) : Prop :=
  ∀ {e inner : Environment} {o : Opening} {block : OpenBlock}, u.block o → P e.setting →
    e.enter o = .ok (inner, block) → P inner.setting

/-- **Finitely many demands decide the outcome.**  Let `y` be a meaning whose expansions
restore the environment.  In every environment whose setting has the property, there is
a list of demands such that the step has the same outcome under `y` and under each
meaning that gives the answers of `y` to these demands. -/
theorem Composed.exists_demands {u : Use} {y : Meaning} {P : Setting → Prop}
    {m : Meaning → Expansion α} (h : Composed u m) (hy : y.Restores u) (hP : u.Keeps P) :
    ∀ e : Environment, P e.setting → ∃ ds : List Demand, (∀ d ∈ ds, d.Within u P) ∧
      ∀ x : Meaning, (∀ d ∈ ds, x.answer d = y.answer d) → m x e = m y e := by
  induction h with
  | pure a => exact fun e _ => ⟨[], by simp, fun x _ => rfl⟩
  | primitive _ => exact fun e _ => ⟨[], by simp, fun x _ => rfl⟩
  | nodes h =>
      intro e he
      exact ⟨[.nodes ⟨_, e⟩], by simpa using ⟨h, he⟩, fun x hx => hx (.nodes ⟨_, e⟩) (by simp)⟩
  | call h =>
      intro e he
      exact ⟨[.call _ e], by simpa using ⟨h, he⟩, fun x hx => hx (.call _ e) (by simp)⟩
  | @bind α β m k hm hk ihm ihk =>
      intro e he
      obtain ⟨ds, hds, hagree⟩ := ihm e he
      rcases hrun : m y e with ⟨result, e'⟩
      cases result with
      | error f =>
          refine ⟨ds, hds, fun x hx => ?_⟩
          show (m x >>= fun a => k a x) e = (m y >>= fun a => k a y) e
          rw [bind_error hrun, bind_error ((hagree x hx).trans hrun)]
      | ok a =>
          -- the second step starts where the first one, under `y`, left off
          have hsetting : e'.setting = e.setting := ((hm.restores hy).restored hrun).setting
          obtain ⟨ds', hds', hagree'⟩ := ihk a e' (hsetting ▸ he)
          refine ⟨ds ++ ds', ?_, fun x hx => ?_⟩
          · intro d hd
            rcases List.mem_append.mp hd with hd | hd
            · exact hds d hd
            · exact hds' d hd
          · have hfirst : m x e = (.ok a, e') :=
              (hagree x fun d hd => hx d (List.mem_append_left _ hd)).trans hrun
            show (m x >>= fun a => k a x) e = (m y >>= fun a => k a y) e
            rw [bind_ok hrun, bind_ok hfirst]
            exact hagree' x fun d hd => hx d (List.mem_append_right _ hd)
  | @inBlock α o m hblock hm ih =>
      intro e he
      cases henter : e.enter o with
      | error f =>
          refine ⟨[], by simp, fun x _ => ?_⟩
          exact (inBlock_error henter (m x)).trans (inBlock_error henter (m y)).symm
      | ok entered =>
          obtain ⟨inner, block⟩ := entered
          obtain ⟨ds, hds, hagree⟩ := ih inner (hP hblock he henter)
          refine ⟨ds, hds, fun x hx => ?_⟩
          show Expansion.inBlock o (m x) e = Expansion.inBlock o (m y) e
          rw [inBlock_ok henter, inBlock_ok henter, hagree x hx]
  | @inIsolation α m _ hm ih =>
      intro e he
      obtain ⟨ds, hds, hagree⟩ := ih e.clone he
      exact ⟨ds, hds, fun x hx => inIsolation_congr (hagree x hx)⟩

/-! ## Demands of calls

Within a call, files may be opened and their text made the source, but no call. -/

end Expansion

/-- The settings that opening files within a setting leads to. -/
inductive Setting.Inside (s : Setting) : Setting → Prop
  | refl : s.Inside s
  | file {t t' : Setting} {path : Path} {display : String} {span : Source.Span}
      (h : s.Inside t) (hfile : t.including path display span = .ok t') : s.Inside t'
  | source {t : Setting} (h : s.Inside t) (path : Path) (text : String) :
      s.Inside (t.reading path text)

namespace Setting.Inside

variable {s t : Setting}

theorem calls (h : s.Inside t) : t.calls = s.calls := by
  induction h with
  | refl => rfl
  | file _ hfile ih =>
      obtain ⟨-, -, rfl⟩ := including_eq_ok_iff.mp hfile
      exact ih
  | source _ path text ih => exact ih

theorem limits (h : s.Inside t) : t.limits = s.limits := by
  induction h with
  | refl => rfl
  | file _ hfile ih =>
      obtain ⟨-, -, rfl⟩ := including_eq_ok_iff.mp hfile
      exact ih
  | source _ path text ih => exact ih

theorem levels (h : s.Inside t) : t.levels = s.levels := by
  rw [Setting.levels, Setting.levels, h.calls, h.limits]

end Setting.Inside

/-- A call takes one of the levels. -/
theorem Setting.levels_of_call {s inner : Setting} {name : String} {named : Dictionary String}
    {span : Source.Span} (h : s.call name named span = .ok inner) :
    s.levels = inner.levels + 1 := by
  obtain ⟨hlt, rfl⟩ := call_eq_ok_iff.mp h
  simp only [Setting.levels, Setting.enterCall, List.length_append, List.length_singleton]
  omega

namespace Expansion

/-- The blocks that are entered within a call open files at most. -/
theorem Use.inCall_keeps (s : Setting) : Use.inCall.Keeps s.Inside := by
  intro e inner o block hblock he henter
  cases o with
  | frame locals => cases henter; exact he
  | call name named span => exact absurd rfl (hblock name named span)
  | file path display span =>
      obtain ⟨setting, hfile, rfl, -⟩ := enter_file_eq_ok henter
      exact he.file hfile
  | source path text => cases henter; exact he.source path text

theorem expandCall_unknown {c : Invocation} {e : Environment} (h : e.store.callee? c.name = none)
    (x : Expander) : expandCall x c e =
      (.ok [], e.mapStore (·.warn ⟨"Unknown function: " ++ c.name, .style, c.span⟩)) := by
  unfold expandCall
  rw [bind_ok (inspect_run _ e)]
  simp only [h]
  rfl

theorem expandCall_known {c : Invocation} {e : Environment} {callee : Callee}
    (h : e.store.callee? c.name = some callee) (x : Expander) : expandCall x c e =
      inBlock (.call c.name c.namedTexts c.span) (callee.run x c) e := by
  unfold expandCall
  rw [bind_ok (inspect_run _ e)]
  simp only [h]

/-- What a call demands lies within the setting that entering it gives. -/
theorem exists_tasks_of_call {y : Expander} (hy : ∀ ns, Restores (y ns)) (c : Invocation)
    (e : Environment) : ∃ ts : List Task,
      (∀ t ∈ ts, ∃ inner, e.setting.call c.name c.namedTexts c.span = .ok inner ∧
        inner.Inside t.environment.setting) ∧
      ∀ x : Expander, (∀ t ∈ ts, t.outcome x = t.outcome y) →
        expandCall x c e = expandCall y c e := by
  cases hfound : e.store.callee? c.name with
  | none =>
      -- an unknown function is warned about, whatever expands the nodes
      refine ⟨[], by simp, fun x _ => ?_⟩
      rw [expandCall_unknown hfound, expandCall_unknown hfound]
  | some callee =>
      cases hcall : e.setting.call c.name c.namedTexts c.span with
      | error f =>
          refine ⟨[], by simp, fun x _ => ?_⟩
          rw [expandCall_known hfound, expandCall_known hfound]
          have henter : e.enter (.call c.name c.namedTexts c.span) = .error f := by
            simp only [enter, hcall]
          rw [inBlock_error henter, inBlock_error henter]
      | ok inner =>
          have henter : e.enter (.call c.name c.namedTexts c.span) =
              .ok ({ e with setting := inner }, .call e.setting.named) := by
            simp only [enter, hcall]
          obtain ⟨ds, hds, hagree⟩ := (Composed.callee c callee).exists_demands
            (Meaning.of_restores hy .inCall) (Use.inCall_keeps inner)
            { e with setting := inner } .refl
          refine ⟨ds.filterMap Demand.task?, ?_, fun x hx => ?_⟩
          · intro t ht
            obtain ⟨d, hd, htask⟩ := List.mem_filterMap.mp ht
            cases d with
            | nodes t' =>
                obtain rfl := Option.some.inj htask
                exact ⟨inner, rfl, (hds _ hd).2⟩
            | call c' e' => cases htask
          · rw [expandCall_known hfound, expandCall_known hfound, inBlock_ok henter,
              inBlock_ok henter]
            have hrun : callee.run x c { e with setting := inner } =
                callee.run y c { e with setting := inner } := by
              refine hagree (.of x) fun d hd => ?_
              cases d with
              | nodes t => exact hx t (List.mem_filterMap.mpr ⟨.nodes t, hd, rfl⟩)
              | call c' e' => exact absurd (hds _ hd).1 id
            rw [hrun]

/-! ## Expansion and its recursion -/

/-- In every environment, calls mean what `callMeaning` says for the levels that are
left there. -/
theorem expandCall_expandNodes (c : Invocation) (e : Environment) :
    expandCall expandNodes c e = callMeaning e.setting.levels c e := by
  cases hlevels : e.setting.levels with
  | zero =>
      -- no call can be entered, so there are no tasks
      obtain ⟨ts, hts, hagree⟩ :=
        exists_tasks_of_call (y := fun _ => pure []) (fun _ => Restores.pure []) c e
      refine hagree expandNodes fun t ht => ?_
      obtain ⟨inner, hcall, -⟩ := hts t ht
      have hleft : e.setting.levels = inner.levels + 1 := Setting.levels_of_call hcall
      omega
  | succ levels =>
      have hrestores : ∀ ns, Restores (expander (callMeaning levels) ns) :=
        expander_restores (callMeaning_restores levels)
      obtain ⟨ts, hts, hagree⟩ := exists_tasks_of_call hrestores c e
      refine hagree expandNodes fun t ht => ?_
      obtain ⟨inner, hcall, hinside⟩ := hts t ht
      have hleft : e.setting.levels = inner.levels + 1 := Setting.levels_of_call hcall
      have htask : t.environment.setting.levels = levels := by
        rw [hinside.levels]
        omega
      show expander (callMeaning t.environment.setting.levels) t.nodes t.environment = _
      rw [htask]
      rfl

/-- **Expansion satisfies the equation of its recursion.**  Though it is defined by
recursion on the levels of calls that are left, the levels do not show: a call expands
the nodes within it by expansion again. -/
theorem unfold_expandNodes (ns : List Node) (e : Environment) :
    unfold expandNodes ns e = expandNodes ns e := by
  have hcalls : ∀ c, Restores (callMeaning e.setting.levels c) :=
    callMeaning_restores e.setting.levels
  have hmeaning : Meaning.Restores ⟨expander (callMeaning e.setting.levels),
      callMeaning e.setting.levels⟩ (.ofNodes ns) :=
    ⟨fun cs _ => expander_restores hcalls cs, fun c _ => hcalls c⟩
  have hkeeps : (Use.ofNodes ns).Keeps (· = e.setting) := fun hblock => False.elim hblock
  obtain ⟨ds, hds, hagree⟩ := (Composed.level ns).exists_demands (P := (· = e.setting)) hmeaning
    hkeeps e rfl
  have hlevel := hagree (.of expandNodes) fun d hd => by
    have hsetting := hds d hd
    cases d with
    | nodes t =>
        have hsame : t.environment.setting = e.setting := hsetting.2
        show expander (callMeaning t.environment.setting.levels) t.nodes t.environment = _
        rw [hsame]
        rfl
    | call c e' =>
        have hsame : e'.setting = e.setting := hsetting.2
        show expandCall expandNodes c e' = callMeaning e.setting.levels c e'
        rw [expandCall_expandNodes, hsame]
  have hlevels : expandNodes ns e = expander (callMeaning e.setting.levels) ns e := rfl
  rw [hlevels, expander_eq]
  exact hlevel

/-- A single node expands to what one level of expansion makes of it. -/
theorem expandNodes_single (n : Node) :
    expandNodes [n] = expandNode (.of expandNodes) (resolveText expandNodes) n := by
  funext e
  rw [← unfold_expandNodes, unfold, each, each]
  simp

end Expansion

end Livedoc
