import Livedoc.Expansion.Nodes
import Livedoc.Proofs.Environment.Restored

/-!
# Single steps

How a step of expansion runs, one equation for each way of putting steps together,
and the kinds of statements that are proved about steps: what a step `Restores`
whether or not it fails, what is true of a result it `Returns`, and both at once for
an invariant of the environment that it `Maintains`.  All of them pass from the parts
of a step to the whole.

`Primitive` lists the steps that expansion is put together from.  None of them
expands anything.  A property that these steps have, and that passes from the parts of a
step to the whole, is `Closed`: whatever is put together has it.  If it passes on everywhere
but from a copy of the environment, it is `ClosedInPlace`.
-/

namespace Livedoc.Expansion

open Livedoc.Environment Livedoc.Problem Livedoc.Source Livedoc.Tree

variable {α β : Type}

/-! ## Running steps -/

theorem inspect_run (f : Environment → α) (e : Environment) :
    inspect f e = (.ok (f e), e) := rfl

theorem bind_run (m : Expansion α) (k : α → Expansion β) (e : Environment) :
    (m >>= k) e = match m e with
      | (.ok a, e') => k a e'
      | (.error f, e') => (.error f, e') := by
  show ExceptT.bindCont k (m e).1 (m e).2 = _
  rcases m e with ⟨result, e'⟩
  cases result <;> rfl

theorem bind_ok {m : Expansion α} {e e' : Environment} {a : α} (h : m e = (.ok a, e'))
    (k : α → Expansion β) : (m >>= k) e = k a e' := by
  rw [bind_run, h]

theorem bind_error {m : Expansion α} {e e' : Environment} {f : Failure}
    (h : m e = (.error f, e')) (k : α → Expansion β) : (m >>= k) e = (.error f, e') := by
  rw [bind_run, h]

theorem inBlock_error {e : Environment} {o : Opening} {f : Failure} (h : e.enter o = .error f)
    (m : Expansion α) : inBlock o m e = (.error f, e) := by
  simp only [inBlock, h]

theorem inBlock_ok {e inner : Environment} {o : Opening} {block : OpenBlock}
    (h : e.enter o = .ok (inner, block)) (m : Expansion α) :
    inBlock o m e = ((m inner).1, (m inner).2.leave block) := by
  simp only [inBlock, h]
  rfl

/-- Of isolated work that was completed the messages are taken over. -/
theorem inIsolation_ok {m : Expansion α} {e copy : Environment} {a : α}
    (h : m e.clone = (.ok a, copy)) :
    inIsolation m e = (.ok a, e.mapStore (·.adopt copy.store)) := by
  simp only [inIsolation, h]

/-- Of isolated work that broke off they are not. -/
theorem inIsolation_error {m : Expansion α} {e copy : Environment} {f : Failure}
    (h : m e.clone = (.error f, copy)) : inIsolation m e =
      (.error f, e.mapStore fun s => { s with inquiry := copy.store.inquiry }) := by
  simp only [inIsolation, h]

/-- Isolated work hangs on what the step does to the copy. -/
theorem inIsolation_congr {m m' : Expansion α} {e : Environment} (h : m e.clone = m' e.clone) :
    inIsolation m e = inIsolation m' e := by
  simp only [inIsolation, h]

/-! A step that gives a result gives it through its parts. -/

theorem bind_eq_ok {m : Expansion α} {k : α → Expansion β} {e after : Environment} {b : β}
    (h : (m >>= k) e = (.ok b, after)) :
    ∃ a between, m e = (.ok a, between) ∧ k a between = (.ok b, after) := by
  rcases hrun : m e with ⟨result, between⟩
  cases result with
  | ok a => exact ⟨a, between, rfl, (bind_ok hrun k).symm.trans h⟩
  | error f =>
      rw [bind_error hrun] at h
      cases h

theorem inBlock_eq_ok {o : Opening} {m : Expansion α} {e after : Environment} {a : α}
    (h : inBlock o m e = (.ok a, after)) : ∃ inner block last,
      e.enter o = .ok (inner, block) ∧ m inner = (.ok a, last) ∧ last.leave block = after := by
  cases henter : e.enter o with
  | error f =>
      rw [inBlock_error henter] at h
      cases h
  | ok entered =>
      obtain ⟨inner, block⟩ := entered
      rw [inBlock_ok henter] at h
      obtain ⟨hresult, hleave⟩ := Prod.mk.inj h
      exact ⟨inner, block, (m inner).2, rfl, Prod.ext hresult rfl, hleave⟩

theorem inIsolation_eq_ok {m : Expansion α} {e after : Environment} {a : α}
    (h : inIsolation m e = (.ok a, after)) :
    ∃ copy, m e.clone = (.ok a, copy) ∧ e.mapStore (·.adopt copy.store) = after := by
  rcases hcopy : m e.clone with ⟨result, copy⟩
  cases result with
  | ok b =>
      rw [inIsolation_ok hcopy] at h
      obtain ⟨hresult, hafter⟩ := Prod.mk.inj h
      exact ⟨copy, Prod.ext hresult rfl, hafter⟩
  | error f =>
      rw [inIsolation_error hcopy] at h
      cases h

/-! ## What a step restores -/

/-- Whether it fails or not, the step restores its environment. -/
def Restores (m : Expansion α) : Prop := ∀ e, Restored e (m e).2

namespace Restores

/-- What is restored after a run of the step. -/
theorem restored {m : Expansion α} (h : Restores m) {e e' : Environment}
    {result : Except Failure α} (hrun : m e = (result, e')) : Restored e e' := by
  have hm := h e
  rwa [hrun] at hm

theorem pure (a : α) : Restores (pure a : Expansion α) := fun e => Restored.refl e

theorem inspect (f : Environment → α) : Restores (inspect f) := fun e => Restored.refl e

theorem bind {m : Expansion α} {k : α → Expansion β} (hm : Restores m)
    (hk : ∀ a, Restores (k a)) : Restores (m >>= k) := by
  intro e
  rcases hrun : m e with ⟨result, e'⟩
  have hfirst : Restored e e' := hm.restored hrun
  cases result with
  | ok a =>
      rw [bind_ok hrun]
      exact hfirst.trans (hk a e')
  | error f =>
      rw [bind_error hrun]
      exact hfirst

/-- A step within a block restores the environment outside, also where the block
cannot be entered. -/
theorem inBlock (o : Opening) {m : Expansion α} (hm : Restores m) :
    Restores (inBlock o m) := by
  intro e
  cases henter : e.enter o with
  | error f =>
      rw [inBlock_error henter]
      exact Restored.refl e
  | ok entered =>
      obtain ⟨inner, block⟩ := entered
      rw [inBlock_ok henter]
      exact Restored.leave henter (hm inner)

/-- Isolated work adds messages at most, whatever it does to the copy. -/
theorem inIsolation (m : Expansion α) : Restores (inIsolation m) := by
  intro e
  unfold Expansion.inIsolation
  rcases m e.clone with ⟨result, copy⟩
  cases result with
  | ok a => exact Restored.adopt e copy.store
  | error f => exact Restored.inquire e copy.store.inquiry

end Restores

/-! ## What a step returns -/

/-- If the step gives a result, the result has the property. -/
def Returns (P : α → Prop) (m : Expansion α) : Prop := ∀ e e' a, m e = (.ok a, e') → P a

namespace Returns

theorem pure {P : α → Prop} {a : α} (h : P a) : Returns P (pure a) := by
  intro e e' b hrun
  cases hrun
  exact h

/-- A result comes from the second step, run on a result of the first. -/
theorem bind {P : α → Prop} {Q : β → Prop} {m : Expansion α} {k : α → Expansion β}
    (hm : Returns P m) (hk : ∀ a, P a → Returns Q (k a)) : Returns Q (m >>= k) := by
  intro e e'' b hrun
  obtain ⟨a, e', hfirst, hsecond⟩ := bind_eq_ok hrun
  exact hk a (hm e e' a hfirst) e' e'' b hsecond

theorem trivial (m : Expansion α) : Returns (fun _ => True) m := fun _ _ _ _ => True.intro

theorem inBlock {P : α → Prop} (o : Opening) {m : Expansion α} (hm : Returns P m) :
    Returns P (inBlock o m) := by
  intro e e' a hrun
  obtain ⟨inner, block, last, -, hinner, -⟩ := inBlock_eq_ok hrun
  exact hm inner last a hinner

/-- Isolated work gives what the step gives on the copy. -/
theorem inIsolation {P : α → Prop} {m : Expansion α} (hm : Returns P m) :
    Returns P (inIsolation m) := by
  intro e e' a hrun
  obtain ⟨copy, hcopy, -⟩ := inIsolation_eq_ok hrun
  exact hm e.clone copy a hcopy

/-- Results of a step for each element of a list. -/
theorem mapM {γ : Type} {P : β → Prop} {f : γ → Expansion β} :
    ∀ {l : List γ}, (∀ c ∈ l, Returns P (f c)) → Returns (∀ b ∈ ·, P b) (l.mapM f) := by
  intro l
  induction l with
  | nil =>
      intro _
      rw [List.mapM_nil]
      exact Returns.pure (by simp)
  | cons c l ih =>
      intro h
      rw [List.mapM_cons]
      refine Returns.bind (h c (by simp)) fun b hb => ?_
      refine Returns.bind (ih fun c' hc' => h c' (by simp [hc'])) fun bs hbs => ?_
      refine Returns.pure fun b' hb' => ?_
      rcases List.mem_cons.mp hb' with rfl | hmem
      · exact hb
      · exact hbs b' hmem

end Returns

/-! ## What a step maintains -/

/-- Whether it fails or not, the step keeps an invariant of the environment.  If it gives a result,
the result has a property, and if it fails, so has the failure. -/
def Maintains (I : Environment → Prop) (F : Failure → Prop) (P : α → Prop) (m : Expansion α) :
    Prop :=
  ∀ e, I e → I (m e).2 ∧ (∀ a, (m e).1 = .ok a → P a) ∧ ∀ f, (m e).1 = .error f → F f

namespace Maintains

variable {I : Environment → Prop} {F : Failure → Prop} {P : α → Prop} {Q : β → Prop}

theorem pure {a : α} (h : P a) : Maintains I F P (Pure.pure a) :=
  fun _ he => ⟨he, by rintro _ ⟨⟩; exact h, nofun⟩

theorem bind {m : Expansion α} {k : α → Expansion β} (hm : Maintains I F P m)
    (hk : ∀ a, P a → Maintains I F Q (k a)) : Maintains I F Q (m >>= k) := by
  intro e he
  obtain ⟨hkept, hresult, hfailure⟩ := hm e he
  rcases hrun : m e with ⟨result, e'⟩
  rw [hrun] at hkept hresult hfailure
  cases result with
  | ok a =>
      rw [bind_ok hrun]
      exact hk a (hresult a rfl) e' hkept
  | error f =>
      rw [bind_error hrun]
      exact ⟨hkept, nofun, by rintro _ ⟨⟩; exact hfailure f rfl⟩

/-- A step whose result does not matter before another one. -/
theorem andThen {m : Expansion α} {k : α → Expansion β} (hm : Maintains I F (fun _ => True) m)
    (hk : ∀ a, Maintains I F Q (k a)) : Maintains I F Q (m >>= k) :=
  bind hm fun a _ => hk a

theorem inspect {f : Environment → α} (h : ∀ e, I e → P (f e)) :
    Maintains I F P (inspect f) := fun e he => ⟨he, by rintro _ ⟨⟩; exact h e he, nofun⟩

theorem look (f : Environment → α) : Maintains I F (fun _ => True) (Expansion.inspect f) :=
  inspect fun _ _ => True.intro

theorem update {f : Store → Store} (h : ∀ e : Environment, I e → I (e.mapStore f)) :
    Maintains I F (fun _ => True) (update f) := fun e he => ⟨h e he, fun _ _ => True.intro, nofun⟩

/-- A step within a block.  What is kept when it is entered and when it is left is a matter of the
kind of block. -/
theorem inBlock {o : Opening} {m : Expansion α} (hm : Maintains I F P m)
    (hfailed : ∀ (e : Environment) f, e.enter o = .error f → F f)
    (hopen : ∀ (e inner : Environment) block, I e → e.enter o = .ok (inner, block) →
      I inner ∧ ∀ after : Environment, I after → I (after.leave block)) :
    Maintains I F P (inBlock o m) := by
  intro e he
  cases henter : e.enter o with
  | error f =>
      rw [inBlock_error henter]
      refine ⟨he, nofun, ?_⟩
      rintro _ ⟨⟩
      exact hfailed e f henter
  | ok entered =>
      obtain ⟨inner, block⟩ := entered
      rw [inBlock_ok henter]
      obtain ⟨hinner, hleave⟩ := hopen e inner block he henter
      obtain ⟨hkept, hresult, hfailure⟩ := hm inner hinner
      exact ⟨hleave _ hkept, hresult, hfailure⟩

/-- Results of a step for each element of a list. -/
theorem mapM {γ : Type} {f : γ → Expansion β} {l : List γ}
    (h : ∀ c ∈ l, Maintains I F Q (f c)) : Maintains I F (∀ b ∈ ·, Q b) (l.mapM f) := by
  induction l with
  | nil =>
      rw [List.mapM_nil]
      exact pure nofun
  | cons c l ih =>
      rw [List.mapM_cons]
      refine bind (h c (by simp)) fun b hb => ?_
      refine bind (ih fun c' hc' => h c' (by simp [hc'])) fun bs hbs => ?_
      exact pure (List.forall_mem_cons.mpr ⟨hb, hbs⟩)

/-- The nodes that an expander gives in each round. -/
theorem repeatFrom {P : List Node → Prop} (hnil : P [])
    (happend : ∀ {ns ms}, P ns → P ms → P (ns ++ ms)) {x : Expander} {body : List Node}
    {counter : String}
    (hassign : ∀ value, Maintains I F (fun _ => True) (Expansion.update (·.assign counter value)))
    (hx : Maintains I F P (x body)) :
    ∀ rounds done, Maintains I F P (repeatFrom x body counter done rounds) := by
  intro rounds
  induction rounds with
  | zero => exact fun _ => pure hnil
  | succ rounds ih =>
      intro done
      refine bind (hassign _) fun _ _ => ?_
      refine bind hx fun first hfirst => ?_
      refine bind (ih (done + 1)) fun others hothers => ?_
      exact pure (happend hfirst hothers)

end Maintains

/-! ## Primitive steps -/

/-- The steps that neither expand nodes nor enter a block: looking at the environment,
changing the store, looking for a file, and reading off how many rounds a repetition has.
The limit of rounds is looked at by the last of them only. -/
inductive Primitive : {α : Type} → Expansion α → Prop
  | lookup (name : String) : Primitive (inspect (·.store.lookup name))
  | holds (condition : String) : Primitive (inspect (·.store.holds condition))
  | callee (name : String) : Primitive (inspect (·.store.callee? name))
  | named (key : String) : Primitive (named? key)
  | count (text : String) (span : Span) : Primitive (iterationCount text span)
  | findFile (path : String) (span : Span) : Primitive (findFile path span)
  | warn (message : String) (kind : WarningKind) (span : Span) : Primitive (warn message kind span)
  | assign (name : String) (value : Value) : Primitive (update (·.assign name value))
  | record (key value : String) : Primitive (update (·.record key value))
  | define (f : Function) : Primitive (update (·.define f))
  | failAll (es : List Error) : Primitive (update (·.failAll es))

/-- Looking for a file notes paths, which are no part of what has to be restored. -/
theorem findFile_restores (path : String) (span : Span) : Restores (findFile path span) := by
  intro e
  have hasked : Restored e
      (e.mapStore (·.askFor (e.setting.files.unknown (e.setting.candidates path)))) :=
    Restored.inquire e _
  simp only [findFile]
  split <;> exact hasked

/-- Counting rounds looks at the limit and warns at most, so a property that passes on from steps
to what follows them is one of it if these two have it. -/
theorem iterationCount_of {P : ∀ α : Type, Expansion α → Prop}
    (hpure : ∀ {α : Type} (a : α), P α (pure a))
    (hbind : ∀ {α β : Type} {m : Expansion α} {k : α → Expansion β}, P α m → (∀ a, P β (k a)) →
      P β (m >>= k))
    (hlimit : P Int (inspect (·.setting.limits.iterations)))
    (hwarn : ∀ message kind span, P Unit (warn message kind span)) (text : String) (span : Span) :
    P Int (iterationCount text span) := by
  refine hbind hlimit fun limit => ?_
  cases roundsOf text limit with
  | exactly n => exact hpure _
  | limited wanted => exact hbind (hwarn _ _ _) fun _ => hpure limit

theorem iterationCount_restores (text : String) (span : Span) :
    Restores (iterationCount text span) :=
  iterationCount_of (P := @Restores) Restores.pure Restores.bind (Restores.inspect _)
    (fun _ _ _ e => Restored.warn e _) text span

theorem Primitive.restores {m : Expansion α} (h : Primitive m) : Restores m := by
  cases h with
  | lookup | holds | callee | named => exact Restores.inspect _
  | count text span => exact iterationCount_restores text span
  | findFile path span => exact findFile_restores path span
  | warn message kind span => exact fun e => Restored.warn e _
  | assign name value => exact fun e => Restored.assign e name value
  | record key value => exact fun e => Restored.record e key value
  | define f => exact fun e => Restored.define e f
  | failAll es => exact fun e => Restored.failAll e es

/-! ## Properties of steps -/

/-- A property of steps that the primitive ones have, and that putting steps together keeps,
as long as all of them work on one environment. -/
structure ClosedInPlace (P : ∀ α : Type, Expansion α → Prop) : Prop where
  pure : ∀ {α : Type} (a : α), P α (pure a)
  primitive : ∀ {α : Type} {m : Expansion α}, Primitive m → P α m
  bind : ∀ {α β : Type} {m : Expansion α} {k : α → Expansion β}, P α m → (∀ a, P β (k a)) →
    P β (m >>= k)
  inBlock : ∀ {α : Type} (o : Opening) {m : Expansion α}, P α m → P α (inBlock o m)

/-- A property of steps that the primitive ones have, and that every way of putting steps
together keeps. -/
structure Closed (P : ∀ α : Type, Expansion α → Prop) : Prop extends ClosedInPlace P where
  inIsolation : ∀ {α : Type} {m : Expansion α}, P α m → P α (inIsolation m)

theorem restores_closed : Closed @Restores where
  pure := Restores.pure
  primitive := Primitive.restores
  bind := Restores.bind
  inBlock := Restores.inBlock
  inIsolation _ := Restores.inIsolation _

end Livedoc.Expansion
