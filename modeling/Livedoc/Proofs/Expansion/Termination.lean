import Livedoc.Proofs.Expansion.Demand
import Mathlib.Data.Set.Finite.List
import Mathlib.Logic.Function.Iterate
import Mathlib.Logic.Relation

/-!
# Expansion terminates

The recursion of expansion leads from a task to tasks that are nested in it.  It is not
structural: the body of a function is kept in the environment, arguments and counts are
text that is read while expansion runs, and a file brings in further text.  `Task.Under`
says where nested tasks lie.  Either they are fragments of a node of the task, in the same
setting; or the task holds a call, the call is entered, and they lie inside it.

Every nested task is smaller (`Task.Under.smaller`): fragments have a smaller rank, and a
call takes one of the levels that are left.  As a task has finitely many nested tasks that
matter (`Task.exists_nested`), the recursion comes to its end at some depth, below which
anything could stand: `Task.exists_settled`.
-/

namespace Livedoc.Expansion

open Livedoc.Environment Livedoc.Source Livedoc.Tree Livedoc.Tree.Node

namespace Task

/-- The setting that a task starts in. -/
def setting (t : Task) : Setting := t.environment.setting

/-- A task lies directly under another one: it is a fragment of one of its nodes, in the same
setting, or it lies inside a call that is among its nodes and can be entered. -/
inductive Under (q p : Task) : Prop
  | fragment {n : Node} (hn : n ∈ p.nodes) (hfragment : q.nodes ∈ n.fragments)
      (hsetting : q.setting = p.setting)
  | call {c : Invocation} {inner : Setting} (hc : c.toNode ∈ p.nodes)
      (hcall : p.setting.call c.name c.namedTexts c.span = .ok inner)
      (hinside : inner.Inside q.setting)

/-- The settings that are passed through on a task, nested tasks apart: its own, and those
inside a call that is among its nodes and can be entered. -/
inductive Visits (p : Task) : Setting → Prop
  | own : p.Visits p.setting
  | call {c : Invocation} {inner t : Setting} (hc : c.toNode ∈ p.nodes)
      (hcall : p.setting.call c.name c.namedTexts c.span = .ok inner)
      (hinside : inner.Inside t) : p.Visits t

/-- What a task comes to hangs on what another one comes to: there are nested expansions
which are wrong about that one only, and with them the task comes to something else. -/
def Needs (p q : Task) : Prop :=
  ∃ x : Expander, (∀ t, t ≠ q → t.outcome x = t.outcome expandNodes) ∧
    p.outcome (unfold x) ≠ p.outcome expandNodes

/-! ## The measure -/

/-- The order of tasks: first the levels of calls that are left, then the rank of the
nodes. -/
def Smaller (q p : Task) : Prop :=
  Prod.Lex (· < ·) RankLt (q.setting.levels, rank q.nodes) (p.setting.levels, rank p.nodes)

theorem smaller_wf : WellFounded Smaller :=
  InvImage.wf _ (Prod.lex Nat.lt_wfRel ⟨RankLt, rankLt_wf⟩).wf

theorem Under.smaller {q p : Task} (h : q.Under p) : q.Smaller p := by
  cases h with
  | fragment hn hfragment hsetting =>
      rw [Smaller, hsetting]
      exact Prod.Lex.right _ (rank_lt_of_fragment hn hfragment)
  | call hc hcall hinside =>
      have hlevels := Setting.levels_of_call hcall
      apply Prod.Lex.left
      show q.setting.levels < p.setting.levels
      rw [hinside.levels]
      omega

/-! ## Nested tasks -/

/-- A demand that a task makes is decided by tasks under it: one that lies in a node is
such a task itself, and one for a call is decided by the tasks inside the call. -/
theorem exists_tasks_of_demand {p : Task} {d : Demand}
    (h : d.Within (.ofNodes p.nodes) (· = p.setting)) : ∃ ts : List Task,
      (∀ t ∈ ts, t.Under p) ∧ ∀ x : Expander,
        (∀ t ∈ ts, t.outcome x = t.outcome expandNodes) →
          (Meaning.of x).answer d = (Meaning.of expandNodes).answer d := by
  cases d with
  | nodes t =>
      obtain ⟨⟨n, hn, hfragment⟩, hsetting⟩ := h
      refine ⟨[t], ?_, fun x hx => hx t (by simp)⟩
      intro t' ht'
      obtain rfl := List.mem_singleton.mp ht'
      exact .fragment hn hfragment hsetting
  | call c e =>
      obtain ⟨hc, hsetting⟩ := h
      obtain ⟨ts, hts, hagree⟩ := exists_tasks_of_call expandNodes_restores c e
      refine ⟨ts, fun t ht => ?_, fun x hx => hagree x hx⟩
      obtain ⟨inner, hcall, hinside⟩ := hts t ht
      rw [show e.setting = p.setting from hsetting] at hcall
      exact .call hc hcall hinside

theorem exists_tasks_of_demands {p : Task} {ds : List Demand}
    (h : ∀ d ∈ ds, d.Within (.ofNodes p.nodes) (· = p.setting)) : ∃ ts : List Task,
      (∀ t ∈ ts, t.Under p) ∧ ∀ x : Expander,
        (∀ t ∈ ts, t.outcome x = t.outcome expandNodes) →
          ∀ d ∈ ds, (Meaning.of x).answer d = (Meaning.of expandNodes).answer d := by
  induction ds with
  | nil => exact ⟨[], by simp, fun x _ d hd => absurd hd (by simp)⟩
  | cons d ds ih =>
      obtain ⟨ts, hts, hagree⟩ := exists_tasks_of_demand (h d (by simp))
      obtain ⟨ts', hts', hagree'⟩ := ih fun d' hd' => h d' (by simp [hd'])
      refine ⟨ts ++ ts', ?_, fun x hx d' hd' => ?_⟩
      · intro t ht
        rcases List.mem_append.mp ht with ht | ht
        · exact hts t ht
        · exact hts' t ht
      · rcases List.mem_cons.mp hd' with rfl | hd'
        · exact hagree x fun t ht => hx t (List.mem_append_left _ ht)
        · exact hagree' x (fun t ht => hx t (List.mem_append_right _ ht)) d' hd'

/-- **Finitely many nested tasks decide a task.**  If the nested expansions are right about
them, then one level of expansion is right about the task. -/
theorem exists_nested (p : Task) : ∃ ts : List Task, (∀ t ∈ ts, t.Under p) ∧
    ∀ x : Expander, (∀ t ∈ ts, t.outcome x = t.outcome expandNodes) →
      p.outcome (unfold x) = p.outcome expandNodes := by
  have hkeeps : (Use.ofNodes p.nodes).Keeps (· = p.setting) := fun hblock => False.elim hblock
  obtain ⟨ds, hds, hlevel⟩ := (Composed.level p.nodes).exists_demands (P := (· = p.setting))
    (Meaning.of_restores expandNodes_restores _) hkeeps p.environment rfl
  obtain ⟨ts, hts, hagree⟩ := exists_tasks_of_demands hds
  refine ⟨ts, hts, fun x hx => ?_⟩
  calc p.outcome (unfold x)
      = p.outcome (unfold expandNodes) := hlevel (.of x) (hagree x hx)
    _ = p.outcome expandNodes := unfold_expandNodes p.nodes p.environment

theorem Needs.under {p q : Task} (h : p.Needs q) : q.Under p := by
  obtain ⟨ts, hts, hagree⟩ := p.exists_nested
  obtain ⟨x, hx, hne⟩ := h
  by_contra hnot
  refine hne (hagree x fun t ht => hx t ?_)
  rintro rfl
  exact hnot (hts t ht)

theorem finite_needs (p : Task) : {q | p.Needs q}.Finite := by
  obtain ⟨ts, -, hagree⟩ := p.exists_nested
  refine ts.finite_toSet.subset ?_
  rintro q ⟨x, hx, hne⟩
  by_contra hnot
  refine hne (hagree x fun t ht => hx t ?_)
  rintro rfl
  exact hnot ht

/-! ## Depth -/

/-- At a depth a task is settled: whatever is put in place of the expansions that are
nested deeper, the task comes to the same. -/
def Settled (depth : Nat) (t : Task) : Prop :=
  ∀ cut : Expander, t.outcome (unfold^[depth] cut) = t.outcome expandNodes

theorem Settled.mono {t : Task} {depth deeper : Nat} (h : t.Settled depth)
    (hle : depth ≤ deeper) : t.Settled deeper := by
  intro cut
  obtain ⟨more, rfl⟩ := Nat.exists_eq_add_of_le hle
  rw [Function.iterate_add_apply]
  exact h (unfold^[more] cut)

/-- Tasks that are settled at some depth each are settled at a common one. -/
theorem exists_common_depth {ts : List Task} (h : ∀ t ∈ ts, ∃ depth, t.Settled depth) :
    ∃ depth, ∀ t ∈ ts, t.Settled depth := by
  induction ts with
  | nil => exact ⟨0, by simp⟩
  | cons t ts ih =>
      obtain ⟨depth, hfirst⟩ := h t (by simp)
      obtain ⟨depth', hrest⟩ := ih fun t' ht' => h t' (by simp [ht'])
      refine ⟨max depth depth', fun t' ht' => ?_⟩
      rcases List.mem_cons.mp ht' with rfl | ht'
      · exact hfirst.mono (Nat.le_max_left _ _)
      · exact (hrest t' ht').mono (Nat.le_max_right _ _)

/-- **Every task is settled at some depth.**  By induction along the order of tasks: it is
settled one level above its nested tasks. -/
theorem exists_settled (p : Task) : ∃ depth, p.Settled depth := by
  induction p using smaller_wf.induction with
  | _ p ih =>
      obtain ⟨ts, hts, hagree⟩ := p.exists_nested
      obtain ⟨depth, hsettled⟩ := exists_common_depth fun t ht => ih t (hts t ht).smaller
      refine ⟨depth + 1, fun cut => ?_⟩
      rw [Function.iterate_succ_apply']
      exact hagree _ fun t ht => hsettled t ht cut

/-! ## Settings along a run -/

/-- A property of settings that opening a call, opening a file, and reading from a file do
not end. -/
structure Stable (P : Setting → Prop) : Prop where
  call : ∀ {s inner : Setting} {name : String} {named : Dictionary String} {span : Span},
    P s → s.call name named span = .ok inner → P inner
  including : ∀ {s inner : Setting} {path : Path} {display : String} {span : Span},
    P s → s.including path display span = .ok inner → P inner
  reading : ∀ {s : Setting} (path : Path) (text : String), P s → P (s.reading path text)

theorem Stable.inside {P : Setting → Prop} (hP : Stable P) {s t : Setting} (hs : P s)
    (h : s.Inside t) : P t := by
  induction h with
  | refl => exact hs
  | file _ hfile ih => exact hP.including ih hfile
  | source _ path text ih => exact hP.reading path text ih

theorem Under.visits {q p : Task} (h : q.Under p) : p.Visits q.setting := by
  cases h with
  | fragment hn hfragment hsetting => exact hsetting ▸ .own
  | call hc hcall hinside => exact .call hc hcall hinside

theorem Stable.visits {P : Setting → Prop} (hP : Stable P) {p : Task} {s : Setting}
    (hp : P p.setting) (h : p.Visits s) : P s := by
  cases h with
  | own => exact hp
  | call hc hcall hinside => exact hP.inside (hP.call hp hcall) hinside

/-- A stable property of the setting of a task holds of the settings of the tasks nested in
it, at any depth. -/
theorem Stable.nested {P : Setting → Prop} (hP : Stable P) {p q : Task} (hp : P p.setting)
    (h : Relation.ReflTransGen Under q p) : P q.setting := by
  induction h using Relation.ReflTransGen.head_induction_on with
  | refl => exact hp
  | head hunder _ ih => exact hP.visits ih hunder.visits

/-- Opening a call keeps the number of open calls within the limit, or within what it was
at first if that is more. -/
theorem stable_calls (limits : Limits) (bound : Int) :
    Stable fun s => s.limits = limits ∧ (s.calls.length : Int) ≤ max bound limits.callDepth where
  call := by
    rintro s inner name named span ⟨rfl, -⟩ hcall
    obtain ⟨hlt, rfl⟩ := call_eq_ok_iff.mp hcall
    refine ⟨rfl, ?_⟩
    simp only [Setting.enterCall, List.length_append, List.length_singleton]
    omega
  including := by
    rintro s inner path display span ⟨rfl, hle⟩ hfile
    obtain ⟨-, -, rfl⟩ := including_eq_ok_iff.mp hfile
    exact ⟨rfl, hle⟩
  reading := fun _ _ hs => hs

/-- However deep tasks are nested, no more calls are open than the limit allows, or than
were open at first. -/
theorem calls_le {p q : Task} {s : Setting} (h : Relation.ReflTransGen Under q p)
    (hs : q.Visits s) :
    (s.calls.length : Int) ≤ max (p.setting.calls.length : Int) p.setting.limits.callDepth := by
  have hstable := stable_calls p.setting.limits p.setting.calls.length
  have hq := hstable.nested ⟨rfl, by omega⟩ h
  exact (hstable.visits hq hs).2

/-! ## Documents -/

/-- Finitely many tasks, in the setting of the environment, decide what the nodes of a
document come to one by one. -/
theorem exists_tasks_of_each (ns : List Node) : ∀ e : Environment, ∃ ts : List Task,
    (∀ t ∈ ts, t.setting = e.setting) ∧
      ∀ x : Expander, (∀ t ∈ ts, t.outcome x = t.outcome expandNodes) →
        expandEach x ns e = expandEach expandNodes ns e := by
  induction ns with
  | nil => exact fun e => ⟨[], by simp, fun x _ => rfl⟩
  | cons n rest ih =>
      intro e
      rcases hrun : expandNodes [n] e with ⟨result, e'⟩
      have hsetting : e'.setting = e.setting := ((expandNodes_restores [n]).restored hrun).setting
      -- where the first node leaves off, as far as the others are concerned
      obtain ⟨next, hnext, hstep⟩ : ∃ next : Environment, next.setting = e.setting ∧
          ∀ x : Expander, x [n] e = (result, e') →
            expandEach x rest next = expandEach expandNodes rest next →
              expandEach x (n :: rest) e = expandEach expandNodes (n :: rest) e := by
        cases result with
        | ok nodes =>
            refine ⟨e', hsetting, fun x hx hothers => ?_⟩
            simp only [expandEach, hx, hrun, hothers]
        | error f =>
            refine ⟨e'.mapStore (·.fail f.toError), hsetting, fun x hx hothers => ?_⟩
            simp only [expandEach, hx, hrun, hothers]
      obtain ⟨ts, hts, hagree⟩ := ih next
      refine ⟨⟨[n], e⟩ :: ts, ?_, fun x hx => ?_⟩
      · intro t ht
        rcases List.mem_cons.mp ht with rfl | ht
        · rfl
        · exact (hts t ht).trans hnext
      · have hfirst : x [n] e = (result, e') := (hx ⟨[n], e⟩ (by simp)).trans hrun
        exact hstep x hfirst (hagree x fun t ht => hx t (by simp [ht]))

/-- A document is settled at some depth. -/
theorem exists_depth_of_document (e : Environment) (d : Document) :
    ∃ depth, ∀ cut : Expander, e.expandBy (unfold^[depth] cut) d = e.expand d := by
  obtain ⟨ts, -, hagree⟩ := exists_tasks_of_each d.children e
  obtain ⟨depth, hsettled⟩ := exists_common_depth fun t (_ : t ∈ ts) => t.exists_settled
  refine ⟨depth, fun cut => ?_⟩
  have heach := hagree (unfold^[depth] cut) fun t ht => hsettled t ht cut
  rw [Environment.expand, Environment.expandBy, Environment.expandBy, heach]

end Task

/-- **Expansion terminates.**  It is the recursion that `unfold` takes one level deep.  In
this recursion,

* a task needs finitely many others, and each of them is a fragment of one of its nodes or
  lies inside a call that it enters;
* tasks decrease along the way, in an order without infinite descent;
* on no task that is nested in another one, at any depth, are more calls open than the limit
  allows, those included that are open at the start (unless these are more already);
* nodes and documents come to what they come to at a finite depth, whatever is put in place
  of the expansions that are nested deeper. -/
theorem expansion_terminates :
    (∀ ns e, unfold expandNodes ns e = expandNodes ns e) ∧
    (∀ p : Task, {q | p.Needs q}.Finite) ∧
    (∀ p q : Task, p.Needs q → q.Under p) ∧
    (∀ p q : Task, q.Under p → q.Smaller p) ∧
    WellFounded Task.Smaller ∧
    (∀ (p q : Task) (s : Setting), Relation.ReflTransGen Task.Under q p → q.Visits s →
      (s.calls.length : Int) ≤ max (p.setting.calls.length : Int) p.setting.limits.callDepth) ∧
    (∀ ns e, ∃ depth, ∀ cut : Expander, (unfold^[depth] cut) ns e = expandNodes ns e) ∧
    (∀ (e : Environment) (d : Document),
      ∃ depth, ∀ cut : Expander, e.expandBy (unfold^[depth] cut) d = e.expand d) :=
  ⟨unfold_expandNodes, Task.finite_needs, fun _ _ h => h.under, fun _ _ h => h.smaller,
    Task.smaller_wf, fun _ _ _ h hs => Task.calls_le h hs,
    fun ns e => Task.exists_settled ⟨ns, e⟩, Task.exists_depth_of_document⟩

end Livedoc.Expansion
