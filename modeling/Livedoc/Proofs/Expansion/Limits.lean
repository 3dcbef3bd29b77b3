import Livedoc.Proofs.Expansion.Termination
import Livedoc.Proofs.Expansion.Unfolding

/-!
# Limits matter only where they are met

The limits are consulted in three places: where a call is entered, where a file is
entered, and where the rounds of a repetition are counted.  In the first two a limit that
is met makes the work fail, in the third it leaves a warning about performance.  A run
that neither fails nor leaves such a warning has met no limit, and then it comes out the
same under any wider limits.

Such a step `CarriesOver`.  Primitive steps do, blocks and isolated work pass it on, and
so does every composed step (`Composed.carriesOver`): nothing that a function does sees
the limits in any other way.  Nested expansions carry over by induction along the order of
tasks, since the levels of calls that are left differ between the two runs.  A document
passes over failures, so there it is the errors of the run that have to show that no limit
was met: `expand_withLimits`.
-/

/-!
## Failures that a document survives

A failure ends the work on a document only if a file is there and cannot be read.
Where there is no such file, for instance where all files are held in memory
(`Files.ofTexts_readable`), every failure is recorded and passed over, and the nodes
that follow are expanded (`expandNodes_recoverable`).
-/

namespace Livedoc

open Livedoc.Environment Livedoc.Source Livedoc.Tree Livedoc.Tree.Node

namespace Files

/-- Every file that is there can be read. -/
def Readable (files : Files) : Prop := ∀ path reason, files.look path ≠ some (.unreadable reason)

/-- Files that are held in memory can be read. -/
theorem ofTexts_readable (texts : List (Path × String)) : (ofTexts texts).Readable := by
  intro path reason h
  simp only [ofTexts, Option.some.injEq] at h
  cases hfound : texts.lookup (Path.resolve .root path) <;> simp [hfound] at h

theorem Readable.search_ne {files : Files} (h : files.Readable) (paths : List Path)
    (reason : String) : files.search paths ≠ .unreadable reason := by
  induction paths with
  | nil => simp [search]
  | cons path rest ih =>
      rw [search]
      cases hlook : files.look path with
      | none => exact ih
      | some content =>
          cases content with
          | text s => simp
          | absent => exact ih
          | unreadable why => exact absurd hlook (h path why)

end Files

namespace Environment

/-- A block that cannot be entered is too deep, or a file that is open already. -/
theorem isFatal_of_enter_eq_error {e : Environment} {o : Opening} {f : Failure}
    (h : e.enter o = .error f) : f.cause.isFatal = false := by
  cases o with
  | frame | source => cases h
  | call name named span =>
      simp only [enter, Setting.call] at h
      split at h
      · cases h
      · rename_i hcall
        split at hcall <;> cases hcall
        cases h
        rfl
  | file path display span =>
      simp only [enter, Setting.including] at h
      split at h
      · cases h
      · rename_i hfile
        cases h
        split at hfile
        · cases hfile; rfl
        · split at hfile <;> cases hfile
          rfl

/-- Entering a block changes neither the files nor the limits, and adds no message. -/
theorem enter_keeps {e inner : Environment} {o : Opening} {block : OpenBlock}
    (h : e.enter o = .ok (inner, block)) : inner.setting.files = e.setting.files ∧
      inner.setting.limits = e.setting.limits ∧ inner.store.report = e.store.report := by
  obtain ⟨locals, -, rfl, -⟩ | ⟨name, named, span, -, -, rfl, -⟩ |
    ⟨path, display, span, -, -, -, rfl, -⟩ | ⟨path, text, -, rfl, -⟩ := enter_cases h
  all_goals exact ⟨rfl, rfl, rfl⟩

end Environment

namespace Expansion

variable {α β : Type}

/-- Where every file can be read, the step fails only in ways that a document survives. -/
def Recoverable (m : Expansion α) : Prop :=
  ∀ e e' f, e.setting.files.Readable → m e = (.error f, e') → f.cause.isFatal = false

namespace Recoverable

theorem pure (a : α) : Recoverable (pure a : Expansion α) := by
  intro e e' f _ hrun
  cases hrun

theorem inspect (f : Environment → α) : Recoverable (inspect f) := by
  intro e e' f _ hrun
  cases hrun

theorem update (f : Store → Store) : Recoverable (update f) := by
  intro e e' f _ hrun
  cases hrun

theorem bind {m : Expansion α} {k : α → Expansion β} (hrestores : Restores m)
    (hm : Recoverable m) (hk : ∀ a, Recoverable (k a)) : Recoverable (m >>= k) := by
  intro e e'' f hfiles hrun
  rcases hfirst : m e with ⟨result, e'⟩
  cases result with
  | ok a =>
      have hsame : e'.setting = e.setting := (hrestores.restored hfirst).setting
      rw [bind_ok hfirst] at hrun
      exact hk a e' e'' f (hsame ▸ hfiles) hrun
  | error f' =>
      rw [bind_error hfirst] at hrun
      cases hrun
      exact hm e _ _ hfiles hfirst

theorem inBlock (o : Opening) {m : Expansion α} (hm : Recoverable m) :
    Recoverable (inBlock o m) := by
  intro e e' f hfiles hrun
  cases henter : e.enter o with
  | error f' =>
      rw [inBlock_error henter] at hrun
      cases hrun
      exact isFatal_of_enter_eq_error henter
  | ok entered =>
      obtain ⟨inner, block⟩ := entered
      have hinner : inner.setting.files.Readable := (enter_keeps henter).1 ▸ hfiles
      rw [inBlock_ok henter] at hrun
      have hresult : (m inner).1 = .error f := congrArg Prod.fst hrun
      exact hm inner _ f hinner (Prod.ext hresult rfl)

theorem inIsolation {m : Expansion α} (hm : Recoverable m) : Recoverable (inIsolation m) := by
  intro e e' f hfiles hrun
  unfold Expansion.inIsolation at hrun
  rcases hcopy : m e.clone with ⟨result, copy⟩
  rw [hcopy] at hrun
  cases result with
  | ok a => cases hrun
  | error f' =>
      cases hrun
      exact hm e.clone copy _ hfiles hcopy

theorem findFile (path : String) (span : Span) : Recoverable (findFile path span) := by
  intro e e' f hfiles hrun
  simp only [Expansion.findFile] at hrun
  split at hrun
  · cases hrun
  · cases hrun
  · rename_i reason hsearch
    exact absurd hsearch (hfiles.search_ne _ reason)

theorem primitive {m : Expansion α} (h : Primitive m) : Recoverable m := by
  cases h with
  | lookup | holds | callee | named => exact inspect _
  | count text span =>
      refine bind (Restores.inspect _) (inspect _) fun limit => ?_
      cases roundsOf text limit with
      | exactly n => exact pure _
      | limited wanted =>
          exact bind (Primitive.warn _ _ _).restores (update _) fun _ => pure limit
  | findFile path span => exact findFile path span
  | warn | assign | record | define | failAll => exact update _

end Recoverable

/-! ## Expansion -/

/-- Steps that restore the environment, so that the files can still be read after them, and fail
in recoverable ways only are put together to such steps. -/
theorem recoverable_closed : Closed fun _ m => Restores m ∧ Recoverable m where
  pure a := ⟨Restores.pure a, Recoverable.pure a⟩
  primitive h := ⟨h.restores, Recoverable.primitive h⟩
  bind hm hk :=
    ⟨Restores.bind hm.1 fun a => (hk a).1, Recoverable.bind hm.1 hm.2 fun a => (hk a).2⟩
  inBlock o _ hm := ⟨Restores.inBlock o hm.1, Recoverable.inBlock o hm.2⟩
  inIsolation hm := ⟨Restores.inIsolation _, Recoverable.inIsolation hm.2⟩

/-- **Where every file can be read, no failure ends the work on a document.** -/
theorem expandNodes_recoverable (ns : List Node) : Recoverable (expandNodes ns) :=
  fun e => (recoverable_closed.expander (recoverable_closed.callMeaning _) ns).2 e

end Expansion

end Livedoc

namespace Livedoc

open Livedoc.Environment Livedoc.Expansion Livedoc.Problem Livedoc.Source Livedoc.Tree
open Livedoc.Tree.Node

/-- Limits are wider than others if they allow as much or more of everything. -/
instance : LE Limits where
  le a b := a.callDepth ≤ b.callDepth ∧ a.includeDepth ≤ b.includeDepth ∧
    a.iterations ≤ b.iterations

namespace Environment

/-- The environment under other limits. -/
def withLimits (e : Environment) (limits : Limits) : Environment :=
  { e with setting := { e.setting with limits } }

@[simp] theorem withLimits_store (e : Environment) (limits : Limits) :
    (e.withLimits limits).store = e.store := rfl

@[simp] theorem mapStore_withLimits (e : Environment) (f : Store → Store) (limits : Limits) :
    (e.withLimits limits).mapStore f = (e.mapStore f).withLimits limits := rfl

@[simp] theorem clone_withLimits (e : Environment) (limits : Limits) :
    (e.withLimits limits).clone = e.clone.withLimits limits := rfl

@[simp] theorem leave_withLimits (e : Environment) (limits : Limits) (block : OpenBlock) :
    (e.withLimits limits).leave block = (e.leave block).withLimits limits := by
  cases block <;> rfl

/-- A block that can be entered can be entered under wider limits. -/
theorem enter_withLimits {e inner : Environment} {o : Opening} {block : OpenBlock}
    {limits : Limits} (hle : e.setting.limits ≤ limits) (h : e.enter o = .ok (inner, block)) :
    (e.withLimits limits).enter o = .ok (inner.withLimits limits, block) := by
  obtain ⟨locals, rfl, rfl, rfl⟩ | ⟨name, named, span, rfl, hlt, rfl, rfl⟩ |
    ⟨path, display, span, rfl, hlt, hnot, rfl, rfl⟩ | ⟨path, text, rfl, rfl, rfl⟩ := enter_cases h
  · rfl
  · have hwider : ((e.withLimits limits).setting.calls.length : Int) <
        (e.withLimits limits).setting.limits.callDepth := lt_of_lt_of_le hlt hle.1
    exact enter_call_of_lt hwider name named span
  · have hfile : (e.withLimits limits).setting.including path display span =
        .ok { (e.withLimits limits).setting with
          includes := (e.withLimits limits).setting.includes ++ [path] } :=
      including_eq_ok_iff.mpr ⟨lt_of_lt_of_le hlt hle.2.1, hnot, rfl⟩
    simp only [enter, hfile]
    rfl
  · rfl

/-! ## Messages that work adds -/

/-- The warnings that there are after some work and were not before. -/
def newWarnings (before after : Environment) : List Warning :=
  after.store.report.warnings.drop before.store.report.warnings.length

/-- The errors that there are after some work and were not before. -/
def newErrors (before after : Environment) : List Error :=
  after.store.report.errors.drop before.store.report.errors.length

/-- What comes after a longer beginning is what comes after a shorter one, less what lies
between them. -/
private theorem drop_of_prefix {γ : Type} {as bs cs : List γ} (h : as <+: bs) (h' : bs <+: cs) :
    cs.drop as.length = bs.drop as.length ++ cs.drop bs.length := by
  obtain ⟨more, rfl⟩ := h
  obtain ⟨rest, rfl⟩ := h'
  rw [List.append_assoc, List.drop_left, List.drop_left, ← List.append_assoc, List.drop_left]

theorem newWarnings_trans {e e' e'' : Environment} (h : Restored e e') (h' : Restored e' e'') :
    newWarnings e e'' = newWarnings e e' ++ newWarnings e' e'' :=
  drop_of_prefix h.warnings h'.warnings

theorem newErrors_trans {e e' e'' : Environment} (h : Restored e e') (h' : Restored e' e'') :
    newErrors e e'' = newErrors e e' ++ newErrors e' e'' :=
  drop_of_prefix h.errors h'.errors

theorem newWarnings_leave {e inner after : Environment} {o : Opening} {block : OpenBlock}
    (h : e.enter o = .ok (inner, block)) :
    newWarnings e (after.leave block) = newWarnings inner after := by
  rw [newWarnings, newWarnings, report_leave, (enter_keeps h).2.2]

theorem newWarnings_warn (e : Environment) (w : Warning) :
    newWarnings e (e.mapStore (·.warn w)) = [w] :=
  List.drop_left

theorem newErrors_fail (e : Environment) (err : Error) :
    newErrors e (e.mapStore (·.fail err)) = [err] :=
  List.drop_left

/-- What a copy warns about is warned about where the copy is taken over. -/
theorem newWarnings_adopt {e copy : Environment} :
    newWarnings e (e.mapStore (·.adopt copy.store)) = newWarnings e.clone copy := by
  show (e.store.report.warnings ++ newWarnings e.clone copy).drop e.store.report.warnings.length = _
  rw [List.drop_left]

/-- No repetition was cut short: none of the new warnings is about performance. -/
def Unhindered (before after : Environment) : Prop :=
  ∀ w ∈ newWarnings before after, w.kind ≠ .performance

theorem Unhindered.split {e e' e'' : Environment} (h : Restored e e') (h' : Restored e' e'')
    (hall : Unhindered e e'') : Unhindered e e' ∧ Unhindered e' e'' := by
  simp only [Unhindered, newWarnings_trans h h', List.mem_append] at hall
  exact ⟨fun w hw => hall w (.inl hw), fun w hw => hall w (.inr hw)⟩

end Environment

/-! ## Rounds -/

/-- A number of rounds that a limit allows is allowed by a wider one. -/
theorem roundsOf_of_le {text : String} {limit wider : Int} {n : Nat} (hle : limit ≤ wider)
    (h : roundsOf text limit = .exactly n) : roundsOf text wider = .exactly n := by
  unfold roundsOf at h ⊢
  cases hnumber : Decimal.parseNumber? text with
  | none => simpa only [hnumber] using h
  | some x =>
      cases hbinary : Decimal.Binary.ofFloat x with
      | nan => simpa only [hnumber, hbinary] using h
      | infinite negative =>
          simp only [hnumber, hbinary] at h ⊢
          cases negative
          · cases h
          · exact h
      | finite negative mantissa exponent =>
          simp only [hnumber, hbinary] at h ⊢
          by_cases hzero : (negative || decide (mantissa = 0)) = true
          · rw [if_pos hzero] at h ⊢
            exact h
          · rw [if_neg hzero] at h ⊢
            split at h
            · cases h
            · rename_i hfits
              rw [if_neg]
              · exact h
              · simp only [Bool.or_eq_true, decide_eq_true_eq, Bool.and_eq_true] at hfits ⊢
                grind

namespace Expansion

variable {α β : Type} {limits : Limits} {P Q : Setting → Prop}

/-- What the step does without meeting a limit, in a setting with a certain property, it
does under wider limits as well. -/
def CarriesOver (limits : Limits) (P : Setting → Prop) (m : Expansion α) : Prop :=
  ∀ e e' a, P e.setting → e.setting.limits ≤ limits → m e = (.ok a, e') → Unhindered e e' →
    m (e.withLimits limits) = (.ok a, e'.withLimits limits)

namespace CarriesOver

theorem pure (a : α) : CarriesOver limits P (pure a : Expansion α) := by
  intro e e' b _ _ hrun _
  cases hrun
  rfl

theorem bind {m : Expansion α} {k : α → Expansion β} (hmr : Restores m)
    (hkr : ∀ a, Restores (k a)) (hm : CarriesOver limits P m)
    (hk : ∀ a, CarriesOver limits P (k a)) : CarriesOver limits P (m >>= k) := by
  intro e e'' b hP hle hrun hfree
  obtain ⟨a, e', hfirst, hsecond⟩ := bind_eq_ok hrun
  have hbefore : Restored e e' := hmr.restored hfirst
  have hafter : Restored e' e'' := (hkr a).restored hsecond
  obtain ⟨hfree, hfree'⟩ := hfree.split hbefore hafter
  have hsame : e'.setting = e.setting := hbefore.setting
  rw [bind_ok (hm e e' a hP hle hfirst hfree)]
  exact hk a e' e'' b (hsame ▸ hP) (hsame ▸ hle) hsecond hfree'

/-- A step within a block carries over if it does in the settings that the block is entered
with. -/
theorem inBlock {o : Opening} {m : Expansion α}
    (hin : ∀ {e inner : Environment} {block : OpenBlock}, P e.setting →
      e.enter o = .ok (inner, block) → Q inner.setting)
    (hm : CarriesOver limits Q m) : CarriesOver limits P (inBlock o m) := by
  intro e e' a hP hle hrun hfree
  obtain ⟨inner, block, last, henter, hinner, rfl⟩ := inBlock_eq_ok hrun
  rw [Unhindered, newWarnings_leave henter] at hfree
  have hlimits : inner.setting.limits ≤ limits := (enter_keeps henter).2.1 ▸ hle
  have hwide := hm inner last a (hin hP henter) hlimits hinner hfree
  rw [inBlock_ok (enter_withLimits hle henter), hwide, leave_withLimits]

theorem inIsolation {m : Expansion α} (hm : CarriesOver limits P m) :
    CarriesOver limits P (inIsolation m) := by
  intro e e' a hP hle hrun hfree
  obtain ⟨copy, hcopy, rfl⟩ := inIsolation_eq_ok hrun
  rw [Unhindered, newWarnings_adopt] at hfree
  have hwide := hm e.clone copy a hP hle hcopy hfree
  rw [← clone_withLimits] at hwide
  rw [inIsolation_ok hwide]
  rfl

/-- Asking for more rounds than the limit allows leaves a warning about performance, so
where there is none the limit was not met. -/
theorem iterationCount (text : String) (span : Span) :
    CarriesOver limits P (iterationCount text span) := by
  intro e e' n _ hle hrun hfree
  unfold Livedoc.iterationCount at hrun ⊢
  rw [bind_ok (inspect_run _ _)] at hrun ⊢
  cases hrounds : roundsOf text e.setting.limits.iterations with
  | exactly k =>
      rw [hrounds] at hrun
      cases hrun
      have hwide : roundsOf text limits.iterations = .exactly k := roundsOf_of_le hle.2.2 hrounds
      simp only [withLimits, hwide]
      rfl
  | limited wanted =>
      rw [hrounds] at hrun
      cases hrun
      rw [Unhindered, newWarnings_warn] at hfree
      exact absurd rfl (hfree _ (List.mem_singleton.mpr rfl))

theorem primitive {m : Expansion α} (h : Primitive m) : CarriesOver limits P m := by
  cases h with
  | count text span => exact iterationCount text span
  | findFile path span =>
      intro e e' a _ _ hrun _
      have hsame : findFile path span (e.withLimits limits) =
          ((findFile path span e).1, (findFile path span e).2.withLimits limits) := by
        unfold findFile
        rw [show (e.withLimits limits).setting.searchInclude path =
          e.setting.searchInclude path from rfl]
        cases e.setting.searchInclude path <;> rfl
      rw [hsame, hrun]
  | _ =>
      intro e e' a _ _ hrun _
      cases hrun
      rfl

end CarriesOver

/-- **A composed step carries over** if the expansions that it asks for do. -/
theorem Composed.carriesOver {u : Use} {x : Meaning} (hx : x.Restores u) (hP : u.Keeps P)
    (hnodes : ∀ ns, u.nodes ns → CarriesOver limits P (x.nodes ns))
    (hcall : ∀ c, u.call c → CarriesOver limits P (x.call c)) {m : Meaning → Expansion α}
    (h : Composed u m) : CarriesOver limits P (m x) := by
  induction h with
  | pure a => exact CarriesOver.pure a
  | primitive h => exact CarriesOver.primitive h
  | bind hm hk ihm ihk =>
      exact CarriesOver.bind (hm.restores hx) (fun a => (hk a).restores hx) ihm ihk
  | nodes h => exact hnodes _ h
  | call h => exact hcall _ h
  | inBlock h _ ih => exact CarriesOver.inBlock (hP h) ih
  | inIsolation _ _ ih => exact CarriesOver.inIsolation ih

/-! ## Expansion -/

/-- A call carries over if the tasks within it do. -/
theorem expandCall_carriesOver {s : Setting} {c : Invocation}
    (h : ∀ inner, s.call c.name c.namedTexts c.span = .ok inner →
      ∀ ns, CarriesOver limits inner.Inside (expandNodes ns)) :
    CarriesOver limits (· = s) (expandCall expandNodes c) := by
  intro e e' a hs hle hrun hfree
  cases hfound : e.store.callee? c.name with
  | none =>
      rw [expandCall_unknown hfound] at hrun
      have hwide : (e.withLimits limits).store.callee? c.name = none := hfound
      rw [expandCall_unknown hwide]
      cases hrun
      rfl
  | some callee =>
      rw [expandCall_known hfound] at hrun
      have hwide : (e.withLimits limits).store.callee? c.name = some callee := hfound
      rw [expandCall_known hwide]
      cases hcall : s.call c.name c.namedTexts c.span with
      | error f =>
          have henter : e.enter (.call c.name c.namedTexts c.span) = .error f := by
            simp only [enter, hs, hcall]
          rw [inBlock_error henter] at hrun
          cases hrun
      | ok inner =>
          have hrestores : (Meaning.of expandNodes).Restores .inCall :=
            Meaning.of_restores expandNodes_restores .inCall
          have hcallee : CarriesOver limits inner.Inside (callee.run expandNodes c) :=
            (Composed.callee c callee).carriesOver hrestores (Use.inCall_keeps inner)
              (fun ns _ => h inner hcall ns) fun _ hnone => False.elim hnone
          refine CarriesOver.inBlock (P := (· = s)) ?_ hcallee e e' a hs hle hrun hfree
          rintro e inner' block rfl henter
          obtain ⟨setting, hsetting, rfl, -⟩ := enter_call_eq_ok henter
          obtain rfl : inner = setting := by simpa [hcall] using hsetting
          exact .refl

/-- Over all tasks: expanding nodes carries over. -/
theorem expandNodes_carriesOver (p : Task) :
    CarriesOver limits (· = p.setting) (expandNodes p.nodes) := by
  induction p using Task.smaller_wf.induction with
  | _ p ih =>
      intro e e' a hs hle hrun hfree
      rw [← unfold_expandNodes] at hrun ⊢
      refine (Composed.level p.nodes).carriesOver (P := (· = p.setting))
        (Meaning.of_restores expandNodes_restores _) (fun hblock => False.elim hblock)
        ?_ ?_ e e' a hs hle hrun hfree
      · rintro cs ⟨n, hn, hcs⟩
        have hunder : Task.Under ⟨cs, p.environment⟩ p := .fragment hn hcs rfl
        exact ih _ hunder.smaller
      · intro c hc
        refine expandCall_carriesOver fun inner hcall ns => ?_
        intro e e' a hinside
        have hunder : Task.Under ⟨ns, e⟩ p := .call hc hcall hinside
        exact ih _ hunder.smaller e e' a rfl

/-- The nodes of a document come to the same under wider limits. -/
theorem expandEach_withLimits (ns : List Node) : ∀ e : Environment,
    e.setting.files.Readable → e.setting.limits ≤ limits →
      Unhindered e (expandEach expandNodes ns e).2 →
      (∀ err ∈ newErrors e (expandEach expandNodes ns e).2, err.kind ≠ .semantic) →
        expandEach expandNodes ns (e.withLimits limits) =
          ((expandEach expandNodes ns e).1,
            (expandEach expandNodes ns e).2.withLimits limits) := by
  induction ns with
  | nil =>
      intro e _ _ _ _
      rfl
  | cons n rest ih =>
      intro e hfiles hle hfree herrors
      rcases hrun : expandNodes [n] e with ⟨result, e'⟩
      have hfirst : Restored e e' := (expandNodes_restores [n]).restored hrun
      cases result with
      | ok nodes =>
          simp only [expandEach, hrun] at hfree herrors ⊢
          have hrest : Restored e' (expandEach expandNodes rest e').2 := expandEach_restored rest e'
          obtain ⟨hfree, hfree'⟩ := hfree.split hfirst hrest
          rw [newErrors_trans hfirst hrest] at herrors
          have hwide : expandNodes [n] (e.withLimits limits) = (.ok nodes, e'.withLimits limits) :=
            expandNodes_carriesOver ⟨[n], e⟩ e e' nodes rfl hle hrun hfree
          rw [hwide]
          simp only
          rw [ih e' (hfirst.setting ▸ hfiles) (hfirst.setting ▸ hle) hfree'
            fun err herr => herrors err (List.mem_append_right _ herr)]
      | error f =>
          -- the failure would be recorded as an error of the document
          have hrecoverable : f.cause.isFatal = false :=
            expandNodes_recoverable [n] e e' f hfiles hrun
          simp only [expandEach, hrun, hrecoverable, Bool.false_eq_true, if_false] at herrors
          have hrecorded : Restored e' (e'.mapStore (·.fail f.toError)) := Restored.failAll e' _
          have hrest := expandEach_restored rest (e'.mapStore (·.fail f.toError))
          rw [newErrors_trans hfirst (hrecorded.trans hrest), newErrors_trans hrecorded hrest,
            newErrors_fail] at herrors
          exact absurd rfl (herrors f.toError (by simp))

/-- **Limits matter only where they are met.**  Where every file can be read, for instance
because all of them are held in memory, let expanding a document record no semantic error
and no warning about performance.  Then under any wider limits the same document comes of
it, and the same environment but for the limits: the same variables, functions and
metadata, and the same warnings and errors. -/
theorem expand_withLimits (e : Environment) (d : Document) (limits : Limits)
    (hfiles : e.setting.files.Readable) (hle : e.setting.limits ≤ limits)
    (hwarnings : ∀ w ∈ newWarnings e (e.expand d).2, w.kind ≠ .performance)
    (herrors : ∀ err ∈ newErrors e (e.expand d).2, err.kind ≠ .semantic) :
    (e.withLimits limits).expand d = ((e.expand d).1, (e.expand d).2.withLimits limits) := by
  have heach := expandEach_withLimits d.children e hfiles hle hwarnings herrors
  simp only [Environment.expand, Environment.expandBy, heach]

/-- An environment in which one call may be open and one file besides the document. -/
def narrowEnvironment : Environment :=
  .create "" "d" none [] (.ofTexts [(.ofText "/a", "hello")]) ⟨1, 2, 0⟩ []
    { year := 2024, month := 3, day := 9 }

/-- A document that includes a file. -/
def includingDocument : Document := ⟨[.call "include" [⟨"a", .unknown⟩] [] [] .unknown], .unknown⟩

/-- Including a file uses both limits up and meets neither. -/
theorem expand_withLimits_narrow :
    (narrowEnvironment.withLimits {}).expand includingDocument =
      ((narrowEnvironment.expand includingDocument).1,
        (narrowEnvironment.expand includingDocument).2.withLimits {}) := by
  have hnone : newWarnings narrowEnvironment (narrowEnvironment.expand includingDocument).2 = [] ∧
      newErrors narrowEnvironment (narrowEnvironment.expand includingDocument).2 = [] := by
    decide +kernel
  exact expand_withLimits narrowEnvironment includingDocument {} (Files.ofTexts_readable _)
    ⟨by decide, by decide, by decide⟩ (by simp [hnone.1]) (by simp [hnone.2])

end Expansion

end Livedoc
