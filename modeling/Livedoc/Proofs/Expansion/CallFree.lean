import Livedoc.Proofs.Environment.Restored
import Livedoc.Proofs.Expansion.Isolation
import Mathlib.Tactic.Choose

/-!
# Texts without calls

A text without calls can refer to variables, and that is all it can do. Resolving it gives a
text that hangs on the variables alone and leaves no trace but warnings about variables that
are missing (`resolveText_reads`). So it does not matter when it is resolved, as long as the
variables are the same.

An isolated include whose arguments are such texts leaves no trace but messages, whether it
comes to its end, breaks off, or finds no file (`expandNodes_isolated_untouched`).
-/

namespace Livedoc

open Livedoc.Environment Livedoc.Expansion Livedoc.Problem Livedoc.Source Livedoc.Tree
open Livedoc.Tree.Node

/-! ## Steps that read variables -/

/-- The store with further warnings. -/
def Store.warnAll (s : Store) (ws : List Warning) : Store :=
  { s with report := { s.report with warnings := s.report.warnings ++ ws } }

namespace Expansion

variable {α β : Type}

/-- Whether a step reads variables and does no more than warn: what it gives and what it warns
about hang on the variables alone. -/
def ReadsVariables (m : Expansion α) : Prop :=
  ∃ f : (String → Option Value) → α × List Warning,
    ∀ e, m e = (.ok (f e.store.lookup).1, e.mapStore (·.warnAll (f e.store.lookup).2))

namespace ReadsVariables

theorem mapStore_warnAll_nil (e : Environment) : e.mapStore (·.warnAll []) = e := by
  simp [mapStore, Store.warnAll]

theorem mapStore_warnAll_append (e : Environment) (ws ws' : List Warning) :
    (e.mapStore (·.warnAll ws)).mapStore (·.warnAll ws') = e.mapStore (·.warnAll (ws ++ ws')) := by
  simp [mapStore, Store.warnAll]

theorem inspect (g : (String → Option Value) → α) :
    ReadsVariables (inspect fun e => g e.store.lookup) :=
  ⟨fun vars => (g vars, []), fun e => by rw [mapStore_warnAll_nil]; rfl⟩

theorem pure (a : α) : ReadsVariables (pure a : Expansion α) := inspect fun _ => a

theorem warn (message : String) (kind : WarningKind) (span : Span) :
    ReadsVariables (warn message kind span) :=
  ⟨fun _ => ((), [⟨message, kind, span⟩]), fun _ => rfl⟩

theorem bind {m : Expansion α} {k : α → Expansion β} (hm : ReadsVariables m)
    (hk : ∀ a, ReadsVariables (k a)) : ReadsVariables (m >>= k) := by
  obtain ⟨f, hf⟩ := hm
  choose g hg using hk
  refine ⟨fun vars => ((g (f vars).1 vars).1, (f vars).2 ++ (g (f vars).1 vars).2), fun e => ?_⟩
  rw [bind_ok (hf e), hg, mapStore_warnAll_append]
  -- warnings do not change the variables
  rfl

theorem mapM {γ : Type} {f : γ → Expansion α} :
    ∀ {l : List γ}, (∀ c ∈ l, ReadsVariables (f c)) → ReadsVariables (l.mapM f) := by
  intro l
  induction l with
  | nil =>
      intro _
      rw [List.mapM_nil]
      exact pure []
  | cons c l ih =>
      intro h
      rw [List.mapM_cons]
      exact bind (h c (by simp)) fun a => bind (ih fun c' hc' => h c' (by simp [hc'])) fun as => pure _

end ReadsVariables

end Expansion

/-! ## Expanding nodes without calls -/

namespace Tree.Node

/-- A node without a call and without a repetition in it. -/
def Reads (n : Node) : Prop := ∀ m ∈ n.walk, m.isCall = false ∧ m.isLoop = false

theorem reads_of_fragment {n : Node} {cs : List Node} (hn : n.Reads) (h : cs ∈ n.fragments) :
    ∀ m ∈ cs, m.Reads := by
  rcases fragment_cases h with hsub | ⟨hloop, -⟩
  · intro m hm k hk
    exact hn k (hsub.subset (List.mem_cons_of_mem n (mem_walkAll.mpr ⟨m, hm, hk⟩)))
  · rw [(hn n n.mem_walk_self).2] at hloop
    cases hloop

end Tree.Node

namespace Expansion

theorem expandReference_reads (name : String) (span : Span) :
    ReadsVariables (expandReference name span) := by
  refine ReadsVariables.bind (ReadsVariables.inspect fun vars => vars name) fun value => ?_
  cases value with
  | some value => exact .pure _
  | none => exact .bind (.warn _ _ _) fun _ => .pure _

/-- Whether a condition holds where the variables have these values. -/
def holdsWith (vars : String → Option Value) (condition : String) : Bool :=
  let cs := Text.trim condition.toList
  if cs.head? = some '.' then
    ((vars (String.ofList (Text.trim cs.tail))).map Value.isTruthy).getD false
  else isTruthyText (String.ofList cs)

theorem holds_eq (s : Store) (condition : String) :
    s.holds condition = holdsWith s.lookup condition := by
  unfold Store.holds holdsWith
  split
  · next name hname =>
      rw [hname]
      exact (if_pos rfl).symm
  · next hother =>
      refine (if_neg fun hhead => ?_).symm
      obtain ⟨rest, hrest⟩ := List.head?_eq_some_iff.mp hhead
      exact hother rest hrest

/-- A condition is read off the variables. -/
theorem holds_reads (condition : String) :
    ReadsVariables (inspect (·.store.holds condition)) := by
  simp only [holds_eq]
  exact ReadsVariables.inspect fun vars => holdsWith vars condition

theorem expandNode_reads {x : Meaning} {resolve : String → Expansion String} {n : Node}
    (hn : n.Reads) (hnodes : ∀ cs ∈ n.fragments, ReadsVariables (x.nodes cs)) :
    ReadsVariables (expandNode x resolve n) := by
  have hself := hn n n.mem_walk_self
  cases n with
  | table headers rows alignment s =>
      refine .bind (.mapM fun cell hcell => hnodes cell (List.mem_append_left _ hcell)) fun heads => ?_
      refine .bind (.mapM fun cells hmem => .mapM fun cell hcell => hnodes cell ?_) fun cells => .pure _
      exact List.mem_append_right _ (List.mem_flatten.mpr ⟨cells, hmem, hcell⟩)
  | call => cases hself.1
  | loop => cases hself.2
  | reference name s => exact expandReference_reads name s
  | conditional condition consequent alternative s =>
      refine .bind (holds_reads condition) fun holds => ?_
      cases holds
      · exact hnodes alternative (by simp [fragments])
      · exact hnodes consequent (by simp [fragments])
  | text | code | math | image | lineBreak | thematicBreak => exact .pure _
  | _ => exact .bind (hnodes _ (List.mem_singleton.mpr rfl)) fun cs => .pure _

theorem each_reads {f : Node → Expansion (List Node)} :
    ∀ {ns : List Node}, (∀ n ∈ ns, ReadsVariables (f n)) → ReadsVariables (each f ns) := by
  intro ns
  induction ns with
  | nil => exact fun _ => .pure []
  | cons n rest ih =>
      intro h
      refine .bind (h n (by simp)) fun first => ?_
      exact .bind (ih fun m hm => h m (by simp [hm])) fun others => .pure _

/-- **Expanding nodes without calls reads variables.** -/
theorem expandNodes_reads : ∀ ns : List Node, (∀ n ∈ ns, n.Reads) →
    ReadsVariables (expandNodes ns) := by
  intro ns
  induction ns using fragment_induction with
  | h ns ih =>
      intro hns
      have hlevel : unfold expandNodes ns = expandNodes ns := funext (unfold_expandNodes ns)
      rw [← hlevel]
      refine each_reads fun n hn => expandNode_reads (hns n hn) fun cs hcs => ?_
      exact ih n hn cs hcs (reads_of_fragment (hns n hn) hcs)

end Expansion

/-- Whether a text holds no call. -/
def CallFree (raw : String) : Prop := ∀ n ∈ walkAll (Document.readLine raw), n.isCall = false

instance (raw : String) : Decidable (CallFree raw) :=
  inferInstanceAs (Decidable (∀ n ∈ walkAll (Document.readLine raw), n.isCall = false))

namespace Expansion

variable {α β : Type}

/-- **Resolving a text without calls reads variables.** -/
theorem resolveText_reads {raw : String} (h : CallFree raw) :
    ReadsVariables (resolveText expandNodes raw) := by
  have hnodes : ∀ n ∈ Document.readLine raw, n.Reads := fun n hn m hm =>
    ⟨h m (mem_walkAll.mpr ⟨n, hn, hm⟩), Document.readLine_loopFree raw n hn m hm⟩
  unfold resolveText
  split
  · exact .bind (expandNodes_reads _ hnodes) fun ns => .pure _
  · exact .pure raw

end Expansion

/-! ## Arguments without calls -/

/-- Whether no argument of a call holds a call. -/
structure Invocation.CallFreeArguments (c : Invocation) : Prop where
  positional : ∀ a ∈ c.arguments, CallFree a.content
  named : ∀ a ∈ c.named, CallFree a.value.content

namespace Expansion

theorem strippedArgument_reads {c : Invocation} (h : c.CallFreeArguments) (index : Nat) :
    ReadsVariables (strippedArgument expandNodes c index) := by
  refine ReadsVariables.bind ?_ fun text => .pure _
  unfold argumentText
  cases ha : c.arguments[index]? with
  | some a => exact resolveText_reads (h.positional a (List.mem_of_getElem? ha))
  | none => exact .pure ""

/-! ## Steps that leave no trace -/

/-- Under these named arguments and variables the step leaves no trace but messages, whether
it fails or not, and a result has the property. -/
def Traceless (named : Dictionary String) (vars : String → Option Value) (P : α → Prop)
    (m : Expansion α) : Prop :=
  ∀ e, e.setting.named = named → e.store.lookup = vars →
    Untouched e (m e).2 ∧ ∀ a, (m e).1 = .ok a → P a

namespace Traceless

variable {named : Dictionary String} {vars : String → Option Value}
variable {P : α → Prop} {Q : β → Prop}

theorem pure {a : α} (h : P a) : Traceless named vars P (pure a) :=
  fun e _ _ => ⟨.refl e, fun _ hresult => Except.ok.inj hresult ▸ h⟩

theorem of_reads {m : Expansion α} (h : ReadsVariables m) :
    Traceless named vars (fun _ => True) m := by
  obtain ⟨f, hf⟩ := h
  intro e _ _
  rw [hf e]
  exact ⟨⟨rfl, rfl, rfl, rfl, rfl, List.prefix_append _ _, List.prefix_refl _⟩, fun _ _ => trivial⟩

theorem bind {m : Expansion α} {k : α → Expansion β} (hm : Traceless named vars P m)
    (hk : ∀ a, P a → Traceless named vars Q (k a)) : Traceless named vars Q (m >>= k) := by
  intro e hnamed hvars
  obtain ⟨hfirst, hresult⟩ := hm e hnamed hvars
  rcases hrun : m e with ⟨result, e'⟩
  rw [hrun] at hfirst hresult
  cases result with
  | ok a =>
      obtain ⟨hsecond, hlast⟩ := hk a (hresult a rfl) e' (hfirst.setting ▸ hnamed)
        (hfirst.lookup.trans hvars)
      rw [bind_ok hrun]
      exact ⟨hfirst.trans hsecond, hlast⟩
  | error f =>
      rw [bind_error hrun]
      exact ⟨hfirst, fun _ h => nomatch h⟩

theorem findFile (path : String) (span : Span) :
    Traceless named vars (fun _ => True) (findFile path span) := by
  intro e _ _
  have hasked : Untouched e
      (e.mapStore (·.askFor (e.setting.files.unknown (e.setting.candidates path)))) :=
    .inquire e _
  refine ⟨?_, fun _ _ => trivial⟩
  simp only [Expansion.findFile]
  split <;> exact hasked

/-- Isolated work leaves no trace, whatever it does to the copy. -/
theorem inIsolation (m : Expansion α) : Traceless named vars (fun _ => True) (inIsolation m) := by
  intro e _ _
  refine ⟨?_, fun _ _ => trivial⟩
  rcases hrun : m e.clone with ⟨result, copy⟩
  cases result with
  | ok a =>
      rw [inIsolation_ok hrun]
      exact .adopt e copy.store
  | error f =>
      rw [inIsolation_error hrun]
      exact .inquire e copy.store.inquiry

end Traceless

/-! ## Isolated includes -/

/-- An include whose file is expanded in isolation, or one that is refused. -/
def Inclusion.IsIsolated : Inclusion → Prop
  | .refused _ => True
  | .file _ _ _ isolated => isolated = true

/-- Whether a call asks for isolation: its named argument is a text that counts as true where
it is resolved in the environment of the call. -/
def AsksForIsolation (c : Invocation) (e : Environment) : Prop :=
  ∃ raw text, c.namedTexts.get? "isolated" = some raw ∧
    (resolveText expandNodes raw e).1 = .ok text ∧ isTruthyText text = true

variable {c : Invocation} {e : Environment}

/-- The named argument comes to the same wherever the variables are the same. -/
theorem namedText_isolated (hfree : c.CallFreeArguments) (hisolated : AsksForIsolation c e) :
    Traceless c.namedTexts e.store.lookup
      (fun given => isTruthyText (given.getD "") = true) (namedText? expandNodes "isolated") := by
  obtain ⟨raw, text, hraw, htext, htrue⟩ := hisolated
  obtain ⟨a, ha, rfl⟩ := c.mem_named_of_get? hraw
  obtain ⟨f, hf⟩ := resolveText_reads (hfree.named a ha)
  have hvalue : (f e.store.lookup).1 = text := by
    rw [hf e] at htext
    exact Except.ok.inj htext
  intro e' hnamed hvars
  have hrun : namedText? expandNodes "isolated" e' =
      (.ok (some text), e'.mapStore (·.warnAll (f e.store.lookup).2)) := by
    have hgiven : named? "isolated" e' = (.ok (some a.value.content), e') := by
      rw [named?, inspect_run, hnamed, hraw]
    rw [namedText?, bind_ok hgiven]
    refine (bind_ok (hf e') _).trans ?_
    rw [hvars, hvalue]
    rfl
  rw [hrun]
  refine ⟨⟨rfl, rfl, rfl, rfl, rfl, List.prefix_append _ _, List.prefix_refl _⟩, ?_⟩
  rintro given hgiven
  rw [← Except.ok.inj hgiven]
  exact htrue

theorem inclusionOf_traceless (hfree : c.CallFreeArguments) (hisolated : AsksForIsolation c e) :
    Traceless c.namedTexts e.store.lookup Inclusion.IsIsolated (inclusionOf expandNodes c) := by
  have hwarn (message : String) (content : List Node) :
      Traceless c.namedTexts e.store.lookup Inclusion.IsIsolated
        (warn message .style c.firstSpan >>= fun _ => pure (.refused content)) :=
    .bind (.of_reads (.warn _ _ _)) fun _ _ => .pure trivial
  unfold inclusionOf
  refine .bind (.of_reads (strippedArgument_reads hfree 0)) fun path _ => ?_
  split
  · exact hwarn _ []
  · refine .bind (.findFile path c.firstSpan) fun found _ => ?_
    cases found with
    | none => exact hwarn _ _
    | some file => exact .bind (namedText_isolated hfree hisolated) fun given h => .pure h

theorem inclusion_traceless (hfree : c.CallFreeArguments) (hisolated : AsksForIsolation c e) :
    Traceless c.namedTexts e.store.lookup (fun _ => True)
      (inclusionOf expandNodes c >>= Inclusion.content expandNodes c) := by
  refine .bind (inclusionOf_traceless hfree hisolated) fun i hi => ?_
  match i, hi with
  | .refused content, _ => exact .pure trivial
  | .file path display source true, _ =>
      exact Traceless.inIsolation (fileNodes expandNodes c path display source)

/-- **An isolated include leaves no trace but messages.** Let no argument of a call of the
built-in function hold a call, and let it ask for isolation. Whether expanding the call gives
nodes or breaks off, wherever it does, the setting afterwards is the one before, with the open
calls and files and the named arguments, and so are the variables, the frames, the metadata and
the functions; messages were added at most. If it gives nodes and comes to a file, they are
those of the copy that the file was expanded in. -/
theorem expandNodes_isolated_untouched
    (hcallee : e.store.callee? c.name = some (.builtin .inclusion))
    (hfree : c.CallFreeArguments) (hisolated : AsksForIsolation c e) :
    let after := expandNodes [c.toNode] e
    (after.2.setting = e.setting ∧ after.2.store.globals = e.store.globals ∧
      after.2.store.frames = e.store.frames ∧ after.2.store.metadata = e.store.metadata ∧
      after.2.store.functions = e.store.functions ∧
      e.store.report.warnings <+: after.2.store.report.warnings ∧
      e.store.report.errors <+: after.2.store.report.errors) ∧
    ∀ inside block caller path display source isolated,
      e.enter (.call c.name c.namedTexts c.span) = .ok (inside, block) →
      inclusionOf expandNodes c inside = (.ok (.file path display source isolated), caller) →
        ∀ nodes, after.1 = .ok nodes → after.2.store.report =
          (fileNodes expandNodes c path display source caller.clone).2.store.report := by
  intro after
  -- within the call the named arguments are those of the call, and the variables those outside
  have hwithin {inside : Environment} {block : OpenBlock}
      (henter : e.enter (.call c.name c.namedTexts c.span) = .ok (inside, block)) :
      inside.setting.named = c.namedTexts ∧ inside.store.lookup = e.store.lookup := by
    obtain ⟨setting, hcall, rfl, -⟩ := enter_call_eq_ok henter
    obtain ⟨-, rfl⟩ := call_eq_ok_iff.mp hcall
    exact ⟨rfl, rfl⟩
  have huntouched : Untouched e after.2 := by
    show Untouched e (expandNodes [c.toNode] e).2
    rw [expandNodes_include hcallee]
    cases henter : e.enter (.call c.name c.namedTexts c.span) with
    | error f =>
        rw [inBlock_error henter]
        exact .refl e
    | ok entered =>
        obtain ⟨hnamed, hvars⟩ := hwithin henter
        rw [inBlock_ok henter]
        exact .leave_call henter (inclusion_traceless hfree hisolated _ hnamed hvars).1
  refine ⟨⟨huntouched.setting, huntouched.globals, huntouched.frames, huntouched.metadata,
    huntouched.functions, huntouched.warnings, huntouched.errors⟩, ?_⟩
  intro inside block caller path display source isolated henter hfile nodes hnodes
  obtain ⟨hnamed, hvars⟩ := hwithin henter
  have htrue : isolated = true :=
    (inclusionOf_traceless hfree hisolated inside hnamed hvars).2 _ (congrArg Prod.fst hfile)
  subst htrue
  rcases hwork : fileNodes expandNodes c path display source caller.clone with ⟨result, copy⟩
  cases result with
  | ok _ => exact (expandNodes_isolated_ok hcallee henter hfile hwork).2
  | error f =>
      have herror : after.1 = .error f := (expandNodes_isolated_error hcallee henter hfile hwork).1
      rw [herror] at hnodes
      cases hnodes

/-- A file that sets a variable, records a title and defines a function, and that lacks a
variable. -/
theorem expandNodes_isolated_untouched_missing :
    let source := ".var \x7bx\x7d \x7b1\x7d\n\n.docname \x7bT\x7d\n\n.function \x7bf\x7d\n    hi\n\n.missing"
    let e := folderWith source
    let c := includeCall "true"
    let after := expandNodes [c.toNode] e
    e.store.callee? c.name = some (.builtin .inclusion) ∧ c.CallFreeArguments ∧
      AsksForIsolation c e ∧ after.2.store.globals = e.store.globals ∧
      after.2.store.metadata = [] ∧ after.2.store.functions.isEmpty = true ∧
      after.2.store.report.warnings.map (·.message) = ["Undefined variable: missing"] := by
  intro source e c after
  have hcallee : e.store.callee? c.name = some (.builtin .inclusion) := rfl
  have hfree : c.CallFreeArguments := by
    constructor
    · intro a ha
      obtain rfl := List.mem_singleton.mp ha
      decide +kernel
    · intro a ha
      obtain rfl := List.mem_singleton.mp ha
      decide +kernel
  have hisolated : AsksForIsolation c e :=
    ⟨"true", "true", rfl, rfl, by decide⟩
  have huntouched := (expandNodes_isolated_untouched hcallee hfree hisolated).1
  refine ⟨hcallee, hfree, hisolated, huntouched.2.1, huntouched.2.2.2.1, ?_, by decide +kernel⟩
  rw [huntouched.2.2.2.2.1]
  rfl

end Expansion

end Livedoc
