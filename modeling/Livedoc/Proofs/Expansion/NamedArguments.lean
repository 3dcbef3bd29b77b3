import Livedoc.Proofs.Expansion.Agreement

/-!
# Named arguments belong to one call

The named arguments of a call are read by the function that it runs and by nothing else. A
nested call brings its own and puts those around it back when it is left; bodies, arguments and
files are expanded as nodes, which ask for named arguments only within calls of their own.

So environments that differ in the named arguments alone (`withNamed`) are not told apart by
anything that is expanded in them. Within a call the difference is gone already
(`inCall_agrees`), which is why nothing has to be known of what the call runs; outside of calls
nodes look at the variables only (`expandNode_agrees`).
-/

namespace Livedoc

open Livedoc.Environment Livedoc.Expansion Livedoc.Problem Livedoc.Source Livedoc.Tree
open Livedoc.Tree.Node

namespace Environment

/-- The environment with other named arguments of the innermost call. -/
def withNamed (e : Environment) (named : Dictionary String) : Environment :=
  { e with setting := { e.setting with named } }

variable (e : Environment) (named : Dictionary String)

/-- Entering a call replaces the named arguments, so within it nothing is left of them. -/
theorem enter_call_withNamed (name : String) (own : Dictionary String) (span : Span) :
    (e.withNamed named).enter (.call name own span) =
      (e.enter (.call name own span)).map fun entered => (entered.1, .call named) := by
  have hcall : (e.withNamed named).setting.call name own span = e.setting.call name own span := rfl
  simp only [enter, hcall]
  cases e.setting.call name own span <;> rfl

/-- Named arguments have no say in whether a file can be entered. -/
theorem enter_file_withNamed (path : Path) (display : String) (span : Span) :
    (e.withNamed named).enter (.file path display span) =
      (e.enter (.file path display span)).map fun entered =>
        (entered.1.withNamed named, entered.2) := by
  have hfile : (e.withNamed named).setting.including path display span =
      (e.setting.including path display span).map fun s => { s with named } := by
    unfold Setting.including
    rw [apply_ite (Except.map _), apply_ite (Except.map _)]
    rfl
  simp only [enter, hfile]
  cases e.setting.including path display span <;> rfl

/-- Leaving a call brings the named arguments around it back. -/
theorem leave_call_withNamed (before : Dictionary String) :
    e.leave (.call named) = (e.leave (.call before)).withNamed named := rfl

end Environment

namespace Expansion

variable {α β : Type} {named : Dictionary String}

/-- The second environment is the first one with these named arguments. -/
def Renamed (named : Dictionary String) (e e' : Environment) : Prop := e' = e.withNamed named

/-! ## Steps -/

theorem inspect_renamed {f : Environment → α} (hf : ∀ e, f (e.withNamed named) = f e) :
    Agrees (Renamed named) (inspect f) := by
  rintro e _ rfl
  exact ⟨congrArg Except.ok (hf e), rfl⟩

theorem update_renamed (f : Store → Store) : Agrees (Renamed named) (update f) := by
  rintro e _ rfl
  exact ⟨rfl, rfl⟩

theorem iterationCount_renamed (text : String) (span : Span) :
    Agrees (Renamed named) (iterationCount text span) :=
  .iterationCount (inspect_renamed fun _ => rfl) (fun _ _ _ => update_renamed _) text span

/-- **Within a call nothing is left of the named arguments around it**, whatever is done there. -/
theorem inCall_agrees (name : String) (own : Dictionary String) (span : Span) (m : Expansion α) :
    Agrees (Renamed named) (inBlock (.call name own span) m) := by
  rintro e _ rfl
  have henter' := enter_call_withNamed e named name own span
  cases henter : e.enter (.call name own span) with
  | error f =>
      rw [henter] at henter'
      rw [inBlock_error henter, inBlock_error henter']
      exact ⟨rfl, rfl⟩
  | ok entered =>
      obtain ⟨inner, block⟩ := entered
      obtain ⟨-, -, -, rfl⟩ := enter_call_eq_ok henter
      rw [henter] at henter'
      rw [inBlock_ok henter, inBlock_ok henter']
      exact ⟨rfl, leave_call_withNamed _ named _⟩

theorem inFile_agrees (path : Path) (display : String) (span : Span) {m : Expansion α}
    (hm : Agrees (Renamed named) m) :
    Agrees (Renamed named) (inBlock (.file path display span) m) := by
  rintro e _ rfl
  have henter' := enter_file_withNamed e named path display span
  cases henter : e.enter (.file path display span) with
  | error f =>
      rw [henter] at henter'
      rw [inBlock_error henter, inBlock_error henter']
      exact ⟨rfl, rfl⟩
  | ok entered =>
      obtain ⟨inner, block⟩ := entered
      obtain ⟨-, -, -, rfl⟩ := enter_file_eq_ok henter
      rw [henter] at henter'
      rw [inBlock_ok henter, inBlock_ok henter']
      obtain ⟨hresult, hafter⟩ := hm inner _ rfl
      exact ⟨hresult, (congrArg (Environment.leave · .file) hafter).trans rfl⟩

theorem inSource_agrees (path : Path) (text : String) {m : Expansion α}
    (hm : Agrees (Renamed named) m) : Agrees (Renamed named) (inBlock (.source path text) m) := by
  rintro e _ rfl
  obtain ⟨hresult, hafter⟩ := hm { e with setting := e.setting.reading path text } _ rfl
  let block : OpenBlock := .source e.setting.source e.setting.filename e.setting.folder
  exact ⟨hresult, (congrArg (Environment.leave · block) hafter).trans rfl⟩

theorem inIsolation_renamed {m : Expansion α} (hm : Agrees (Renamed named) m) :
    Agrees (Renamed named) (inIsolation m) := by
  rintro e _ rfl
  obtain ⟨hresult, hcopy⟩ := hm e.clone _ rfl
  have hclone : (e.withNamed named).clone = e.clone.withNamed named := rfl
  rcases hrun : m e.clone with ⟨result, copy⟩
  rcases hrun' : m (e.clone.withNamed named) with ⟨result', copy'⟩
  rw [hrun, hrun'] at hresult hcopy
  obtain rfl : result' = result := hresult
  obtain rfl : copy' = copy.withNamed named := hcopy
  simp only [inIsolation, hrun, hclone, hrun']
  cases result' <;> exact ⟨rfl, rfl⟩

/-! ## Nodes -/

theorem mapM_agrees {γ : Type} {R : Environment → Environment → Prop} {f : γ → Expansion α} :
    ∀ {l : List γ}, (∀ c ∈ l, Agrees R (f c)) → Agrees R (l.mapM f) := by
  intro l
  induction l with
  | nil =>
      intro _
      rw [List.mapM_nil]
      exact .pure []
  | cons c l ih =>
      intro h
      rw [List.mapM_cons]
      refine .bind (h c (by simp)) fun a => ?_
      exact .bind (ih fun c' hc' => h c' (by simp [hc'])) fun as => .pure _

theorem each_agrees {R : Environment → Environment → Prop} {f : Node → Expansion (List Node)} :
    ∀ {ns : List Node}, (∀ n ∈ ns, Agrees R (f n)) → Agrees R (each f ns) := by
  intro ns
  induction ns with
  | nil => exact fun _ => .pure []
  | cons n rest ih =>
      intro h
      refine .bind (h n (by simp)) fun first => ?_
      exact .bind (ih fun m hm => h m (by simp [hm])) fun others => .pure _

theorem repeatFrom_renamed {x : Expander} {ns : List Node} (h : Agrees (Renamed named) (x ns))
    (counter : String) :
    ∀ rounds done, Agrees (Renamed named) (repeatFrom x ns counter done rounds) := by
  intro rounds
  induction rounds with
  | zero => exact fun _ => .pure []
  | succ rounds ih =>
      intro done
      refine .bind (update_renamed _) fun _ => ?_
      exact .bind h fun first => .bind (ih (done + 1)) fun others => .pure _

theorem resolveText_renamed {x : Expander} {raw : String}
    (h : Agrees (Renamed named) (x (Document.readLine raw))) :
    Agrees (Renamed named) (resolveText x raw) := by
  unfold resolveText
  split
  · exact .bind h fun ns => .pure _
  · exact .pure raw

/-- A node does not look at the named arguments if nothing within it does. -/
theorem expandNode_agrees {x : Meaning} {n : Node}
    (hnodes : ∀ cs ∈ n.fragments, Agrees (Renamed named) (x.nodes cs))
    (hcall : ∀ c, Agrees (Renamed named) (x.call c)) :
    Agrees (Renamed named) (expandNode x (resolveText x.nodes) n) := by
  cases n with
  | table headers rows alignment s =>
      have hheads : ∀ cell ∈ headers, Agrees (Renamed named) (x.nodes cell) :=
        fun cell hcell => hnodes cell (List.mem_append_left _ hcell)
      have hcells : ∀ cells ∈ rows, Agrees (Renamed named) (cells.mapM x.nodes) := by
        intro cells hmem
        refine mapM_agrees fun cell hcell => hnodes cell ?_
        exact List.mem_append_right _ (List.mem_flatten.mpr ⟨cells, hmem, hcell⟩)
      refine .bind (mapM_agrees hheads) fun heads => ?_
      exact .bind (mapM_agrees hcells) fun cells => .pure _
  | call name args named body s => exact hcall _
  | reference name s =>
      refine .bind (inspect_renamed fun _ => rfl) fun value => ?_
      cases value with
      | some value => exact .pure _
      | none => exact .bind (update_renamed _) fun _ => .pure _
  | conditional condition consequent alternative s =>
      refine .bind (inspect_renamed fun _ => rfl) fun holds => ?_
      cases holds
      · exact hnodes alternative (by simp [fragments])
      · exact hnodes consequent (by simp [fragments])
  | loop count body counter s =>
      refine .bind (resolveText_renamed (hnodes _ (by simp [fragments]))) fun text => ?_
      refine .bind (iterationCount_renamed text s) fun rounds => ?_
      exact repeatFrom_renamed (hnodes body (by simp [fragments])) counter _ _
  | text | code | math | image | lineBreak | thematicBreak => exact .pure _
  | _ => exact .bind (hnodes _ (List.mem_singleton.mpr rfl)) fun cs => .pure _

/-- Calls do not look at the named arguments around them. -/
theorem expandCall_agrees (x : Expander) (c : Invocation) :
    Agrees (Renamed named) (expandCall x c) := by
  refine .bind (inspect_renamed fun _ => rfl) fun found => ?_
  cases found with
  | none => exact .bind (update_renamed _) fun _ => .pure []
  | some callee => exact inCall_agrees _ _ _ _

theorem callMeaning_agrees (levels : Nat) (c : Invocation) :
    Agrees (Renamed named) (callMeaning levels c) := by
  cases levels <;> exact expandCall_agrees _ c

theorem expandNodes_agrees (ns : List Node) : Agrees (Renamed named) (expandNodes ns) := by
  have hexpander : ∀ levels, Agrees (Renamed named) (expander (callMeaning levels) ns) := by
    intro levels
    induction ns using fragment_induction with
    | h ns ih =>
        rw [expander_eq]
        exact each_agrees fun n hn => expandNode_agrees (ih n hn) (callMeaning_agrees levels)
  rintro e _ rfl
  exact hexpander e.setting.levels e _ rfl

theorem fileNodes_agrees (c : Invocation) (path : Path) (display source : String) :
    Agrees (Renamed named) (fileNodes expandNodes c path display source) :=
  inFile_agrees _ _ _ <| inSource_agrees _ _ <|
    .bind (update_renamed _) fun _ => expandNodes_agrees _

/-- A step that does not look at the named arguments gives the same under any of them. -/
theorem Agrees.run_withNamed {m : Expansion α} (h : Agrees (Renamed named) m) (e : Environment) :
    m (e.withNamed named) = ((m e).1, (m e).2.withNamed named) := by
  obtain ⟨hresult, hafter⟩ := h e _ rfl
  exact Prod.ext hresult hafter

/-- **Named arguments do not leak between calls.** In two environments that differ only in the
named arguments of the innermost call, nodes expand to the same, or break off with the same
failure, and leave environments that again differ in nothing else: the variables, the frames,
the functions, the metadata and the messages are the same. So it is with what arguments come to,
and with the content of files, whether they are included as a part of the document or in
isolation. -/
theorem expandNodes_withNamed (e : Environment) (named : Dictionary String) :
    (∀ ns, expandNodes ns (e.withNamed named) =
      ((expandNodes ns e).1, (expandNodes ns e).2.withNamed named)) ∧
    (∀ raw, resolveText expandNodes raw (e.withNamed named) =
      ((resolveText expandNodes raw e).1, (resolveText expandNodes raw e).2.withNamed named)) ∧
    (∀ c path display source, let work := fileNodes expandNodes c path display source
      work (e.withNamed named) = ((work e).1, (work e).2.withNamed named) ∧
        inIsolation work (e.withNamed named) =
          ((inIsolation work e).1, (inIsolation work e).2.withNamed named)) :=
  ⟨fun ns => (expandNodes_agrees ns).run_withNamed e,
    fun _ => (resolveText_renamed (expandNodes_agrees _)).run_withNamed e,
    fun c path display source => ⟨(fileNodes_agrees c path display source).run_withNamed e,
      (inIsolation_renamed (fileNodes_agrees c path display source)).run_withNamed e⟩⟩

end Expansion

end Livedoc
