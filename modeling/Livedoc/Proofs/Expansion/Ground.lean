import Livedoc.Proofs.Compilation.Strict
import Livedoc.Proofs.Document.Names
import Livedoc.Proofs.Expansion.Unfolding

/-!
# What expansion can come to and say

Expansion meets calls and references in the nodes that it is given, in the bodies of functions, in
the texts of arguments, which it reads when it needs them, and in the files that are included.  A
`Ground` says which calls, references, texts and files these may be, which warnings may be given
and where errors may be.  A ground that is closed is not left: the nodes that are expanded, the
functions that are defined and the arguments of the calls that are open all stay on it, and so
do the messages (`expandNodes_stays`).  A warning about a name is made where the name is
expanded; any other message of expansion is about a call, or about the first of its arguments.

The steps of expansion are gone through one by one.  What is shown of a step is that it keeps the
environment on the ground, whether it fails or not, what is then true of its result, and that a
failure is at a place where errors may be.
-/

namespace Livedoc

open Livedoc.Environment Livedoc.Expansion Livedoc.Problem Livedoc.Source Livedoc.Tree
open Livedoc.Tree.Node

/-! ## Grounds -/

/-- Calls and references that expansion may come to, texts of arguments and of files that it may
read, warnings that it may give, and places where errors may be. -/
structure Ground where
  names : Node → Prop
  texts : String → Prop
  files : String → Prop
  warning : Warning → Prop
  errorAt : Span → Prop

/-- Whether a message is about something else than a missing name. -/
def Unrelated (message : String) : Prop :=
  ∀ name, message ≠ "Undefined variable: " ++ name ∧ message ≠ "Unknown function: " ++ name

/-- A message is about something else if it starts otherwise. -/
theorem unrelated_append {start : String} (hlength : 9 ≤ start.toList.length)
    (hvariable : start.toList.take 9 ≠ "Undefined".toList)
    (hfunction : start.toList.take 9 ≠ "Unknown f".toList) (rest : String) :
    Unrelated (start ++ rest) := by
  have hstart : (start ++ rest).toList.take 9 = start.toList.take 9 := by
    rw [String.toList_append, List.take_append_of_le_length hlength]
  refine fun name => ⟨fun h => hvariable ?_, fun h => hfunction ?_⟩
  · rw [← hstart, h, String.toList_append]
    rfl
  · rw [← hstart, h, String.toList_append]
    rfl

theorem unrelated {message : String} (hlength : 9 ≤ message.toList.length)
    (hvariable : message.toList.take 9 ≠ "Undefined".toList)
    (hfunction : message.toList.take 9 ≠ "Unknown f".toList) : Unrelated message := by
  have h := unrelated_append hlength hvariable hfunction ""
  rwa [String.append_empty] at h

/-- No call, text or file leads off the ground, and what may be said of its calls and references
is on it. -/
structure Ground.Closed (g : Ground) : Prop where
  isName : ∀ {n}, g.names n → n.isName = true
  arguments : ∀ {c : Invocation}, g.names c.toNode →
    (∀ a ∈ c.arguments, g.texts a.content) ∧ ∀ a ∈ c.named, g.texts a.value.content
  text : ∀ {raw}, g.texts raw → AllDynamic g.names (Document.readLine raw)
  file : ∀ {c : Invocation} {source}, g.names c.toNode → c.name = Builtin.inclusion.name →
    g.files source → AllDynamic g.names (Document.read source).result.children
  undefined : ∀ {name span}, g.names (.reference name span) →
    g.warning ⟨"Undefined variable: " ++ name, .style, span⟩
  unknown : ∀ {c : Invocation}, g.names c.toNode →
    g.warning ⟨"Unknown function: " ++ c.name, .style, c.span⟩
  other : ∀ {c : Invocation} {message kind}, g.names c.toNode → Unrelated message →
    g.warning ⟨message, kind, c.firstSpan⟩
  error : ∀ {c : Invocation}, g.names c.toNode → g.errorAt c.span ∧ g.errorAt c.firstSpan

/-- What is kept in the environment is on the ground, and so are the files that can be included
and the messages found so far. -/
structure Environment.OnGround (g : Ground) (e : Environment) : Prop where
  functions : ∀ {name f}, e.store.functions.get? name = some f → AllDynamic g.names f.body
  named : ∀ {key raw}, e.setting.named.get? key = some raw → g.texts raw
  files : ∀ {paths path source}, e.setting.files.search paths = .found path source → g.files source
  warnings : ∀ w ∈ e.store.report.warnings, g.warning w
  errors : ∀ m ∈ e.store.report.errors, g.errorAt m.span

/-- A call that is run, the calls and references in it, and the texts of its arguments. -/
structure Invocation.OnGround (g : Ground) (c : Invocation) : Prop where
  self : g.names c.toNode
  arguments : ∀ a ∈ c.arguments, g.texts a.content
  body : AllDynamic g.names c.body

namespace Expansion

variable {α β : Type} {g : Ground} {P : α → Prop} {Q : β → Prop}

/-- Whether a step keeps the environment on the ground, any result of it has the property, and a
failure is where errors may be. -/
def Stays (g : Ground) (P : α → Prop) (m : Expansion α) : Prop :=
  ∀ e, e.OnGround g → (m e).2.OnGround g ∧ (∀ a, (m e).1 = .ok a → P a) ∧
    ∀ f, (m e).1 = .error f → g.errorAt f.span

namespace Stays

theorem pure {a : α} (h : P a) : Stays g P (Pure.pure a) := Maintains.pure h

theorem bind {m : Expansion α} {k : α → Expansion β} (hm : Stays g P m)
    (hk : ∀ a, P a → Stays g Q (k a)) : Stays g Q (m >>= k) := Maintains.bind hm hk

/-- A step whose result does not matter before another one. -/
theorem andThen {m : Expansion α} {k : Expansion β} (hm : Stays g (fun _ => True) m)
    (hk : Stays g Q k) : Stays g Q (m >>= fun _ => k) := Maintains.andThen hm fun _ => hk

theorem inspect {f : Environment → α} (h : ∀ e, e.OnGround g → P (f e)) :
    Stays g P (inspect f) := Maintains.inspect h

theorem look (f : Environment → α) : Stays g (fun _ => True) (Expansion.inspect f) :=
  Maintains.look f

/-- The text of a named argument of the innermost call. -/
theorem named? (key : String) :
    Stays g (fun raw => ∀ text, raw = some text → g.texts text) (Expansion.named? key) :=
  inspect fun _ he _ h => he.named h

theorem update {f : Store → Store}
    (h : ∀ e : Environment, e.OnGround g → (e.mapStore f).OnGround g) :
    Stays g (fun _ => True) (Expansion.update f) := Maintains.update h

theorem warn {message : String} {kind : WarningKind} {span : Span}
    (h : g.warning ⟨message, kind, span⟩) :
    Stays g (fun _ => True) (Expansion.warn message kind span) := by
  refine update fun e he => ⟨he.functions, he.named, he.files, fun w hw => ?_, he.errors⟩
  rcases List.mem_append.mp hw with hw | hw
  · exact he.warnings w hw
  · rw [List.mem_singleton.mp hw]
    exact h

theorem failAll {mistakes : List Error} (h : ∀ m ∈ mistakes, g.errorAt m.span) :
    Stays g (fun _ => True) (Expansion.update (·.failAll mistakes)) := by
  refine update fun e he => ⟨he.functions, he.named, he.files, he.warnings, fun m hm => ?_⟩
  rcases List.mem_append.mp hm with hm | hm
  · exact he.errors m hm
  · exact h m hm

theorem assign (name : String) (value : Value) :
    Stays g (fun _ => True) (Expansion.update (·.assign name value)) := by
  refine update fun e he => ?_
  have hkept : (e.store.assign name value).functions = e.store.functions ∧
      (e.store.assign name value).report = e.store.report := by
    unfold Store.assign
    split <;> exact ⟨rfl, rfl⟩
  refine ⟨fun {name f} hf => ?_, he.named, he.files, fun w hw => ?_, fun m hm => ?_⟩
  · rw [mapStore, hkept.1] at hf
    exact he.functions hf
  · rw [mapStore, hkept.2] at hw
    exact he.warnings w hw
  · rw [mapStore, hkept.2] at hm
    exact he.errors m hm

theorem record (key value : String) :
    Stays g (fun _ => True) (Expansion.update (·.record key value)) :=
  update fun _ he => ⟨he.functions, he.named, he.files, he.warnings, he.errors⟩

theorem define {f : Function} (h : AllDynamic g.names f.body) :
    Stays g (fun _ => True) (Expansion.update (·.define f)) := by
  refine update fun e he =>
    ⟨fun {name f'} hf => ?_, he.named, he.files, he.warnings, he.errors⟩
  rw [mapStore, Store.define, Dictionary.get?_set] at hf
  split at hf
  · cases hf
    exact h
  · exact he.functions hf

/-- A step within a block. What stays on the ground before it is entered and after it is left is
the matter of the kind of block. -/
private theorem within {o : Opening} {m : Expansion α} (hm : Stays g P m)
    (hfailed : ∀ (e : Environment) f, e.enter o = .error f → g.errorAt f.span)
    (hopen : ∀ (e inner : Environment) block, e.OnGround g → e.enter o = .ok (inner, block) →
      inner.OnGround g ∧ ∀ after : Environment, after.OnGround g → (after.leave block).OnGround g) :
    Stays g P (inBlock o m) := Maintains.inBlock hm hfailed hopen

/-- A step within a frame. -/
theorem inFrame (locals : Frame) {m : Expansion α} (hm : Stays g P m) :
    Stays g P (inBlock (.frame locals) m) := by
  refine within hm (fun e f henter => nomatch henter) fun e inner block he henter => ?_
  cases henter
  exact ⟨⟨he.functions, he.named, he.files, he.warnings, he.errors⟩, fun after h =>
    ⟨h.functions, h.named, h.files, h.warnings, h.errors⟩⟩

/-- A step within a call, whose named arguments are on the ground. -/
theorem inCall {name : String} {named : Dictionary String} {span : Span} (hspan : g.errorAt span)
    (hnamed : ∀ {key raw}, named.get? key = some raw → g.texts raw) {m : Expansion α}
    (hm : Stays g P m) : Stays g P (inBlock (.call name named span) m) := by
  refine within hm (fun e f henter => ?_) fun e inner block he henter => ?_
  · simp only [enter, Setting.call] at henter
    split at henter
    · next hsetting => split at hsetting <;> cases hsetting; cases henter
    · next hsetting =>
        split at hsetting
        · cases hsetting
          cases henter
          exact hspan
        · cases hsetting
  · simp only [enter, Setting.call] at henter
    split at henter
    · next hsetting =>
        split at hsetting
        · cases hsetting
        · cases hsetting
          cases henter
          exact ⟨⟨he.functions, hnamed, he.files, he.warnings, he.errors⟩, fun after h =>
            ⟨h.functions, he.named, h.files, h.warnings, h.errors⟩⟩
    · cases henter

/-- A step within a file. -/
theorem inFile {path : Path} {display : String} {span : Span} (hspan : g.errorAt span)
    {m : Expansion α} (hm : Stays g P m) :
    Stays g P (inBlock (.file path display span) m) := by
  refine within hm (fun e f henter => ?_) fun e inner block he henter => ?_
  · simp only [enter, Setting.including] at henter
    split at henter
    · cases henter
    · next hsetting =>
        cases henter
        split at hsetting
        · cases hsetting
          exact hspan
        · split at hsetting
          · cases hsetting
            exact hspan
          · cases hsetting
  · simp only [enter, Setting.including] at henter
    split at henter
    · next hsetting =>
        split at hsetting
        · cases hsetting
        · split at hsetting
          · cases hsetting
          · cases hsetting
            cases henter
            exact ⟨⟨he.functions, he.named, he.files, he.warnings, he.errors⟩, fun after h =>
              ⟨h.functions, h.named, h.files, h.warnings, h.errors⟩⟩
    · cases henter

/-- A step with another text as the source. -/
theorem inSource (path : Path) (text : String) {m : Expansion α} (hm : Stays g P m) :
    Stays g P (inBlock (.source path text) m) := by
  refine within hm (fun e f henter => nomatch henter) fun e inner block he henter => ?_
  cases henter
  exact ⟨⟨he.functions, he.named, he.files, he.warnings, he.errors⟩, fun after h =>
    ⟨h.functions, h.named, h.files, h.warnings, h.errors⟩⟩

/-- A step on a copy, the messages of which are kept. -/
theorem inIsolation {m : Expansion α} (hm : Stays g P m) : Stays g P (Expansion.inIsolation m) := by
  intro e he
  obtain ⟨hkept, hresult, hfailure⟩ :=
    hm e.clone ⟨he.functions, he.named, he.files, he.warnings, he.errors⟩
  unfold Expansion.inIsolation
  rcases hrun : m e.clone with ⟨result, copy⟩
  rw [hrun] at hkept hresult hfailure
  cases result with
  | error f =>
      refine ⟨⟨he.functions, he.named, he.files, he.warnings, he.errors⟩, nofun, ?_⟩
      rintro _ ⟨⟩
      exact hfailure f rfl
  | ok a =>
      refine ⟨⟨he.functions, he.named, he.files, fun w hw => ?_, fun m hm => ?_⟩, ?_, nofun⟩
      · rcases List.mem_append.mp hw with hw | hw
        · exact he.warnings w hw
        · exact hkept.warnings w (List.mem_of_mem_drop hw)
      · rcases List.mem_append.mp hm with hm | hm
        · exact he.errors m hm
        · exact hkept.errors m (List.mem_of_mem_drop hm)
      · rintro _ ⟨⟩
        exact hresult a rfl

/-- A file that is found is one of those that can be included. -/
theorem findFile (path : String) {span : Span} (hspan : g.errorAt span) :
    Stays g (fun found => ∀ p source, found = some (p, source) → g.files source)
      (Expansion.findFile path span) := by
  intro e he
  have hasked : (e.mapStore (·.askFor (e.setting.files.unknown (e.setting.candidates path)))).OnGround
      g := ⟨he.functions, he.named, he.files, he.warnings, he.errors⟩
  unfold Expansion.findFile
  dsimp only
  split
  · next resolved text hfound =>
      refine ⟨hasked, ?_, nofun⟩
      rintro _ ⟨⟩ _ _ ⟨⟩
      exact he.files hfound
  · exact ⟨hasked, by rintro _ ⟨⟩; exact nofun, nofun⟩
  · exact ⟨hasked, nofun, by rintro _ ⟨⟩; exact hspan⟩

/-- Results of a step for each element of a list. -/
theorem mapM {γ : Type} {f : γ → Expansion α} :
    ∀ {l : List γ}, (∀ c ∈ l, Stays g P (f c)) → Stays g (∀ a ∈ ·, P a) (l.mapM f) :=
  Maintains.mapM

end Stays

/-! ## Texts and repetitions -/

/-- Whether the nodes that an expander gives for nodes on the ground are on the ground. -/
def StaysNodes (g : Ground) (x : Expander) : Prop :=
  ∀ ns, AllDynamic g.names ns → Stays g (AllDynamic g.names) (x ns)

variable {x : Expander} {c : Invocation}

theorem resolveText_stays (hg : g.Closed) (hx : StaysNodes g x) {raw : String}
    (hraw : g.texts raw) : Stays g (fun _ => True) (resolveText x raw) := by
  unfold resolveText
  split
  · exact .bind (hx _ (hg.text hraw)) fun ns _ => .pure trivial
  · exact .pure trivial

theorem argumentText_stays (hg : g.Closed) (hx : StaysNodes g x) (hc : c.OnGround g)
    (index : Nat) : Stays g (fun _ => True) (argumentText x c index) := by
  unfold argumentText
  split
  · next a ha => exact resolveText_stays hg hx (hc.arguments a (List.mem_of_getElem? ha))
  · exact .pure trivial

theorem strippedArgument_stays (hg : g.Closed) (hx : StaysNodes g x) (hc : c.OnGround g)
    (index : Nat) : Stays g (fun _ => True) (strippedArgument x c index) :=
  .bind (argumentText_stays hg hx hc index) fun _ _ => .pure trivial

theorem namedText?_stays (hg : g.Closed) (hx : StaysNodes g x) (key : String) :
    Stays g (fun _ => True) (namedText? x key) := by
  refine .bind (.named? key) fun raw hraw => ?_
  cases raw with
  | none => exact .pure trivial
  | some raw => exact .bind (resolveText_stays hg hx (hraw raw rfl)) fun _ _ => .pure trivial

theorem namedNumber_stays (hg : g.Closed) (hx : StaysNodes g x) (key : String) (default : Float) :
    Stays g (fun _ => True) (namedNumber x key default) :=
  .bind (namedText?_stays hg hx key) fun _ _ => .pure trivial

theorem iterationCount_stays (text : String) {span : Span}
    (hspan : ∀ {message kind}, Unrelated message → g.warning ⟨message, kind, span⟩) :
    Stays g (fun _ => True) (iterationCount text span) := by
  refine .bind (.look _) fun limit _ => ?_
  cases roundsOf text limit with
  | exactly n => exact .pure trivial
  | limited wanted =>
      refine .andThen (.warn (hspan ?_)) (.pure trivial)
      rw [String.append_assoc, String.append_assoc]
      exact unrelated_append (by decide) (by decide) (by decide) _

theorem repeatFrom_stays {body : List Node} (hx : Stays g (AllDynamic g.names) (x body))
    (counter : String) :
    ∀ rounds done, Stays g (AllDynamic g.names) (repeatFrom x body counter done rounds) :=
  Maintains.repeatFrom .nil (fun hns hms => allDynamic_append.mpr ⟨hns, hms⟩) (Stays.assign counter)
    hx

/-! ## Functions -/

theorem numberNodes_onGround (x : Float) : AllDynamic g.names (numberNodes x) := .leaf rfl rfl

theorem truncateBody_onGround (places : Float) {ns : List Node} (h : AllDynamic g.names ns) :
    AllDynamic g.names (truncateBody places ns) := by
  unfold truncateBody
  split
  · exact .leaf rfl rfl
  · exact h

theorem mapTexts_onGround (f : String → String) {ns : List Node} (h : AllDynamic g.names ns) :
    AllDynamic g.names (mapTexts f ns) := by
  rw [allDynamic_iff] at h ⊢
  intro n hn
  obtain ⟨m, hm, rfl⟩ := List.mem_map.mp hn
  split
  · exact .leaf rfl rfl
  · exact h m hm

/-- What is left of a body without its parameter line lies on the ground. -/
theorem split_onGround {body : List Node} (h : AllDynamic g.names body) :
    AllDynamic g.names (Parameters.split body).rest := by
  unfold Parameters.split
  split
  · next content textSpan others span rest =>
      have hrest : AllDynamic g.names rest := (allDynamic_cons.mp h).2
      have hothers : AllDynamic g.names others :=
        (allDynamic_cons.mp (allDynamic_paragraph.mp (allDynamic_cons.mp h).1)).2
      have hfirst : ∀ ns, AllDynamic g.names ns →
          AllDynamic g.names (Parameters.withFirst ns span rest) := by
        intro ns hns
        unfold Parameters.withFirst
        split
        · exact hrest
        · exact allDynamic_cons.mpr ⟨allDynamic_paragraph.mpr hns, hrest⟩
      dsimp only
      split
      · exact h
      · split
        · split
          · exact hfirst _ .nil
          · exact h
        · exact hfirst _ hothers
        · exact hfirst _ (allDynamic_cons.mpr ⟨.leaf rfl rfl, hothers⟩)
  · exact h

theorem setMetadata_stays (hg : g.Closed) (hx : StaysNodes g x) (hc : c.OnGround g) (key : String) :
    Stays g (AllDynamic g.names) (setMetadata x key c) :=
  .bind (strippedArgument_stays hg hx hc 0) fun value _ => .andThen (.record key value) (.pure .nil)

/-- A function is defined with a body on the ground. -/
theorem define_stays (hg : g.Closed) (hx : StaysNodes g x) (hc : c.OnGround g) :
    Stays g (AllDynamic g.names) (define x c) := by
  refine .bind (strippedArgument_stays hg hx hc 0) fun name _ => ?_
  have hdefine : Stays g (AllDynamic g.names) (do
      let p := Parameters.split c.body
      Expansion.update (·.define ⟨name, p.positional, p.named, p.rest⟩)
      return []) :=
    .andThen (.define (split_onGround hc.body)) (.pure .nil)
  split
  · refine .andThen (.warn (hg.other hc.self ?_)) (.pure .nil)
    exact unrelated (by decide) (by decide) (by decide)
  · dsimp only
    split
    · refine .andThen (.warn (hg.other hc.self ?_)) hdefine
      rw [String.append_assoc]
      exact unrelated_append (by decide) (by decide) (by decide) _
    · exact hdefine

/-- The mistakes in a file are where it is included, and its calls and references are on the
ground. -/
private theorem fileNodes_stays (hg : g.Closed) (hx : StaysNodes g x) (hc : c.OnGround g)
    (path : Path) (display : String) {source : String}
    (hfile : AllDynamic g.names (Document.read source).result.children) :
    Stays g (AllDynamic g.names) (fileNodes x c path display source) := by
  have hspan := (hg.error hc.self).2
  refine .inFile hspan (.inSource path source (.andThen (.failAll fun m hm => ?_) (hx _ hfile)))
  obtain ⟨mistake, -, rfl⟩ := List.mem_map.mp hm
  exact hspan

theorem includeFile_stays (hg : g.Closed) (hx : StaysNodes g x) (hc : c.OnGround g)
    (hname : c.name = Builtin.inclusion.name) :
    Stays g (AllDynamic g.names) (includeFile x c) := by
  refine .bind (strippedArgument_stays hg hx hc 0) fun path _ => ?_
  split
  · refine .andThen (.warn (hg.other hc.self ?_)) (.pure .nil)
    exact unrelated (by decide) (by decide) (by decide)
  · refine .bind (.findFile path (hg.error hc.self).2) fun found hfound => ?_
    cases found with
    | none =>
        refine .andThen (.warn (hg.other hc.self ?_)) (.pure (.leaf rfl rfl))
        exact unrelated_append (by decide) (by decide) (by decide) _
    | some file =>
        obtain ⟨resolved, source⟩ := file
        have hcontent := fileNodes_stays hg hx hc resolved path
          (hg.file hc.self hname (hfound resolved source rfl))
        refine .bind (namedText?_stays hg hx _) fun isolated _ => ?_
        dsimp only
        split
        · exact .inIsolation hcontent
        · exact hcontent

/-- **A built-in function stays on the ground.** -/
theorem builtin_stays (hg : g.Closed) (hx : StaysNodes g x) (hc : c.OnGround g) {b : Builtin}
    (hb : b.name = c.name) : Stays g (AllDynamic g.names) (b.run x c) := by
  have hargument := argumentText_stays hg hx hc
  have hstripped := strippedArgument_stays hg hx hc
  have hnamed := namedText?_stays hg hx
  have hnumber := namedNumber_stays hg hx
  have hbody : ∀ {n : Node}, n.walk = n :: walkAll c.body → n.isDynamic = false →
      AllDynamic g.names [n] := fun hwalk hn => .container hwalk hn hc.body
  cases b with
  | row | column =>
      refine .bind (hnamed _) fun alignment _ => .bind (hnamed _) fun gap _ => .pure ?_
      exact hbody (by rw [walk]) rfl
  | grid =>
      refine .bind (hnumber _ _) fun columns _ => .bind (hnamed _) fun gap _ => .pure ?_
      exact hbody (by rw [walk]) rfl
  | center => exact .pure (hbody (by rw [walk]) rfl)
  | add | multiply | pow =>
      refine .bind (hargument 0) fun text _ => .bind (hnumber _ _) fun y _ => .pure ?_
      exact numberNodes_onGround _
  | truncate =>
      refine .bind (hargument 0) fun places _ => .bind (hx _ hc.body) fun ns hns => .pure ?_
      exact truncateBody_onGround _ hns
  | conditional =>
      simp only [Builtin.run]
      split
      · exact .pure .nil
      · refine .bind (.look _) fun holds _ => ?_
        split
        · exact .pure hc.body
        · exact .pure .nil
  | repetition =>
      refine .bind (hargument 0) fun text _ => ?_
      refine .bind (iterationCount_stays text (hg.other hc.self)) fun rounds _ => ?_
      exact repeatFrom_stays (hx _ hc.body) _ _ _
  | «variable» =>
      refine .bind (hstripped 0) fun name _ => ?_
      split
      · refine .andThen (.warn (hg.other hc.self ?_)) (.pure .nil)
        exact unrelated (by decide) (by decide) (by decide)
      · exact .bind (hargument 1) fun value _ => .andThen (.assign _ _) (.pure .nil)
  | upper | lower =>
      exact .bind (hx _ hc.body) fun ns hns => .pure (mapTexts_onGround _ hns)
  | documentName | documentAuthor | documentLanguage => exact setMetadata_stays hg hx hc _
  | documentType =>
      refine .bind (hstripped 0) fun value _ => ?_
      dsimp only
      split
      · refine .andThen (.warn (hg.other hc.self ?_)) (.andThen (.record _ _) (.pure .nil))
        rw [String.append_assoc, String.append_assoc, String.append_assoc]
        exact unrelated_append (by decide) (by decide) (by decide) _
      · exact .andThen (.record _ _) (.pure .nil)
  | theme =>
      refine .bind (hstripped 0) fun value _ => .andThen (.record _ _) ?_
      refine .bind (hnamed _) fun layout _ => ?_
      cases layout with
      | none => exact .pure .nil
      | some layout =>
          dsimp only
          split
          · exact .andThen (.record _ _) (.pure .nil)
          · exact .pure .nil
  | inclusion => exact includeFile_stays hg hx hc hb.symm
  | definition => exact define_stays hg hx hc

theorem bindPositional_stays (hg : g.Closed) (hx : StaysNodes g x) (hc : c.OnGround g) :
    ∀ (parameters : List String) (index : Nat) (frame : Frame),
      Stays g (fun _ => True) (Function.bindPositional x c index parameters frame)
  | [], _, _ => .pure trivial
  | _ :: rest, index, _ =>
      .bind (argumentText_stays hg hx hc index) fun _ _ =>
        bindPositional_stays hg hx hc rest (index + 1) _

theorem bindNamed_stays (hg : g.Closed) (hx : StaysNodes g x) :
    ∀ (parameters : List String) (frame : Frame),
      Stays g (fun _ => True) (Function.bindNamed x parameters frame)
  | [], _ => .pure trivial
  | p :: rest, frame => by
      refine .bind (namedText?_stays hg hx p) fun value _ => ?_
      cases value with
      | some value => exact bindNamed_stays hg hx rest _
      | none => exact bindNamed_stays hg hx rest frame

/-- A function whose body lies on the ground stays there. -/
theorem function_stays (hg : g.Closed) (hx : StaysNodes g x) (hc : c.OnGround g) {f : Function}
    (hf : AllDynamic g.names f.body) : Stays g (AllDynamic g.names) (f.run x c) := by
  refine .bind (bindPositional_stays hg hx hc f.parameters 0 []) fun frame _ => ?_
  refine .bind (bindNamed_stays hg hx (f.parameters ++ f.named) frame) fun frame _ => ?_
  exact .inFrame _ (hx _ hf)

/-! ## Calls and nodes -/

/-- A reference to a variable that is not there is warned about where it stands. -/
theorem expandReference_stays (hg : g.Closed) {name : String} {span : Span} (h : g.names (.reference name span)) :
    Stays g (AllDynamic g.names) (expandReference name span) := by
  refine .bind (.look _) fun value _ => ?_
  cases value with
  | some value => exact .pure (.leaf rfl rfl)
  | none => exact .andThen (.warn (hg.undefined h)) (.pure (.leaf rfl rfl))

/-- What a call stands for stays on the ground. -/
theorem callee_stays (hg : g.Closed) (hx : StaysNodes g x) (hc : c.OnGround g) :
    ∀ callee : Callee, (∀ f, callee = .defined f → AllDynamic g.names f.body) →
      (∀ b, callee = .builtin b → b.name = c.name) → Stays g (AllDynamic g.names) (callee.run x c)
  | .defined f, hf, _ => function_stays hg hx hc (hf f rfl)
  | .builtin b, _, hb => .bind (builtin_stays hg hx hc (hb b rfl)) fun ns hns => hx ns hns

/-- A function is found among the defined ones or by its name. -/
private theorem callee?_eq_some {s : Store} {name : String} {callee : Callee}
    (h : s.callee? name = some callee) :
    (∃ f, callee = .defined f ∧ s.functions.get? name = some f) ∨
      ∃ b : Builtin, callee = .builtin b ∧ b.name = name := by
  unfold Store.callee? at h
  split at h
  · next f hf =>
      cases h
      exact .inl ⟨f, rfl, hf⟩
  · obtain ⟨b, hb, rfl⟩ := Option.map_eq_some_iff.mp h
    exact .inr ⟨b, rfl, by simpa using List.find?_some hb⟩

/-- **A call on the ground stays there**, and if there is no function of its name, the warning is
about it. -/
theorem expandCall_stays (hg : g.Closed) (hx : StaysNodes g x) (hself : g.names c.toNode)
    (hbody : AllDynamic g.names c.body) : Stays g (AllDynamic g.names) (expandCall x c) := by
  obtain ⟨hargs, hnamed⟩ := hg.arguments hself
  refine .bind (P := fun found => ∀ callee, found = some callee →
    (∀ f, callee = .defined f → AllDynamic g.names f.body) ∧
      ∀ b, callee = .builtin b → b.name = c.name)
    (.inspect fun e he callee hcallee => ?_) fun found hfound => ?_
  · rcases callee?_eq_some hcallee with ⟨f, rfl, hf⟩ | ⟨b, rfl, hb⟩
    · refine ⟨?_, nofun⟩
      rintro _ ⟨⟩
      exact he.functions hf
    · refine ⟨nofun, ?_⟩
      rintro _ ⟨⟩
      exact hb
  · cases found with
    | none => exact .andThen (.warn (hg.unknown hself)) (.pure .nil)
    | some callee =>
        obtain ⟨hdefined, hbuiltin⟩ := hfound callee rfl
        refine .inCall (hg.error hself).1 (fun {key raw} hraw => ?_)
          (callee_stays hg hx ⟨hself, hargs, hbody⟩ callee hdefined hbuiltin)
        obtain ⟨a, ha, rfl⟩ := c.mem_named_of_get? hraw
        exact hnamed a ha

/-- A node on the ground stays there if its fragments and the call that it is do. -/
theorem expandNode_stays (hg : g.Closed) {onCall : CallMeaning} {resolve : String → Expansion String}
    {n : Node} (hn : AllDynamic g.names [n])
    (hcall : ∀ c : Invocation, g.names c.toNode → AllDynamic g.names c.body →
      Stays g (AllDynamic g.names) (onCall c))
    (hnodes : ∀ cs ∈ n.fragments, AllDynamic g.names cs → Stays g (AllDynamic g.names) (x cs)) :
    Stays g (AllDynamic g.names) (expandNode ⟨x, onCall⟩ resolve n) := by
  have hself : n.isDynamic = true → g.names n :=
    hn n (mem_walkAll.mpr ⟨n, by simp, mem_walk_self n⟩)
  cases n with
  | table headers rows alignment s =>
      have hall : AllDynamic g.names (headers.flatten ++ rows.flatten.flatten) :=
        .children (by rw [walk, walkCells_eq, walkRows_eq, walkAll_append]) hn
      obtain ⟨hheaders, hrows⟩ := allDynamic_append.mp hall
      rw [allDynamic_flatten] at hheaders hrows
      have hheads : Stays g (∀ cell ∈ ·, AllDynamic g.names cell) (headers.mapM x) :=
        .mapM fun cell hcell =>
          hnodes cell (List.mem_append_left _ hcell) (hheaders cell hcell)
      have hcells : Stays g (∀ cells ∈ ·, ∀ cell ∈ cells, AllDynamic g.names cell)
          (rows.mapM fun cells => cells.mapM x) := by
        refine .mapM fun cells hmem => .mapM fun cell hcell => ?_
        have hcell : cell ∈ rows.flatten := List.mem_flatten.mpr ⟨cells, hmem, hcell⟩
        exact hnodes cell (List.mem_append_right _ hcell) (hrows cell hcell)
      refine .bind hheads fun heads hheads => .bind hcells fun cells hcells => .pure ?_
      refine .table alignment s (allDynamic_flatten.mpr hheads) (allDynamic_flatten.mpr ?_)
      intro cell hcell
      obtain ⟨row, hrow, hcell⟩ := List.mem_flatten.mp hcell
      exact hcells row hrow cell hcell
  | call name args named body s =>
      refine hcall ⟨name, args, named, body, s⟩ (hself rfl) fun m hm => hn m ?_
      rw [walkAll, walk]
      simp [hm]
  | reference name s => exact expandReference_stays hg (hself rfl)
  | conditional condition consequent alternative s => exact nomatch hg.isName (hself rfl)
  | loop count body counter s => exact nomatch hg.isName (hself rfl)
  | text | code | math | image | lineBreak | thematicBreak => exact .pure (.leaf rfl rfl)
  | _ =>
      refine .bind (hnodes _ (List.mem_singleton.mpr rfl) (.children (by rw [walk]) hn))
        fun cs hcs => .pure ?_
      exact .container (by rw [walk]) rfl hcs

theorem each_stays {f : Node → Expansion (List Node)} :
    ∀ {ns : List Node}, (∀ n ∈ ns, Stays g (AllDynamic g.names) (f n)) →
      Stays g (AllDynamic g.names) (each f ns) :=
  Maintains.each .nil fun hns hms => allDynamic_append.mpr ⟨hns, hms⟩

/-- Over the tree: nodes stay on the ground if calls do. -/
theorem expander_stays (hg : g.Closed) {onCall : CallMeaning}
    (hcall : ∀ c : Invocation, g.names c.toNode → AllDynamic g.names c.body →
      Stays g (AllDynamic g.names) (onCall c)) : StaysNodes g (expander onCall) := by
  intro ns
  induction ns using fragment_induction with
  | h ns ih =>
      intro hns
      rw [expander_eq]
      refine each_stays fun n hn => ?_
      exact expandNode_stays hg (allDynamic_iff.mp hns n hn) hcall (ih n hn)

/-- Over the levels: calls stay on the ground, however many may be open. -/
theorem callMeaning_stays (hg : g.Closed) :
    ∀ (levels : Nat) (c : Invocation), g.names c.toNode → AllDynamic g.names c.body →
      Stays g (AllDynamic g.names) (callMeaning levels c)
  | 0, _, hname, hbody => expandCall_stays hg (fun _ _ => .pure .nil) hname hbody
  | levels + 1, _, hname, hbody =>
      expandCall_stays hg (expander_stays hg (callMeaning_stays hg levels)) hname hbody

/-- **Expansion does not leave a closed ground.** -/
theorem expandNodes_stays (hg : g.Closed) : StaysNodes g expandNodes :=
  fun ns hns e he => expander_stays hg (callMeaning_stays hg e.setting.levels) ns hns e he

/-- **Whatever nodes of a document fail, the messages that it gives are on the ground.** -/
theorem expandEach_onGround (hx : StaysNodes g x) :
    ∀ (ns : List Node) (e : Environment), AllDynamic g.names ns → e.OnGround g →
      (expandEach x ns e).2.OnGround g := by
  intro ns
  induction ns with
  | nil => exact fun e _ he => he
  | cons n rest ih =>
      intro e hns he
      rw [allDynamic_cons] at hns
      obtain ⟨hkept, -, hfailure⟩ := hx [n] hns.1 e he
      unfold expandEach
      split
      · next nodes e' hrun =>
          rw [hrun] at hkept
          exact ih e' hns.2 hkept
      · next f e' hrun =>
          rw [hrun] at hkept hfailure
          split
          · exact ⟨hkept.functions, hkept.named, hkept.files, hkept.warnings, hkept.errors⟩
          · refine ih _ hns.2
              ⟨hkept.functions, hkept.named, hkept.files, hkept.warnings, fun m hm => ?_⟩
            rcases List.mem_append.mp hm with hm | hm
            · exact hkept.errors m hm
            · rw [List.mem_singleton.mp hm]
              exact hfailure f rfl

end Expansion

/-! ## Compilations -/

/-- The ground is closed, the calls and references of a source are on it, the files that are known
to the options are, and errors may be where the mistakes in the source are, or nowhere. -/
structure Ground.Holds (g : Ground) (source : String) (o : CompileOptions) : Prop where
  closed : g.Closed
  tree : AllDynamic g.names (Document.read source).result.children
  files : ∀ {paths path text}, o.files.search paths = .found path text → g.files text
  mistakes : ∀ m ∈ (Document.read source).mistakes, g.errorAt m.span
  unknown : g.errorAt .unknown

/-- The messages of a report are on the ground. -/
def Problem.Report.OnGround (g : Ground) (r : Report) : Prop :=
  (∀ w ∈ r.warnings, g.warning w) ∧ ∀ m ∈ r.errors, g.errorAt m.span

/-- Where the work was broken off, the error is nowhere. -/
private theorem report_broken_onGround {g : Ground} (hunknown : g.errorAt .unknown)
    (o : CompileOptions) (reason : String) {warnings : List Warning}
    (hwarnings : ∀ w ∈ warnings, g.warning w) :
    (Compilation.broken o reason warnings).report.OnGround g := by
  refine ⟨hwarnings, fun m hm => ?_⟩
  rw [List.mem_singleton.mp hm]
  exact hunknown

/-- **The messages of a compilation are on a ground that holds the source.** -/
theorem compile_onGround {g : Ground} {source : String} {o : CompileOptions}
    (h : g.Holds source o) : (compile source o).report.OnGround g := by
  have hread : ∀ errors : List Error, (∀ m ∈ errors, g.errorAt m.span) →
      ∀ m ∈ (Document.read source).mistakes ++ errors, g.errorAt m.span :=
    fun errors herrors => List.forall_mem_append.mpr ⟨h.mistakes, herrors⟩
  unfold compile
  dsimp only
  split
  · exact ⟨nofun, h.mistakes⟩
  · split
    · exact report_broken_onGround h.unknown o _ nofun
    · next bindings _ =>
        have hstart : ∀ metadata, (Environment.mk (o.environment source bindings).setting
            { (o.environment source bindings).store with metadata }).OnGround g := by
          intro metadata
          refine ⟨?_, ?_, h.files, nofun, nofun⟩
          · rintro name f ⟨⟩
          · rintro key raw ⟨⟩
        have hrun := expandEach_onGround (expandNodes_stays h.closed) _ _ h.tree (hstart
          (Document.metadata documentTypes (Document.read source).result o.defaults))
        unfold Compilation.ofDocument
        dsimp only
        split
        · exact report_broken_onGround h.unknown o _ hrun.warnings
        · rw [Compilation.report_finished]
          exact ⟨hrun.warnings, hread _ hrun.errors⟩

end Livedoc
