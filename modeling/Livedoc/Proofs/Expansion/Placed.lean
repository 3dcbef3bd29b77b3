import Livedoc.Proofs.Document.Placed
import Livedoc.Proofs.Expansion.Unfolding

/-!
# Where expansion puts nodes

A call stands among blocks or within a line, and what it gives comes into its place, whatever it is.
So expansion keeps a tree in order if it lets calls stand among blocks only, or if it lets anything
stand within a line.  In both cases what comes into a line is what may stand there
(`Placed.splice`).

This is shown of the steps of expansion one by one (`Keeps`): a step keeps in order the bodies of
the functions that are defined, and gives nodes in order where it gives nodes.  Built-in functions
and functions of the document give blocks (`builtin_keeps`, `function_keeps`); expansion as a whole
gives nodes for the place of those that it was given (`expandNodes_keeps`).
-/

namespace Livedoc.Tree.Node

/-! ## What comes into a place -/

variable {mixed : Prop} {p : Place} {n : Node} {ns ms : List Node}

theorem AllPlaced.mono {letIn also : Node → Prop} (h : AllPlaced letIn p ns)
    (hlet : ∀ n, letIn n → also n) : AllPlaced also p ns :=
  fun n hn => (h n hn).mono fun hself => hself.mono (hlet _)

/-- What is in order among blocks may come into the place of a node that is no list item. -/
theorem Placed.splice {c : Node} (hc : Suits (fun _ => mixed) p c) (hitem : c.isListItem = false)
    (hphrase : c.isPhrase = false) (h : Placed (Suits fun _ => mixed) .block n) :
    Placed (Suits fun _ => mixed) p n := by
  have hplain : n.isListItem = false := by
    have hblock := h.self.item (by decide)
    rw [Bool.eq_false_iff, ne_eq, hblock]
    decide
  cases p with
  | block => exact h
  | item => exact absurd ((hc.item (by decide)).mpr rfl) (by simp [hitem])
  | line =>
      have hmixed : mixed := (hc.line rfl).resolve_left (by simp [hphrase])
      exact h.move ⟨h.self.readable, fun _ => by simp [hplain], fun _ => .inr hmixed⟩ rfl
  | argument => exact h.argument Suits.argument

/-- A list item stands in no other place than a list. -/
theorem Suits.ne_item {letIn : Node → Prop} (h : Suits letIn p n) (hitem : n.isListItem = false) :
    p ≠ .item := by
  rintro rfl
  exact absurd ((h.item (by decide)).mpr rfl) (by simp [hitem])

end Livedoc.Tree.Node

namespace Livedoc

open Livedoc.Environment Livedoc.Expansion Livedoc.Problem Livedoc.Source Livedoc.Tree
open Livedoc.Tree.Node

/-! ## Steps -/

/-- Nodes in order, where what is let into a line is everything or nothing. -/
abbrev Ordered (mixed : Prop) (p : Place) (ns : List Node) : Prop :=
  AllPlaced (fun _ => mixed) p ns

/-- The bodies of functions are in order, and so are the files that can be included. -/
structure Environment.InOrder (mixed : Prop) (e : Environment) : Prop where
  functions : ∀ {name f}, e.store.functions.get? name = some f → Ordered mixed .block f.body
  files : ∀ {paths path source}, e.setting.files.search paths = .found path source →
    Ordered mixed .block (Document.read source).result.children

namespace Environment.InOrder

variable {mixed : Prop} {e inner : Environment}

theorem enter {o : Opening} {block : OpenBlock} (he : e.InOrder mixed)
    (hin : e.enter o = .ok (inner, block)) : inner.InOrder mixed := by
  obtain ⟨locals, -, rfl, -⟩ | ⟨name, named, span, -, -, rfl, -⟩ |
    ⟨path, display, span, -, -, -, rfl, -⟩ | ⟨path, text, -, rfl, -⟩ := enter_cases hin
  all_goals exact ⟨he.functions, he.files⟩

theorem leave (he : e.InOrder mixed) (block : OpenBlock) : (e.leave block).InOrder mixed := by
  cases block <;> exact ⟨he.functions, he.files⟩

end Environment.InOrder

namespace Expansion

variable {α : Type} {mixed : Prop} {P : α → Prop}

/-- Whether a step keeps the environment in order, and any result of it has the property. -/
abbrev Keeps (mixed : Prop) (P : α → Prop) (m : Expansion α) : Prop :=
  Maintains (Environment.InOrder mixed) (fun _ => True) P m

namespace Keeps

/-- Changes of the store that leave the functions. -/
theorem change {f : Store → Store} (h : ∀ s, (f s).functions = s.functions) :
    Keeps mixed (fun _ => True) (Expansion.update f) :=
  .update fun e he => ⟨fun {name g} hg => he.functions (by rwa [mapStore, h] at hg), he.files⟩

theorem warn (message : String) (kind : WarningKind) (span : Span) :
    Keeps mixed (fun _ => True) (Expansion.warn message kind span) := change fun _ => rfl

theorem assign (name : String) (value : Value) :
    Keeps mixed (fun _ => True) (Expansion.update (·.assign name value)) := by
  refine change fun s => ?_
  unfold Store.assign
  split <;> rfl

theorem define {f : Function} (h : Ordered mixed .block f.body) :
    Keeps mixed (fun _ => True) (Expansion.update (·.define f)) := by
  refine .update fun e he => ⟨fun {name g} hg => ?_, he.files⟩
  rw [mapStore, Store.define, Dictionary.get?_set] at hg
  split at hg
  · cases hg
    exact h
  · exact he.functions hg

/-- A step within a block, which leaves the functions and the files as they are. -/
theorem inBlock (o : Opening) {m : Expansion α} (hm : Keeps mixed P m) :
    Keeps mixed P (Expansion.inBlock o m) :=
  Maintains.inBlock hm (fun _ _ _ => trivial) fun _ _ block he hin =>
    ⟨he.enter hin, fun _ h => h.leave block⟩

/-- A step on a copy, the messages of which are kept. -/
theorem inIsolation {m : Expansion α} (hm : Keeps mixed P m) :
    Keeps mixed P (Expansion.inIsolation m) := by
  intro e he
  obtain ⟨-, hresult, -⟩ := hm e.clone ⟨he.functions, he.files⟩
  unfold Expansion.inIsolation
  rcases hrun : m e.clone with ⟨result, copy⟩
  rw [hrun] at hresult
  cases result with
  | error f => exact ⟨⟨he.functions, he.files⟩, nofun, fun _ _ => trivial⟩
  | ok a => exact ⟨⟨he.functions, he.files⟩, by rintro _ ⟨⟩; exact hresult a rfl, nofun⟩

/-- A file that is found is one of those that can be included. -/
theorem findFile (path : String) (span : Span) :
    Keeps mixed (fun found => ∀ p source, found = some (p, source) →
      Ordered mixed .block (Document.read source).result.children)
      (Expansion.findFile path span) := by
  intro e he
  unfold Expansion.findFile
  dsimp only
  split
  · next resolved text hfound =>
      refine ⟨⟨he.functions, he.files⟩, ?_, nofun⟩
      rintro _ ⟨⟩ _ _ ⟨⟩
      exact he.files hfound
  · exact ⟨⟨he.functions, he.files⟩, by rintro _ ⟨⟩; nofun, nofun⟩
  · exact ⟨⟨he.functions, he.files⟩, nofun, fun _ _ => trivial⟩

end Keeps

/-! ## Arguments -/

/-- An expander that keeps what is in order in order, at every place. -/
def KeepsNodes (mixed : Prop) (x : Expander) : Prop :=
  ∀ p ns, Ordered mixed p ns → Keeps mixed (Ordered mixed p) (x ns)

variable {x : Expander} {c : Invocation}

theorem resolveText_keeps (hx : KeepsNodes mixed x) (raw : String) :
    Keeps mixed (fun _ => True) (resolveText x raw) := by
  unfold resolveText
  split
  · exact .bind (hx .argument _ (Document.readLine_argument raw)) fun ns _ => .pure trivial
  · exact .pure trivial

theorem argumentText_keeps (hx : KeepsNodes mixed x) (c : Invocation) (index : Nat) :
    Keeps mixed (fun _ => True) (argumentText x c index) := by
  unfold argumentText
  split
  · exact resolveText_keeps hx _
  · exact .pure trivial

theorem strippedArgument_keeps (hx : KeepsNodes mixed x) (c : Invocation) (index : Nat) :
    Keeps mixed (fun _ => True) (strippedArgument x c index) :=
  .andThen (argumentText_keeps hx c index) fun _ => .pure trivial

theorem namedText?_keeps (hx : KeepsNodes mixed x) (key : String) :
    Keeps mixed (fun _ => True) (namedText? x key) := by
  refine .andThen (.look _) fun raw => ?_
  cases raw with
  | none => exact .pure trivial
  | some raw => exact .andThen (resolveText_keeps hx raw) fun _ => .pure trivial

theorem namedNumber_keeps (hx : KeepsNodes mixed x) (key : String) (default : Float) :
    Keeps mixed (fun _ => True) (namedNumber x key default) :=
  .andThen (namedText?_keeps hx key) fun _ => .pure trivial

theorem iterationCount_keeps (text : String) (span : Span) :
    Keeps mixed (fun _ => True) (iterationCount text span) := by
  refine .andThen (.look _) fun limit => ?_
  cases roundsOf text limit with
  | exactly n => exact .pure trivial
  | limited wanted => exact .andThen (Keeps.warn _ _ _) fun _ => .pure trivial

theorem repeatFrom_keeps {p : Place} {body : List Node}
    (hx : Keeps mixed (Ordered mixed p) (x body)) (counter : String) :
    ∀ rounds done, Keeps mixed (Ordered mixed p) (repeatFrom x body counter done rounds) :=
  Maintains.repeatFrom .nil .append (Keeps.assign counter) hx

/-! ## Functions -/

theorem text_ordered (content : String) (span : Span) : Ordered mixed .block [.text content span] :=
  .single (placed_text (by decide) _ _)

theorem truncateBody_ordered (places : Float) {ns : List Node} (h : Ordered mixed .block ns) :
    Ordered mixed .block (truncateBody places ns) := by
  unfold truncateBody
  split
  · exact text_ordered _ _
  · exact h

theorem mapTexts_ordered (f : String → String) {ns : List Node} (h : Ordered mixed .block ns) :
    Ordered mixed .block (mapTexts f ns) := by
  intro n hn
  obtain ⟨m, hm, rfl⟩ := List.mem_map.mp hn
  split
  · exact placed_text (by decide) _ _
  · exact h m hm

/-- What is left of a body without its parameter line is in order. -/
theorem split_ordered {body : List Node} (h : Ordered mixed .block body) :
    Ordered mixed .block (Parameters.split body).rest := by
  unfold Parameters.split
  split
  · next content textSpan others span rest =>
      have hline : Ordered mixed .line (.text content textSpan :: others) := h.head.child
      have hfirst : ∀ ns, Ordered mixed .line ns →
          Ordered mixed .block (Parameters.withFirst ns span rest) := by
        intro ns hns
        unfold Parameters.withFirst
        split
        · exact h.tail
        · exact .cons (placed_block rfl rfl hns) h.tail
      dsimp only
      split
      · exact h
      · split
        · split
          · exact hfirst _ .nil
          · exact h
        · exact hfirst _ hline.tail
        · exact hfirst _ (.cons (placed_text (by decide) _ _) hline.tail)
  · exact h

/-- A step that gives no nodes. -/
theorem nothing_keeps {m : Expansion α} {p : Place} (hm : Keeps mixed (fun _ => True) m) :
    Keeps mixed (Ordered mixed p) (m >>= fun _ => Pure.pure []) :=
  .andThen hm fun _ => .pure .nil

theorem setMetadata_keeps (hx : KeepsNodes mixed x) (key : String) (c : Invocation) :
    Keeps mixed (Ordered mixed .block) (setMetadata x key c) :=
  .andThen (strippedArgument_keeps hx c 0) fun _ => nothing_keeps (Keeps.change fun _ => rfl)

/-- A function is defined with a body in order. -/
theorem define_keeps (hx : KeepsNodes mixed x) (hc : Ordered mixed .block c.body) :
    Keeps mixed (Ordered mixed .block) (define x c) := by
  refine .andThen (strippedArgument_keeps hx c 0) fun name => ?_
  split
  · exact nothing_keeps (Keeps.warn _ _ _)
  · dsimp only
    split
    · exact .andThen (Keeps.warn _ _ _) fun _ => nothing_keeps (Keeps.define (split_ordered hc))
    · exact nothing_keeps (Keeps.define (split_ordered hc))

theorem fileNodes_keeps (hx : KeepsNodes mixed x) (c : Invocation) (path : Path)
    (display : String) {source : String}
    (hfile : Ordered mixed .block (Document.read source).result.children) :
    Keeps mixed (Ordered mixed .block) (fileNodes x c path display source) := by
  refine Keeps.inBlock _ (Keeps.inBlock _ ?_)
  exact .andThen (Keeps.change fun _ => rfl) fun _ => hx .block _ hfile

theorem includeFile_keeps (hx : KeepsNodes mixed x) (c : Invocation) :
    Keeps mixed (Ordered mixed .block) (includeFile x c) := by
  refine .andThen (strippedArgument_keeps hx c 0) fun path => ?_
  split
  · exact nothing_keeps (Keeps.warn _ _ _)
  · refine .bind (Keeps.findFile path _) fun found hfound => ?_
    cases found with
    | none => exact .andThen (Keeps.warn _ _ _) fun _ => .pure (text_ordered _ _)
    | some file =>
        obtain ⟨resolved, source⟩ := file
        have hcontent := fileNodes_keeps hx c resolved path (hfound resolved source rfl)
        refine .andThen (namedText?_keeps hx _) fun isolated => ?_
        dsimp only
        split
        · exact Keeps.inIsolation hcontent
        · exact hcontent

/-- **A built-in function gives blocks in order**, if its body is. -/
theorem builtin_keeps (hx : KeepsNodes mixed x) (hc : Ordered mixed .block c.body) (b : Builtin) :
    Keeps mixed (Ordered mixed .block) (b.run x c) := by
  have hargument := argumentText_keeps hx c
  have hstripped := strippedArgument_keeps hx c
  have hnamed := namedText?_keeps hx
  have hnumber := namedNumber_keeps hx
  cases b with
  | row | column =>
      exact .andThen (hnamed _) fun alignment => .andThen (hnamed _) fun gap =>
        .pure (.single (placed_block rfl rfl hc))
  | grid =>
      exact .andThen (hnumber _ _) fun columns => .andThen (hnamed _) fun gap =>
        .pure (.single (placed_block rfl rfl hc))
  | center => exact .pure (.single (placed_block rfl rfl hc))
  | add | multiply | pow =>
      exact .andThen (hargument 0) fun text => .andThen (hnumber _ _) fun y =>
        .pure (text_ordered _ _)
  | truncate =>
      exact .andThen (hargument 0) fun places => .bind (hx .block _ hc) fun ns hns =>
        .pure (truncateBody_ordered _ hns)
  | conditional =>
      simp only [Builtin.run]
      split
      · exact .pure .nil
      · refine .andThen (.look _) fun holds => ?_
        split
        · exact .pure hc
        · exact .pure .nil
  | repetition =>
      refine .andThen (hargument 0) fun text => ?_
      refine .andThen (iterationCount_keeps text _) fun rounds => ?_
      exact repeatFrom_keeps (hx .block _ hc) _ _ _
  | «variable» =>
      refine .andThen (hstripped 0) fun name => ?_
      split
      · exact nothing_keeps (Keeps.warn _ _ _)
      · exact .andThen (hargument 1) fun value => nothing_keeps (Keeps.assign _ _)
  | upper | lower =>
      exact .bind (hx .block _ hc) fun ns hns => .pure (mapTexts_ordered _ hns)
  | documentName | documentAuthor | documentLanguage => exact setMetadata_keeps hx _ c
  | documentType =>
      refine .andThen (hstripped 0) fun value => ?_
      dsimp only
      split
      · exact .andThen (Keeps.warn _ _ _) fun _ => nothing_keeps (Keeps.change fun _ => rfl)
      · exact nothing_keeps (Keeps.change fun _ => rfl)
  | theme =>
      refine .andThen (hstripped 0) fun value => .andThen (Keeps.change fun _ => rfl) fun _ => ?_
      refine .andThen (hnamed _) fun layout => ?_
      cases layout with
      | none => exact .pure .nil
      | some layout =>
          dsimp only
          split
          · exact nothing_keeps (Keeps.change fun _ => rfl)
          · exact .pure .nil
  | inclusion => exact includeFile_keeps hx c
  | definition => exact define_keeps hx hc

theorem bindPositional_keeps (hx : KeepsNodes mixed x) (c : Invocation) :
    ∀ (parameters : List String) (index : Nat) (frame : Frame),
      Keeps mixed (fun _ => True) (Function.bindPositional x c index parameters frame)
  | [], _, _ => .pure trivial
  | _ :: rest, index, _ =>
      .andThen (argumentText_keeps hx c index) fun _ =>
        bindPositional_keeps hx c rest (index + 1) _

theorem bindNamed_keeps (hx : KeepsNodes mixed x) :
    ∀ (parameters : List String) (frame : Frame),
      Keeps mixed (fun _ => True) (Function.bindNamed x parameters frame)
  | [], _ => .pure trivial
  | p :: rest, frame => by
      refine .andThen (namedText?_keeps hx p) fun value => ?_
      cases value with
      | some value => exact bindNamed_keeps hx rest _
      | none => exact bindNamed_keeps hx rest frame

/-- **A function of the document gives blocks in order.** -/
theorem function_keeps (hx : KeepsNodes mixed x) (c : Invocation) {f : Function}
    (hf : Ordered mixed .block f.body) : Keeps mixed (Ordered mixed .block) (f.run x c) := by
  refine .andThen (bindPositional_keeps hx c f.parameters 0 []) fun frame => ?_
  refine .andThen (bindNamed_keeps hx (f.parameters ++ f.named) frame) fun frame => ?_
  exact Keeps.inBlock _ (hx .block _ hf)

/-! ## Calls and nodes -/

theorem expandReference_keeps {p : Place} (hp : p ≠ .item) (name : String) (span : Span) :
    Keeps mixed (Ordered mixed p) (expandReference name span) := by
  refine .andThen (.look _) fun value => ?_
  cases value with
  | some value => exact .pure (.single (placed_text hp _ _))
  | none => exact .andThen (Keeps.warn _ _ _) fun _ => .pure (.single (placed_text hp _ _))

/-- **A call gives blocks in order**, if its body is. -/
theorem expandCall_keeps (hx : KeepsNodes mixed x) (hc : Ordered mixed .block c.body) :
    Keeps mixed (Ordered mixed .block) (expandCall x c) := by
  refine .bind (P := fun found => ∀ f, found = some (.defined f) → Ordered mixed .block f.body)
    (.inspect fun e he f hf => ?_) fun found hfound => ?_
  · unfold Store.callee? at hf
    split at hf
    · next g hg =>
        cases hf
        exact he.functions hg
    · obtain ⟨b, -, hb⟩ := Option.map_eq_some_iff.mp hf
      cases hb
  · cases found with
    | none => exact .andThen (Keeps.warn _ _ _) fun _ => .pure .nil
    | some callee =>
        refine Keeps.inBlock _ ?_
        cases callee with
        | defined f => exact function_keeps hx c (hfound f rfl)
        | builtin b => exact .bind (builtin_keeps hx hc b) fun ns hns => hx .block ns hns

/-- A node gives nodes for its place, if its fragments do and the call that it is gives blocks. -/
theorem expandNode_keeps {onCall : CallMeaning} {resolve : String → Expansion String} {p : Place}
    {n : Node} (hn : Placed (Suits fun _ => mixed) p n)
    (hcall : ∀ c : Invocation, Ordered mixed .block c.body →
      Keeps mixed (Ordered mixed .block) (onCall c))
    (hnodes : ∀ cs ∈ n.fragments, ∀ q, Ordered mixed q cs → Keeps mixed (Ordered mixed q) (x cs)) :
    Keeps mixed (Ordered mixed p) (expandNode ⟨x, onCall⟩ resolve n) := by
  have hself := hn.self
  have hchildren := hn.child
  cases n with
  | document | conditional | loop => exact nomatch hself.readable
  | table headers rows alignment s =>
      generalize hplace : childPlace p (.table headers rows alignment s) = q at hchildren
      have hall : Ordered mixed q (headers.flatten ++ rows.flatten.flatten) := hchildren
      obtain ⟨hheaders, hrows⟩ := List.forall_mem_append.mp hall
      have hheads : Keeps mixed (∀ cell ∈ ·, Ordered mixed q cell) (headers.mapM x) :=
        .mapM fun cell hcell => hnodes cell (List.mem_append_left _ hcell) _ fun m hm =>
          hheaders m (List.mem_flatten.mpr ⟨cell, hcell, hm⟩)
      have hcells : Keeps mixed (∀ cells ∈ ·, ∀ cell ∈ cells, Ordered mixed q cell)
          (rows.mapM fun cells => cells.mapM x) := by
        refine .mapM fun cells hmem => .mapM fun cell hcell => ?_
        have hcell : cell ∈ rows.flatten := List.mem_flatten.mpr ⟨cells, hmem, hcell⟩
        exact hnodes cell (List.mem_append_right _ hcell) _ fun m hm =>
          hrows m (List.mem_flatten.mpr ⟨cell, hcell, hm⟩)
      refine .bind hheads fun heads hheads => .bind hcells fun cells hcells => .pure (.single ?_)
      refine ⟨⟨hself.readable, hself.item, hself.line⟩, fun m hm => ?_⟩
      -- the place of the cells does not hang on what is in them
      suffices h : Placed (Suits fun _ => mixed) q m from hplace ▸ h
      rcases List.mem_append.mp hm with hm | hm
      · obtain ⟨cell, hcell, hm⟩ := List.mem_flatten.mp hm
        exact hheads cell hcell m hm
      · obtain ⟨cell, hcell, hm⟩ := List.mem_flatten.mp hm
        obtain ⟨row, hrow, hcell⟩ := List.mem_flatten.mp hcell
        exact hcells row hrow cell hcell m hm
  | call name args named body s =>
      have hblocks := hcall ⟨name, args, named, body, s⟩
        fun m hm => hchildren m (List.mem_append_right _ hm)
      intro e he
      obtain ⟨hkept, hresult, hfailure⟩ := hblocks e he
      exact ⟨hkept, fun ns hns m hm => (hresult ns hns m hm).splice hself rfl rfl, hfailure⟩
  | reference name s => exact expandReference_keeps (hself.ne_item rfl) name s
  | text | code | math | image | lineBreak | thematicBreak => exact .pure (.single hn)
  | _ =>
      refine .bind (hnodes _ (List.mem_singleton.mpr rfl) _ hchildren) fun cs hcs => .pure ?_
      exact .single ⟨⟨hself.readable, hself.item, hself.line⟩, hcs⟩

/-- Over the tree: nodes are kept in order if calls give blocks in order. -/
theorem expander_keeps {onCall : CallMeaning}
    (hcall : ∀ c : Invocation, Ordered mixed .block c.body →
      Keeps mixed (Ordered mixed .block) (onCall c)) : KeepsNodes mixed (expander onCall) := by
  intro p ns
  induction ns using fragment_induction generalizing p with
  | h ns ih =>
      intro hns
      rw [expander_eq]
      refine .each .nil .append fun n hn => ?_
      exact expandNode_keeps (hns n hn) hcall fun cs hcs q hordered => ih n hn cs hcs q hordered

/-- Over the levels: calls give blocks in order, however many may be open. -/
theorem callMeaning_keeps : ∀ (levels : Nat) (c : Invocation), Ordered mixed .block c.body →
    Keeps mixed (Ordered mixed .block) (callMeaning levels c)
  | 0, _, hbody => expandCall_keeps (fun _ _ _ => .pure .nil) hbody
  | levels + 1, _, hbody => expandCall_keeps (expander_keeps (callMeaning_keeps levels)) hbody

/-- **Expansion keeps nodes in order**, at the place where they stand. -/
theorem expandNodes_keeps : KeepsNodes mixed expandNodes :=
  fun p ns hns e he => expander_keeps (callMeaning_keeps e.setting.levels) p ns hns e he

/-- **What is left of the nodes of a document is in order**, whichever of them fail. -/
theorem expandEach_ordered (hx : KeepsNodes mixed x) :
    ∀ (ns : List Node) (e : Environment), Ordered mixed .block ns → e.InOrder mixed →
      Ordered mixed .block (expandEach x ns e).1 := by
  intro ns
  induction ns with
  | nil => exact fun _ _ _ => .nil
  | cons n rest ih =>
      intro e hns he
      obtain ⟨hkept, hresult, -⟩ := hx .block [n] (.single hns.head) e he
      unfold expandEach
      split
      · next nodes e' hrun =>
          rw [hrun] at hkept hresult
          exact (hresult nodes rfl).append (ih e' hns.tail hkept)
      · next f e' hrun =>
          rw [hrun] at hkept
          split
          · exact .nil
          · exact ih _ hns.tail ⟨hkept.functions, hkept.files⟩

end Expansion

end Livedoc
