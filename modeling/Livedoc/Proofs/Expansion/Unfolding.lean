import Livedoc.Document.Reading
import Livedoc.Proofs.Document.Names
import Livedoc.Proofs.Expansion.Composed

/-!
# One level of expansion

Expanding a node expands lists of nodes within it: the children of a container, the
cells of a table, the branches of a choice, the body of a repetition, and what the
count of a repetition reads as.  These lists are the node's `fragments`.  A call has
none, since what it expands depends on the environment.

The count is text and no part of the tree, so a fragment need not be smaller than its
node.  But then it holds no repetition, while the node is one: a repetition is a node of
its own kind that only a program makes, and what is read from a line of text never holds
one (`readLine_loopFree`).  The pair of the number of repetitions and the number of nodes,
in this order, therefore decreases from nodes to their fragments (`rank_lt_of_fragment`),
and statements about the expansion of nodes can be proved by induction along it.

`expandNode` expands a single node, given what its fragments expand to and what calls
stand for; it does not recur.  `unfold` does the same for a list of nodes and runs the
calls as well: it is the recursion of expansion, taken one level deep, with the
expansions that are nested in it left open.

Expansion itself is by recursion over the tree and over the levels of calls.
`expander_eq` says that, for fixed calls, it is what `expandNode` says it is when the
nested expansions are expansion itself.

Every property of steps that is closed then holds of expansion as a whole.  Over the tree, nodes
have the property if their fragments and the calls among them do (`ClosedInPlace.expander`).  Over
the levels, a call has it if the nodes expanded within it do (`Closed.expandCall`), since what it
runs is composed of steps that do.  So calls have it, however many may be open
(`Closed.callMeaning`).

Among these properties is that the environment is restored (`restores_closed`).  Expanding nodes
enters calls, frames and files, swaps the source and works on copies, and it may break off within
any of them.  Whatever happens, the environment is `Restored` when it is over
(`expandNodes_restored`): the open calls and files, the named arguments, the source with its file
and folder, the include paths and the limits are the same, only the innermost frame may hold other
variables, and no message is lost.
-/

namespace Livedoc.Document

open Livedoc.Tree Livedoc.Tree.Node

/-- **What is read from a line of text holds no repetition**: all that is dynamic in it are calls
and references. -/
theorem readLine_loopFree (text : String) : ∀ n ∈ readLine text, n.LoopFree := by
  have hline : AllDynamic (InLine fun _ _ => True) (readLine text) :=
    (inlineNodes_allDynamic (.everywhere (P := fun _ => True) (fun h _ => h)
      fun _ _ _ _ => inLine_ofHead trivial) [] trivial _ trivial).1
  intro n hn m hm
  cases m with
  | loop count body counter span =>
      exact (hline _ (mem_walkAll.mpr ⟨n, hn, hm⟩) rfl).elim
  | _ => rfl

end Livedoc.Document

namespace Livedoc.Tree.Node

/-- The lists of nodes that are expanded where the node is, calls apart. -/
def fragments : Node → List (List Node)
  | document cs _ | paragraph cs _ | heading _ cs _ | list _ cs _ _ | listItem cs _
  | blockquote cs _ _ | link _ cs _ _ | emphasis cs _ _ | row cs _ _ _ | column cs _ _ _
  | grid cs _ _ _ | center cs _ => [cs]
  | table headers rows _ _ => headers ++ rows.flatten
  | conditional _ consequent alternative _ => [consequent, alternative]
  | loop count body _ _ => [Document.readLine count, body]
  | _ => []

/-- The number of repetitions in nodes, and the number of nodes. -/
def rank (ns : List Node) : Nat × Nat := (loops ns, (walkAll ns).length)

/-- The order of ranks: first the repetitions count, then the nodes. -/
def RankLt : Nat × Nat → Nat × Nat → Prop := Prod.Lex (· < ·) (· < ·)

theorem rankLt_wf : WellFounded RankLt := (Prod.lex Nat.lt_wfRel Nat.lt_wfRel).wf

/-- What stands below one of the nodes has a smaller rank than the nodes. -/
theorem rank_lt_of_sublist {n : Node} {ns cs : List Node} (hn : n ∈ ns)
    (hsub : (n :: walkAll cs).Sublist n.walk) : RankLt (rank cs) (rank ns) := by
  have hwalk : (n :: walkAll cs).Sublist (walkAll ns) := hsub.trans (walk_sublist_walkAll hn)
  have hloops : loops cs ≤ loops ns :=
    ((List.sublist_cons_self n (walkAll cs)).trans hwalk).countP_le
  have hlength : (walkAll cs).length < (walkAll ns).length := hwalk.length_le
  rcases Nat.lt_or_eq_of_le hloops with hlt | heq
  · exact Prod.Lex.left _ _ hlt
  · rw [rank, rank, heq]
    exact Prod.Lex.right _ hlength

private theorem mem_two {cs ds es : List Node} (h : cs ∈ [ds, es]) : cs = ds ∨ cs = es := by
  simpa using h

/-- The fragments of a node stand below it, except for what a count reads as. -/
theorem fragment_cases {n : Node} {cs : List Node} (h : cs ∈ n.fragments) :
    (n :: walkAll cs).Sublist n.walk ∨
      n.isLoop = true ∧ ∃ count, cs = Document.readLine count := by
  cases n with
  | table headers rows alignment s =>
      left
      rw [walk, walkCells_eq, walkRows_eq]
      refine List.Sublist.cons_cons _ ?_
      rcases List.mem_append.mp h with hcell | hcell
      · exact (walkAll_sublist_flatten hcell).trans (List.sublist_append_left _ _)
      · exact (walkAll_sublist_flatten hcell).trans (List.sublist_append_right _ _)
  | conditional condition consequent alternative s =>
      left
      rw [walk]
      refine List.Sublist.cons_cons _ ?_
      rcases mem_two h with rfl | rfl
      · exact List.sublist_append_left _ _
      · exact List.sublist_append_right _ _
  | loop count body counter s =>
      rcases mem_two h with rfl | rfl
      · exact .inr ⟨rfl, count, rfl⟩
      · left
        simp only [walk, List.Sublist.refl]
  | text | code | math | image | lineBreak | thematicBreak | reference | call => cases h
  | _ =>
      -- the containers, each with its children as the only fragment
      left
      obtain rfl := List.mem_singleton.mp h
      simp only [walk, List.Sublist.refl]

/-- **Fragments have a smaller rank** than the nodes that one of their nodes is among. -/
theorem rank_lt_of_fragment {n : Node} {ns cs : List Node} (hn : n ∈ ns) (h : cs ∈ n.fragments) :
    RankLt (rank cs) (rank ns) := by
  rcases fragment_cases h with hsub | ⟨hloop, count, rfl⟩
  · exact rank_lt_of_sublist hn hsub
  · have hnone : loops (Document.readLine count) = 0 :=
      loops_eq_zero_iff.mpr (Document.readLine_loopFree count)
    have hsome : 0 < loops ns := by
      refine Nat.pos_of_ne_zero fun hzero => ?_
      have hfree : n.LoopFree := loops_eq_zero_iff.mp hzero n hn
      rw [hfree n n.mem_walk_self] at hloop
      cases hloop
    exact Prod.Lex.left _ _ (by omega)

/-- The fragments of loop-free nodes are loop-free. -/
theorem loopFree_of_fragment {n : Node} {cs : List Node} (hn : n.LoopFree)
    (h : cs ∈ n.fragments) : ∀ m ∈ cs, m.LoopFree := by
  rcases fragment_cases h with hsub | ⟨-, count, rfl⟩
  · intro m hm k hk
    have hwalk : k ∈ walkAll cs := mem_walkAll.mpr ⟨m, hm, hk⟩
    exact hn k (hsub.subset (List.mem_cons_of_mem n hwalk))
  · exact Document.readLine_loopFree count

/-- Induction along fragments: a statement about nodes may use the statement about
everything that is expanded within them. -/
theorem fragment_induction {P : List Node → Prop}
    (h : ∀ ns, (∀ n ∈ ns, ∀ cs ∈ n.fragments, P cs) → P ns) (ns : List Node) : P ns := by
  induction hr : rank ns using rankLt_wf.induction generalizing ns with
  | _ r ih =>
      refine h ns fun n hn cs hcs => ih (rank cs) ?_ cs rfl
      rw [← hr]
      exact rank_lt_of_fragment hn hcs

end Livedoc.Tree.Node

namespace Livedoc

open Livedoc.Expansion Livedoc.Problem Livedoc.Source Livedoc.Tree Livedoc.Tree.Node

variable {α : Type}

/-- The node of a call. -/
def Invocation.toNode (c : Invocation) : Node := .call c.name c.arguments c.named c.body c.span

/-- The text of a named argument is one of those that the call is written with. -/
theorem Invocation.mem_named_of_get? {c : Invocation} {key raw : String}
    (h : c.namedTexts.get? key = some raw) : ∃ a ∈ c.named, a.value.content = raw := by
  suffices hfold : ∀ (named : List NamedArgument) (d : Dictionary String),
      (named.foldl (fun d a => d.set a.name a.value.content) d).get? key = some raw →
        d.get? key = some raw ∨ ∃ a ∈ named, a.value.content = raw from
    (hfold c.named [] h).resolve_left (by simp [Dictionary.get?])
  intro named
  induction named with
  | nil => exact fun d h => .inl h
  | cons a named ih =>
      intro d h
      rcases ih _ h with hset | ⟨b, hb, hraw⟩
      · rw [Dictionary.get?_set] at hset
        split at hset
        · exact .inr ⟨a, by simp, Option.some.inj hset⟩
        · exact .inl hset
      · exact .inr ⟨b, by simp [hb], hraw⟩

/-- Expands a node.  `x` gives what its fragments expand to and what a call stands for,
`resolve` the text of the count of a repetition. -/
def expandNode (x : Meaning) (resolve : String → Expansion String) : Node → Expansion (List Node)
  | .document cs s => return [.document (← x.nodes cs) s]
  | .paragraph cs s => return [.paragraph (← x.nodes cs) s]
  | .heading level cs s => return [.heading level (← x.nodes cs) s]
  | .list ordered cs start s => return [.list ordered (← x.nodes cs) start s]
  | .listItem cs s => return [.listItem (← x.nodes cs) s]
  | .blockquote cs quoteType s => return [.blockquote (← x.nodes cs) quoteType s]
  | .link url cs title s => return [.link url (← x.nodes cs) title s]
  | .emphasis cs strong s => return [.emphasis (← x.nodes cs) strong s]
  | .row cs alignment gap s => return [.row (← x.nodes cs) alignment gap s]
  | .column cs alignment gap s => return [.column (← x.nodes cs) alignment gap s]
  | .grid cs columns gap s => return [.grid (← x.nodes cs) columns gap s]
  | .center cs s => return [.center (← x.nodes cs) s]
  | .table headers rows alignment s => do
    let heads ← headers.mapM x.nodes
    let cells ← rows.mapM fun cells => cells.mapM x.nodes
    return [.table heads cells alignment s]
  | .call name args named body s => x.call ⟨name, args, named, body, s⟩
  | .reference name s => expandReference name s
  | .conditional condition consequent alternative _ => do
    if (← inspect (·.store.holds condition)) then x.nodes consequent else x.nodes alternative
  | .loop count body counter s => do
    let rounds ← iterationCount (← resolve count) s
    repeatBody x.nodes body counter rounds
  | n => return [n]

/-- What nodes give, one after the other. -/
def each (f : Node → Expansion (List Node)) : List Node → Expansion (List Node)
  | [] => return []
  | n :: rest => do
    let first ← f n
    let others ← each f rest
    return first ++ others

/-- What an expander makes of nodes and, by expanding what is within them, of calls. -/
def Expansion.Meaning.of (x : Expander) : Meaning := ⟨x, expandCall x⟩

/-- The recursion of expansion, one level deep: `nested` expands what is expanded
within the nodes and within the calls among them. -/
def unfold (nested : Expander) : Expander :=
  each (expandNode (.of nested) (resolveText nested))

/-- What is maintained for each node is maintained for all of them. -/
theorem Expansion.Maintains.each {I : Environment → Prop} {F : Failure → Prop}
    {P : List Node → Prop} (hnil : P []) (happend : ∀ {ns ms}, P ns → P ms → P (ns ++ ms))
    {f : Node → Expansion (List Node)} {ns : List Node} (h : ∀ n ∈ ns, Maintains I F P (f n)) :
    Maintains I F P (Livedoc.each f ns) := by
  induction ns with
  | nil => exact .pure hnil
  | cons n rest ih =>
      refine .bind (h n (by simp)) fun first hfirst => ?_
      refine .bind (ih fun m hm => h m (by simp [hm])) fun others hothers => ?_
      exact .pure (happend hfirst hothers)

/-! ## Agreement -/

theorem each_congr {f g : Node → Expansion (List Node)} {ns : List Node}
    (h : ∀ n ∈ ns, f n = g n) : each f ns = each g ns := by
  induction ns with
  | nil => rfl
  | cons n rest ih =>
      rw [each, each, h n (by simp), ih fun m hm => h m (by simp [hm])]

theorem mapM_congr {γ : Type} {f g : γ → Expansion α} {l : List γ} (h : ∀ c ∈ l, f c = g c) :
    l.mapM f = l.mapM g := by
  induction l with
  | nil => rfl
  | cons c l ih =>
      rw [List.mapM_cons, List.mapM_cons, h c (by simp), ih fun c' hc' => h c' (by simp [hc'])]

theorem repeatFrom_congr {x y : Expander} {ns : List Node} (h : x ns = y ns) (counter : String) :
    ∀ rounds done, repeatFrom x ns counter done rounds = repeatFrom y ns counter done rounds := by
  intro rounds
  induction rounds with
  | zero => intro done; rfl
  | succ rounds ih =>
      intro done
      rw [repeatFrom, repeatFrom, h, ih (done + 1)]

theorem repeatBody_congr {x y : Expander} {ns : List Node} (h : x ns = y ns) (counter : String)
    (rounds : Int) : repeatBody x ns counter rounds = repeatBody y ns counter rounds :=
  repeatFrom_congr h counter rounds.toNat 0

theorem resolveText_congr {x y : Expander} {raw : String}
    (h : x (Document.readLine raw) = y (Document.readLine raw)) :
    resolveText x raw = resolveText y raw := by
  unfold resolveText
  rw [h]

/-- The expansion of a node hangs on its fragments, on calls, and, if it is a
repetition, on how counts are resolved. -/
theorem expandNode_congr {x y : Meaning} {r r' : String → Expansion String} {n : Node}
    (hnodes : ∀ cs ∈ n.fragments, x.nodes cs = y.nodes cs) (hcall : x.call = y.call)
    (hcount : n.isLoop = true → r = r') : expandNode x r n = expandNode y r' n := by
  cases n with
  | table headers rows alignment s =>
      have hheads : headers.mapM x.nodes = headers.mapM y.nodes :=
        mapM_congr fun cell hcell => hnodes cell (List.mem_append_left _ hcell)
      have hcells : (rows.mapM fun cells => cells.mapM x.nodes) =
          rows.mapM fun cells => cells.mapM y.nodes := by
        refine mapM_congr fun cells hmem => mapM_congr fun cell hcell => ?_
        exact hnodes cell (List.mem_append_right _ (List.mem_flatten.mpr ⟨cells, hmem, hcell⟩))
      simp only [expandNode, hheads, hcells]
  | call name args named body s => simp only [expandNode, hcall]
  | conditional condition consequent alternative s =>
      simp only [expandNode, hnodes consequent (by simp [fragments]),
        hnodes alternative (by simp [fragments])]
  | loop count body counter s =>
      have hbody : x.nodes body = y.nodes body := hnodes body (by simp [fragments])
      simp only [expandNode, hcount rfl, repeatBody_congr hbody]
  | text | code | math | image | lineBreak | thematicBreak | reference => rfl
  | _ => simp only [expandNode, hnodes _ (List.mem_singleton.mpr rfl)]

/-! ## Expansion over the tree -/

section Tree

variable (onCall : CallMeaning) (resolve : String → Expansion String)

theorem expandCells_eq (cells : List (List Node)) :
    expandCells onCall resolve cells = cells.mapM (expandAll onCall resolve) := by
  induction cells with
  | nil => rw [expandCells, List.mapM_nil]
  | cons cell rest ih => rw [expandCells, ih, List.mapM_cons]

theorem expandRows_eq (rows : List (List (List Node))) :
    expandRows onCall resolve rows =
      rows.mapM fun cells => cells.mapM (expandAll onCall resolve) := by
  induction rows with
  | nil => rw [expandRows, List.mapM_nil]
  | cons cells rest ih => rw [expandRows, ih, expandCells_eq, List.mapM_cons]

theorem expandWith_eq (n : Node) :
    expandWith onCall resolve n = expandNode ⟨expandAll onCall resolve, onCall⟩ resolve n := by
  cases n with
  | table headers rows alignment s =>
      rw [expandWith, expandCells_eq, expandRows_eq, expandNode]
  | loop count body counter s =>
      have hbody (rounds : Int) :
          repeatBody (fun _ => expandAll onCall resolve body) body counter rounds =
            repeatBody (expandAll onCall resolve) body counter rounds :=
        repeatBody_congr (x := fun _ => expandAll onCall resolve body) rfl counter rounds
      simp only [expandWith, expandNode, hbody]
  | text | code | math | image | lineBreak | thematicBreak => simp only [expandWith, expandNode]
  | _ => rw [expandWith, expandNode]

theorem expandAll_eq (ns : List Node) :
    expandAll onCall resolve ns =
      each (expandNode ⟨expandAll onCall resolve, onCall⟩ resolve) ns := by
  induction ns with
  | nil => rw [expandAll, each]
  | cons n rest ih => rw [expandAll, each, expandWith_eq, ← ih]

end Tree

/-- Where there are no repetitions, it does not matter how counts are resolved. -/
theorem expandAll_of_loopFree (onCall : CallMeaning) (r r' : String → Expansion String) :
    ∀ ns : List Node, (∀ n ∈ ns, n.LoopFree) → expandAll onCall r ns = expandAll onCall r' ns := by
  intro ns
  induction ns using fragment_induction with
  | h ns ih =>
      intro hfree
      rw [expandAll_eq, expandAll_eq onCall r' ns]
      apply each_congr
      intro n hn
      refine expandNode_congr (fun cs hcs => ?_) rfl fun hloop => ?_
      · exact ih n hn cs hcs (loopFree_of_fragment (hfree n hn) hcs)
      · rw [hfree n hn n n.mem_walk_self] at hloop
        cases hloop

/-- Resolving the count of a repetition is resolving any text. -/
theorem resolveCount_eq (onCall : CallMeaning) :
    resolveCount onCall = resolveText (expander onCall) := by
  funext raw
  exact resolveText_congr
    (expandAll_of_loopFree onCall pure _ _ (Document.readLine_loopFree raw))

/-- **Expansion for fixed calls** does with every node what `expandNode` says, the
nested expansions being expansion itself. -/
theorem expander_eq (onCall : CallMeaning) (ns : List Node) :
    expander onCall ns =
      each (expandNode ⟨expander onCall, onCall⟩ (resolveText (expander onCall))) ns := by
  rw [← resolveCount_eq]
  exact expandAll_eq onCall (resolveCount onCall) ns

/-! ## Composition -/

namespace Expansion.Composed

variable {u : Use}

theorem each {f : Node → Meaning → Expansion (List Node)} :
    ∀ {ns : List Node}, (∀ n ∈ ns, Composed u (f n)) →
      Composed u fun x => Livedoc.each (f · x) ns := by
  intro ns
  induction ns with
  | nil =>
      intro _
      exact pure []
  | cons n rest ih =>
      intro h
      refine bind (h n (by simp)) fun first => ?_
      exact map (ih fun m hm => h m (by simp [hm])) (first ++ ·)

/-- Expanding a node asks for its fragments, and for the call that it is. -/
theorem expandNode {n : Node} (hnodes : ∀ cs ∈ n.fragments, u.nodes cs)
    (hcall : ∀ c : Invocation, n = c.toNode → u.call c) :
    Composed u fun x => Livedoc.expandNode x (Livedoc.resolveText x.nodes) n := by
  cases n with
  | table headers rows alignment s =>
      have hheads : ∀ cell ∈ headers, Composed u fun x => x.nodes cell :=
        fun cell hcell => nodes (hnodes cell (List.mem_append_left _ hcell))
      have hcells : ∀ cells ∈ rows, Composed u fun x => cells.mapM x.nodes := by
        intro cells hmem
        refine mapM fun cell hcell => nodes (hnodes cell ?_)
        exact List.mem_append_right _ (List.mem_flatten.mpr ⟨cells, hmem, hcell⟩)
      refine bind (mapM hheads) fun heads => ?_
      exact map (mapM hcells) _
  | call name args named body s => exact call (hcall ⟨name, args, named, body, s⟩ rfl)
  | reference name s => exact expandReference name s
  | conditional condition consequent alternative s =>
      refine bind (primitive (.holds condition)) fun holds => ?_
      cases holds
      · exact nodes (hnodes alternative (by simp [fragments]))
      · exact nodes (hnodes consequent (by simp [fragments]))
  | loop count body counter s =>
      refine bind (resolveText (hnodes _ (by simp [fragments]))) fun text => ?_
      refine bind (iterationCount text s) fun rounds => ?_
      exact repeatBody (hnodes body (by simp [fragments])) counter rounds
  | text | code | math | image | lineBreak | thematicBreak => exact pure _
  | _ => exact map (nodes (hnodes _ (List.mem_singleton.mpr rfl))) _

end Expansion.Composed

end Livedoc

/-! ## What holds of all expansion -/

namespace Livedoc.Expansion

open Livedoc.Tree Livedoc.Tree.Node

/-- What the expansion of nodes may ask for: their fragments, and the calls among
them.  It enters no block itself, and makes no copy. -/
def Use.ofNodes (ns : List Node) : Use where
  nodes cs := ∃ n ∈ ns, cs ∈ n.fragments
  call c := c.toNode ∈ ns
  block _ := False
  isolation := False

theorem Composed.level (ns : List Node) : Composed (.ofNodes ns) fun x =>
    Livedoc.each (Livedoc.expandNode x (Livedoc.resolveText x.nodes)) ns := by
  refine Composed.each fun n hn => Composed.expandNode (fun cs hcs => ⟨n, hn, hcs⟩) fun c hc => ?_
  show c.toNode ∈ ns
  exact hc ▸ hn

variable {P : ∀ α : Type, Expansion α → Prop}

/-- Over the tree: nodes have the property if all calls do. -/
theorem ClosedInPlace.expander (hP : ClosedInPlace P) {onCall : CallMeaning}
    (hcall : ∀ c, P _ (onCall c)) : ∀ ns, P _ (expander onCall ns) := by
  intro ns
  induction ns using fragment_induction with
  | h ns ih =>
      rw [expander_eq]
      refine hP.composed (False.elim ·) ?_ (fun c _ => hcall c) (Composed.level ns)
      rintro cs ⟨n, hn, hcs⟩
      exact ih n hn cs hcs

namespace Closed

/-- A call has the property if the nodes expanded within it do. -/
theorem expandCall (hP : Closed P) {x : Expander} (hx : ∀ ns, P _ (x ns)) (c : Invocation) :
    P _ (expandCall x c) := by
  refine hP.bind (hP.primitive (.callee c.name)) fun found => ?_
  cases found with
  | none => exact hP.bind (hP.primitive (.warn _ _ _)) fun _ => hP.pure []
  | some callee =>
      refine hP.inBlock _ ?_
      exact hP.composed (fun _ => hP.inIsolation) (x := ⟨x, Livedoc.expandCall x⟩)
        (fun ns _ => hx ns) (fun _ h => False.elim h) (Composed.callee c callee)

/-- Over the levels: calls have the property, however many may be open. -/
theorem callMeaning (hP : Closed P) :
    ∀ (levels : Nat) (c : Invocation), P _ (callMeaning levels c) := by
  intro levels
  induction levels with
  | zero => exact hP.expandCall fun _ => hP.pure []
  | succ levels ih => exact hP.expandCall (hP.expander ih)

end Closed

end Livedoc.Expansion

/-! ## Expansion restores its environment -/

namespace Livedoc.Expansion

open Livedoc.Environment Livedoc.Problem Livedoc.Tree

/-- Over the tree: nodes restore their environment if all calls do. -/
theorem expander_restores {onCall : CallMeaning} (hcall : ∀ c, Restores (onCall c)) :
    ∀ ns, Restores (expander onCall ns) :=
  restores_closed.expander hcall

/-- Whatever calls mean, a call asks for no further one. -/
theorem Meaning.restores_inCall {x : Expander} (hx : ∀ ns, Expansion.Restores (x ns))
    (onCall : CallMeaning) : Meaning.Restores ⟨x, onCall⟩ .inCall :=
  ⟨fun ns _ => hx ns, fun _ h => False.elim h⟩

/-- An expander that restores the environment gives a meaning that does. -/
theorem Meaning.of_restores {x : Expander} (hx : ∀ ns, Expansion.Restores (x ns)) (u : Use) :
    (Meaning.of x).Restores u :=
  ⟨fun ns _ => hx ns, fun c _ => restores_closed.expandCall hx c⟩

/-- Over the levels: calls restore the environment, however many may be open. -/
theorem callMeaning_restores (levels : Nat) (c : Invocation) : Restores (callMeaning levels c) :=
  restores_closed.callMeaning levels c

theorem expandNodes_restores (ns : List Node) : Restores (expandNodes ns) :=
  fun e => expander_restores (callMeaning_restores _) ns e

/-- What is kept where nodes are expanded, and where a failure is recorded or ends the work, is kept
where the nodes of a document are expanded one by one. -/
theorem expandEach_keeps {I : Environment → Prop} {x : Expander}
    (hnodes : ∀ n e, I e → I (x [n] e).2) (hfail : ∀ e err, I e → I (e.mapStore (·.fail err)))
    (hgiveUp : ∀ e reason, I e → I (e.mapStore (·.giveUp reason))) (ns : List Node) :
    ∀ e, I e → I (expandEach x ns e).2 := by
  induction ns with
  | nil => exact fun _ he => he
  | cons n rest ih =>
      intro e he
      have hafter := hnodes n e he
      rcases hrun : x [n] e with ⟨result, after⟩
      rw [hrun] at hafter
      cases result with
      | ok nodes =>
          simp only [expandEach, hrun]
          exact ih after hafter
      | error f =>
          simp only [expandEach, hrun]
          by_cases hfatal : f.cause.isFatal
          · rw [if_pos hfatal]
            exact hgiveUp after f.message hafter
          · rw [if_neg hfatal]
            exact ih _ (hfail after f.toError hafter)

/-- Expanding the nodes of a document one by one restores the environment, though failures
are recorded and passed over. -/
theorem expandEach_restored (ns : List Node) (e : Environment) :
    Restored e (expandEach expandNodes ns e).2 :=
  expandEach_keeps (fun n e' he => he.trans (expandNodes_restores [n] e'))
    (fun e' _ he => he.trans (Restored.failAll e' _))
    (fun e' _ he => he.trans (Restored.inquire e' _)) ns e (Restored.refl e)

/-- **Expansion restores its environment.**  After nodes were expanded, whether that
gave nodes or broke off, the setting is the one before: the open calls and files, the
named arguments, the source, its file and folder, the include paths and the limits.
There are as many frames as before, those below the innermost are the same, and so are
the globals if there is a frame.  The messages before are the first ones after. -/
theorem expandNodes_restored (ns : List Node) (e : Environment) :
    let after := (expandNodes ns e).2
    after.setting = e.setting ∧
      after.store.frames.length = e.store.frames.length ∧
      after.store.frames.tail = e.store.frames.tail ∧
      (e.store.frames ≠ [] → after.store.globals = e.store.globals) ∧
      e.store.report.warnings <+: after.store.report.warnings ∧
      e.store.report.errors <+: after.store.report.errors := by
  intro after
  have h : Restored e after := expandNodes_restores ns e
  exact ⟨h.setting, h.frames_length, h.outer, h.globals, h.warnings, h.errors⟩

end Livedoc.Expansion
