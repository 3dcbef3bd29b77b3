import Livedoc.Proofs.Expansion.Unfolding

/-!
# Expansion leaves no dynamic node

What expansion returns holds no call, no reference, no choice and no repetition,
neither at the top nor below.  The functions of the document and the built-in ones are
free to give nodes that hold some: a call expands once more whatever a built-in
function gives, and a function of the document gives nothing that was not expanded.
So a call returns static nodes as soon as expanding nodes within it does, whatever it
runs, and the rest is by recursion over the tree and over the levels of calls.
-/

namespace Livedoc.Expansion

open Livedoc.Environment Livedoc.Problem Livedoc.Source Livedoc.Tree Livedoc.Tree.Node

/-- Nodes without a dynamic node among or below them. -/
def Static (ns : List Node) : Prop := ∀ n ∈ ns, n.containsDynamic = false

namespace Static

theorem nil : Static [] := by
  intro n hn
  cases hn

theorem append {ns ms : List Node} (hns : Static ns) (hms : Static ms) : Static (ns ++ ms) := by
  intro n hn
  rcases List.mem_append.mp hn with hn | hn
  · exact hns n hn
  · exact hms n hn

theorem flatten {cells : List (List Node)} (h : ∀ cell ∈ cells, Static cell) :
    Static cells.flatten := by
  intro n hn
  obtain ⟨cell, hcell, hmem⟩ := List.mem_flatten.mp hn
  exact h cell hcell n hmem

/-- A node that is not dynamic is static over static nodes. -/
theorem parent {n : Node} {cs : List Node} (hwalk : n.walk = n :: walkAll cs)
    (hn : n.isDynamic = false) (hcs : Static cs) : Static [n] := by
  intro m hm
  rw [List.mem_singleton.mp hm, containsDynamic, hwalk, List.any_cons, hn, Bool.false_or]
  exact any_isDynamic_walkAll.mpr hcs

theorem leaf {n : Node} (hwalk : n.walk = [n]) (hn : n.isDynamic = false) : Static [n] :=
  parent (by rw [hwalk, walkAll]) hn nil

theorem table {heads : List (List Node)} {rows : List (List (List Node))}
    (alignment : List (Option String)) (s : Span) (hheads : ∀ cell ∈ heads, Static cell)
    (hrows : ∀ cells ∈ rows, ∀ cell ∈ cells, Static cell) :
    Static [.table heads rows alignment s] := by
  have hcells : Static rows.flatten.flatten := by
    refine flatten fun cell hcell => ?_
    obtain ⟨cells, hmem, hcell⟩ := List.mem_flatten.mp hcell
    exact hrows cells hmem cell hcell
  refine parent ?_ rfl ((flatten hheads).append hcells)
  rw [walk, walkCells_eq, walkRows_eq, walkAll_append]

end Static

/-! ## One level -/

theorem each_static {f : Node → Expansion (List Node)} :
    ∀ {ns : List Node}, (∀ n ∈ ns, Returns Static (f n)) → Returns Static (each f ns) := by
  intro ns
  induction ns with
  | nil => exact fun _ => Returns.pure Static.nil
  | cons n rest ih =>
      intro h
      refine Returns.bind (h n (by simp)) fun first hfirst => ?_
      refine Returns.bind (ih fun m hm => h m (by simp [hm])) fun others hothers => ?_
      exact Returns.pure (hfirst.append hothers)

theorem repeatFrom_static {x : Expander} {ns : List Node} (h : Returns Static (x ns))
    (counter : String) :
    ∀ rounds done, Returns Static (repeatFrom x ns counter done rounds) := by
  intro rounds
  induction rounds with
  | zero => exact fun _ => Returns.pure Static.nil
  | succ rounds ih =>
      intro done
      refine Returns.bind (Returns.trivial _) fun _ _ => ?_
      refine Returns.bind h fun first hfirst => ?_
      refine Returns.bind (ih (done + 1)) fun others hothers => ?_
      exact Returns.pure (hfirst.append hothers)

theorem expandReference_static (name : String) (s : Span) :
    Returns Static (expandReference name s) := by
  refine Returns.bind (Returns.trivial _) fun value _ => ?_
  cases value with
  | some value => exact Returns.pure (Static.leaf (by simp [walk]) rfl)
  | none =>
      refine Returns.bind (Returns.trivial _) fun _ _ => ?_
      exact Returns.pure (Static.leaf (by simp [walk]) rfl)

/-- A node expands to static nodes if its fragments and the call that it is do. -/
theorem expandNode_static {x : Meaning} {resolve : String → Expansion String} {n : Node}
    (hnodes : ∀ cs ∈ n.fragments, Returns Static (x.nodes cs))
    (hcall : ∀ c, Returns Static (x.call c)) : Returns Static (expandNode x resolve n) := by
  cases n with
  | table headers rows alignment s =>
      have hheads : Returns (∀ cell ∈ ·, Static cell) (headers.mapM x.nodes) :=
        Returns.mapM fun cell hcell => hnodes cell (List.mem_append_left _ hcell)
      have hcells : Returns (∀ cells ∈ ·, ∀ cell ∈ cells, Static cell)
          (rows.mapM fun cells => cells.mapM x.nodes) := by
        refine Returns.mapM fun cells hmem => Returns.mapM fun cell hcell => hnodes cell ?_
        exact List.mem_append_right _ (List.mem_flatten.mpr ⟨cells, hmem, hcell⟩)
      refine Returns.bind hheads fun heads hheads => ?_
      refine Returns.bind hcells fun cells hcells => ?_
      exact Returns.pure (Static.table alignment s hheads hcells)
  | call name args named body s => exact hcall _
  | reference name s => exact expandReference_static name s
  | conditional condition consequent alternative s =>
      refine Returns.bind (Returns.trivial _) fun holds _ => ?_
      cases holds
      · exact hnodes alternative (by simp [fragments])
      · exact hnodes consequent (by simp [fragments])
  | loop count body counter s =>
      refine Returns.bind (Returns.trivial _) fun text _ => ?_
      refine Returns.bind (Returns.trivial _) fun rounds _ => ?_
      exact repeatFrom_static (hnodes body (by simp [fragments])) counter _ _
  | text | code | math | image | lineBreak | thematicBreak =>
      exact Returns.pure (Static.leaf (by simp [walk]) rfl)
  | _ =>
      refine Returns.bind (hnodes _ (List.mem_singleton.mpr rfl)) fun cs hcs => ?_
      exact Returns.pure (Static.parent (by rw [walk]) rfl hcs)

/-- Over the tree: nodes expand to static nodes if calls give static nodes. -/
theorem expander_static {onCall : CallMeaning} (hcall : ∀ c, Returns Static (onCall c)) :
    ∀ ns, Returns Static (expander onCall ns) := by
  intro ns
  induction ns using fragment_induction with
  | h ns ih =>
      rw [expander_eq]
      apply each_static
      intro n hn
      exact expandNode_static (ih n hn) hcall

/-- A call gives static nodes if expanding nodes within it does.  What a built-in
function gives is expanded once more, so nothing has to be known of it. -/
theorem expandCall_static {x : Expander} (hx : ∀ ns, Returns Static (x ns)) (c : Invocation) :
    Returns Static (expandCall x c) := by
  refine Returns.bind (Returns.trivial _) fun found _ => ?_
  cases found with
  | none =>
      refine Returns.bind (Returns.trivial _) fun _ _ => ?_
      exact Returns.pure Static.nil
  | some callee =>
      refine Returns.inBlock _ ?_
      cases callee with
      | defined f =>
          refine Returns.bind (Returns.trivial _) fun _ _ => ?_
          refine Returns.bind (Returns.trivial _) fun _ _ => ?_
          exact Returns.inBlock _ (hx f.body)
      | builtin b => exact Returns.bind (Returns.trivial _) fun ns _ => hx ns

/-! ## All levels -/

theorem callMeaning_static :
    ∀ (levels : Nat) (c : Invocation), Returns Static (callMeaning levels c) := by
  intro levels
  induction levels with
  | zero => exact expandCall_static fun _ => Returns.pure Static.nil
  | succ levels ih => exact expandCall_static (expander_static ih)

theorem expandNodes_static (ns : List Node) : Returns Static (expandNodes ns) :=
  fun e => expander_static (callMeaning_static _) ns e

/-! ## Static nodes are what they expand to -/

/-- Everything that is expanded within a static node is static. -/
theorem static_of_fragment {n : Node} {cs : List Node} (hn : n.containsDynamic = false)
    (h : cs ∈ n.fragments) : Static cs := by
  rw [containsDynamic, List.any_eq_false] at hn
  rcases fragment_cases h with hsub | ⟨hloop, -⟩
  · refine any_isDynamic_walkAll.mp (List.any_eq_false.mpr fun m hm => ?_)
    exact hn m (hsub.subset (List.mem_cons_of_mem n hm))
  · have hdynamic : n.isDynamic = true := by
      cases n <;> first | rfl | cases hloop
    exact absurd hdynamic (hn n n.mem_walk_self)

theorem mapM_of_self {γ : Type} {f : γ → Expansion γ} {l : List γ} (h : ∀ c ∈ l, f c = pure c) :
    l.mapM f = pure l := by
  rw [mapM_congr h, List.mapM_pure, List.map_id']

/-- A node stays if it is static and all within it stays. -/
theorem expandNode_of_static {x : Meaning} (resolve : String → Expansion String) {n : Node}
    (hn : n.containsDynamic = false) (hnodes : ∀ cs ∈ n.fragments, x.nodes cs = pure cs) :
    expandNode x resolve n = pure [n] := by
  have hself : n.isDynamic = false := by
    rw [containsDynamic, List.any_eq_false] at hn
    simpa using hn n n.mem_walk_self
  cases n with
  | table headers rows alignment s =>
      have hheads : headers.mapM x.nodes = pure headers :=
        mapM_of_self fun cell hcell => hnodes cell (List.mem_append_left _ hcell)
      have hcells : (rows.mapM fun cells => cells.mapM x.nodes) = pure rows := by
        refine mapM_of_self fun cells hmem => mapM_of_self fun cell hcell => hnodes cell ?_
        exact List.mem_append_right _ (List.mem_flatten.mpr ⟨cells, hmem, hcell⟩)
      rw [expandNode, hheads, hcells, pure_bind, pure_bind]
  | call | reference | conditional | loop => cases hself
  | text | code | math | image | lineBreak | thematicBreak => rfl
  | _ => rw [expandNode, hnodes _ (List.mem_singleton.mpr rfl), pure_bind]

theorem each_of_static {f : Node → Expansion (List Node)} {ns : List Node}
    (h : ∀ n ∈ ns, f n = pure [n]) : each f ns = pure ns := by
  induction ns with
  | nil => rfl
  | cons n rest ih =>
      rw [each, h n (by simp), pure_bind, ih fun m hm => h m (by simp [hm]), pure_bind]
      rfl

theorem expander_of_static (onCall : CallMeaning) :
    ∀ ns, Static ns → expander onCall ns = pure ns := by
  intro ns
  induction ns using fragment_induction with
  | h ns ih =>
      intro hstatic
      rw [expander_eq]
      refine each_of_static fun n hn => expandNode_of_static _ (hstatic n hn) fun cs hcs => ?_
      exact ih n hn cs hcs (static_of_fragment (hstatic n hn) hcs)

/-- **Static nodes expand to themselves**, and the environment stays as it is. -/
theorem expandNodes_of_static {ns : List Node} (h : Static ns) : expandNodes ns = pure ns :=
  funext fun e => congrFun (expander_of_static (callMeaning e.setting.levels) ns h) e

/-- So expanding a static result once more changes nothing. -/
theorem bind_expandNodes {m : Expansion (List Node)} (h : Returns Static m) :
    (m >>= expandNodes) = m := by
  funext e
  rw [bind_run]
  rcases hrun : m e with ⟨result, e'⟩
  cases result with
  | ok ns => exact congrFun (expandNodes_of_static (h e e' ns hrun)) e'
  | error f => rfl

/-! ## Documents -/

/-- Of the nodes of a document those that fail are dropped, and the others are
static. -/
theorem expandEach_static (ns : List Node) :
    ∀ e : Environment, Static (expandEach expandNodes ns e).1 := by
  induction ns with
  | nil => exact fun _ => Static.nil
  | cons n rest ih =>
      intro e
      rw [expandEach]
      rcases hrun : expandNodes [n] e with ⟨result, e'⟩
      cases result with
      | ok nodes => exact (expandNodes_static [n] e e' nodes hrun).append (ih e')
      | error f =>
          dsimp only
          split
          · exact Static.nil
          · exact ih _

/-- **Expansion leaves no dynamic node**: not in the document that it gives, whatever
the environment, and not in nodes, where it gives nodes. -/
theorem expansion_containsDynamic_eq_false (e : Environment) (d : Document) (ns : List Node) :
    (e.expand d).1.toNode.containsDynamic = false ∧
      ∀ expanded, (expandNodes ns e).1 = .ok expanded →
        ∀ n ∈ expanded, n.containsDynamic = false := by
  constructor
  · have hchildren : Static (e.expand d).1.children := expandEach_static d.children e
    have hdocument : Static [(e.expand d).1.toNode] :=
      Static.parent (by rw [Document.toNode, walk]) rfl hchildren
    exact hdocument _ (by simp)
  · intro expanded hrun
    exact expandNodes_static ns e _ expanded (Prod.ext hrun rfl)

end Livedoc.Expansion
