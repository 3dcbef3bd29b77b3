import Livedoc.Tree.Walk

/-!
# What a walk comes to

The walk over several nodes is the walks of the nodes one after the other, and a
table is walked like the list of all nodes in its cells.  So whatever stands within a
node is a sublist of its walk (`walk_sublist_walkAll`), and a question that a walk
answers about a list of nodes is answered node by node (`mem_walkAll`).
-/

namespace Livedoc.Tree.Node

attribute [grind =] walk walkAll walkCells walkRows

/-! ## Lists of nodes, of cells and of rows -/

theorem walkAll_eq_flatMap (ns : List Node) : walkAll ns = ns.flatMap walk := by
  induction ns with
  | nil => simp [walkAll]
  | cons n rest ih => rw [walkAll, ih, List.flatMap_cons]

theorem walkAll_append (ns ms : List Node) : walkAll (ns ++ ms) = walkAll ns ++ walkAll ms := by
  rw [walkAll_eq_flatMap, walkAll_eq_flatMap, walkAll_eq_flatMap, List.flatMap_append]

theorem walkCells_eq (cells : List (List Node)) : walkCells cells = walkAll cells.flatten := by
  induction cells with
  | nil => simp [walkCells, walkAll]
  | cons cell rest ih => rw [walkCells, ih, List.flatten_cons, walkAll_append]

theorem walkRows_eq (rows : List (List (List Node))) :
    walkRows rows = walkAll rows.flatten.flatten := by
  induction rows with
  | nil => simp [walkRows, walkAll]
  | cons cells rest ih =>
      rw [walkRows, ih, walkCells_eq, List.flatten_cons, List.flatten_append, walkAll_append]

/-- The walk of a node starts at the node. -/
theorem mem_walk_self (n : Node) : n ∈ n.walk := by
  cases n <;> simp [walk]

/-- A node is walked if one of the nodes has it in its walk. -/
theorem mem_walkAll {m : Node} {ns : List Node} : m ∈ walkAll ns ↔ ∃ n ∈ ns, m ∈ n.walk := by
  rw [walkAll_eq_flatMap, List.mem_flatMap]

/-- The walk of one of the nodes is part of the walk of all. -/
theorem walk_sublist_walkAll {n : Node} {ns : List Node} (h : n ∈ ns) :
    n.walk.Sublist (walkAll ns) := by
  obtain ⟨before, after, rfl⟩ := List.append_of_mem h
  rw [walkAll_append, walkAll]
  exact ((List.sublist_append_left _ _).trans (List.sublist_append_right _ _))

/-- The walk of one of the cells is part of the walk of all. -/
theorem walkAll_sublist_flatten {cell : List Node} {cells : List (List Node)} (h : cell ∈ cells) :
    (walkAll cell).Sublist (walkAll cells.flatten) := by
  obtain ⟨before, after, rfl⟩ := List.append_of_mem h
  rw [List.flatten_append, List.flatten_cons, walkAll_append, walkAll_append]
  exact ((List.sublist_append_left _ _).trans (List.sublist_append_right _ _))

/-- A node of a kind that holds no further nodes. -/
def isLeaf : Node → Bool
  | text .. | code .. | math .. | image .. | lineBreak .. | thematicBreak .. | reference .. => true
  | _ => false

theorem walk_of_isLeaf {n : Node} (h : n.isLeaf = true) : n.walk = [n] := by
  cases n <;> first | rfl | cases h

/-! ## Dynamic nodes -/

/-- A list of nodes holds no dynamic node if none of its nodes does. -/
theorem any_isDynamic_walkAll {ns : List Node} :
    (walkAll ns).any isDynamic = false ↔ ∀ n ∈ ns, n.containsDynamic = false := by
  simp only [List.any_eq_false, containsDynamic, mem_walkAll]
  constructor
  · intro h n hn m hm
    exact h m ⟨n, hn, hm⟩
  · rintro h m ⟨n, hn, hm⟩
    exact h n hn m hm

/-! ## Repetitions -/

/-- Whether a node is a repetition. -/
def isLoop : Node → Bool
  | loop .. => true
  | _ => false

/-- A node without a repetition in it. -/
def LoopFree (n : Node) : Prop := ∀ m ∈ n.walk, m.isLoop = false

/-- The number of repetitions in a list of nodes. -/
def loops (ns : List Node) : Nat := (walkAll ns).countP isLoop

theorem loops_eq_zero_iff {ns : List Node} : loops ns = 0 ↔ ∀ n ∈ ns, n.LoopFree := by
  simp only [loops, List.countP_eq_zero, mem_walkAll, LoopFree]
  constructor
  · intro h n hn m hm
    simpa using h m ⟨n, hn, hm⟩
  · rintro h m ⟨n, hn, hm⟩
    simp [h n hn m hm]

/-! ## Calls -/

/-- Whether a node is a call. -/
def isCall : Node → Bool
  | call .. => true
  | _ => false

/-! ## Children -/

/-- The arguments of a call are walked as the texts that they are. -/
theorem walkAll_map_toNode (args : List Argument) :
    walkAll (args.map Argument.toNode) = args.map Argument.toNode := by
  induction args with
  | nil => simp [walkAll]
  | cons a rest ih =>
      rw [List.map_cons, walkAll, ih, walk_of_isLeaf (n := a.toNode) rfl, List.singleton_append]

/-- **A walk is the node and the walks of its children.** -/
theorem walk_eq (n : Node) : n.walk = n :: walkAll n.children := by
  cases n with
  | table headers rows alignment s =>
      rw [walk, walkCells_eq, walkRows_eq, children, walkAll_append]
  | call name args named body s => rw [walk, children, walkAll_append, walkAll_map_toNode]
  | conditional condition consequent alternative s => rw [walk, children, walkAll_append]
  | text | code | math | image | lineBreak | thematicBreak | reference =>
      simp [walk, walkAll, children]
  | _ => rw [walk, children]

/-- What is walked is the node or is walked from one of its children. -/
theorem mem_walk {m n : Node} : m ∈ n.walk ↔ m = n ∨ ∃ c ∈ n.children, m ∈ c.walk := by
  rw [walk_eq, List.mem_cons, mem_walkAll]

theorem length_walk_lt {c n : Node} (h : c ∈ n.children) : c.walk.length < n.walk.length := by
  have hchildren := (walk_sublist_walkAll h).length_le
  rw [walk_eq n, List.length_cons]
  omega

/-- **Induction over trees**: nodes have a property if each has it as soon as its children do. -/
theorem children_induction {motive : Node → Prop}
    (h : ∀ n : Node, (∀ c ∈ n.children, motive c) → motive n) (n : Node) : motive n := by
  induction hlength : n.walk.length using Nat.strongRecOn generalizing n with
  | ind k ih =>
      subst hlength
      exact h n fun c hc => ih _ (length_walk_lt hc) c rfl

/-- The children of what is walked are walked. -/
theorem mem_walk_of_child {c n root : Node} (hn : n ∈ root.walk) (hc : c ∈ n.children) :
    c ∈ root.walk := by
  induction root using children_induction with
  | h root ih =>
      rcases mem_walk.mp hn with rfl | ⟨m, hm, hn⟩
      · exact mem_walk.mpr (.inr ⟨c, hc, mem_walk_self c⟩)
      · exact mem_walk.mpr (.inr ⟨m, hm, ih m hm hn⟩)

end Livedoc.Tree.Node
