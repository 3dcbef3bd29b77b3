import Livedoc.Proofs.Tree.Walk
import Livedoc.Text.Blank

/-!
# Where nodes stand in a tree

A node stands among blocks, in a list, or within a line, according to the node above it.  A tree
is in order if every node in it may stand where it does (`Placed`).  Which nodes may stand where is
a matter of where the tree comes from, so it is a parameter; `Suits` is what trees have in common
that are read from a source or expanded: list items stand in lists and nothing else does, and what
stands within a line belongs there, or else is of a kind that is let in.

Of the text of an argument nothing but the text is used, so anything may stand in it.  But a call
in it may have a body, which is content like that of any other call.
-/

namespace Livedoc.Tree

open Livedoc.Text Livedoc.Source

/-- Where a node stands. -/
inductive Place where
  /-- Among blocks. -/
  | block
  /-- In a list. -/
  | item
  /-- Within a line. -/
  | line
  /-- In the text of an argument. -/
  | argument
deriving DecidableEq, Repr

namespace Node

/-! ## Kinds of nodes -/

def isParagraph : Node → Bool
  | paragraph .. => true
  | _ => false

def isList : Node → Bool
  | list .. => true
  | _ => false

def isListItem : Node → Bool
  | listItem .. => true
  | _ => false

/-- A node whose children stand within a line. -/
def holdsLine : Node → Bool
  | paragraph .. | heading .. | emphasis .. | link .. | table .. => true
  | _ => false

/-- A node that belongs within a line.  A formula does, although one that is set apart is a block
where it stands among blocks. -/
def isPhrase : Node → Bool
  | math .. => true
  | n => n.isInline

/-- A node as reading makes it.  Reading gives a language to blocks of code only, and without white
space at its ends. -/
def isReadable : Node → Bool
  | document .. | conditional .. | loop .. => false
  | code _ (some language) inline _ => !inline && strip language == language
  | _ => true

/-- Where the children of a node stand. -/
def childPlace (p : Place) (n : Node) : Place :=
  if n.isCall then .block
  else if p = .argument then .argument
  else if n.holdsLine then .line
  else if n.isList then .item
  else .block

/-! ## Trees in order -/

/-- A tree in which every node may stand where it does. -/
inductive Placed (A : Place → Node → Prop) : Place → Node → Prop
  | intro {p : Place} {n : Node} (self : A p n)
      (children : ∀ c ∈ n.children, Placed A (n.childPlace p) c) : Placed A p n

namespace Placed

variable {A B : Place → Node → Prop} {p q : Place} {n : Node}

theorem self (h : Placed A p n) : A p n := by
  cases h
  assumption

theorem child (h : Placed A p n) : ∀ c ∈ n.children, Placed A (n.childPlace p) c := by
  cases h
  assumption

theorem mono (h : Placed A p n) (hAB : ∀ {p n}, A p n → B p n) : Placed B p n := by
  induction h with
  | intro self _ ih => exact ⟨hAB self, ih⟩

/-- What is in order at one place is so at another one if it may stand there and the places of its
children are the same. -/
theorem move (h : Placed A p n) (hself : A q n) (hplace : n.childPlace q = n.childPlace p) :
    Placed A q n :=
  ⟨hself, fun c hc => hplace ▸ h.child c hc⟩

/-- In the text of an argument everything is in order that is in order elsewhere. -/
theorem argument (h : Placed A p n) (hA : ∀ {p n}, A p n → A .argument n) :
    Placed A .argument n := by
  induction h with
  | @intro p n self children ih =>
      refine ⟨hA self, fun c hc => ?_⟩
      unfold childPlace
      split
      · next hcall =>
          have hchild := children c hc
          rwa [childPlace, if_pos hcall] at hchild
      · exact ih c hc

theorem childPlace_ne_argument (hp : p ≠ .argument) : n.childPlace p ≠ .argument := by
  unfold childPlace
  rw [if_neg hp]
  split
  · decide
  · split
    · decide
    · split <;> decide

theorem childPlace_of_holdsLine (hp : p ≠ .argument) (h : n.holdsLine = true) :
    n.childPlace p = .line := by
  have hcall : n.isCall = false := by
    cases n with
    | call => cases h
    | _ => rfl
  rw [childPlace, hcall, if_neg hp, if_pos h]
  rfl

/-- The children of a node stand within a line only if it is of a kind that holds a line. -/
theorem holdsLine_of_childPlace (hp : p ≠ .argument) (hline : n.childPlace p = .line) :
    n.holdsLine = true := by
  rw [childPlace, if_neg hp] at hline
  split at hline
  · cases hline
  · split at hline
    · assumption
    · split at hline <;> cases hline

/-- **What is walked is in order** at some place. -/
theorem walk (h : Placed A p n) (hp : p ≠ .argument) :
    ∀ m ∈ n.walk, ∃ q, q ≠ .argument ∧ Placed A q m := by
  induction h with
  | @intro p n self children ih =>
      intro m hm
      rcases mem_walk.mp hm with rfl | ⟨c, hc, hm⟩
      · exact ⟨p, hp, self, children⟩
      · exact ih c hc (childPlace_ne_argument hp) m hm

end Placed

/-! ## Trees that are read and expanded -/

/-- What may stand where: list items in lists and nothing else, and within a line what belongs
there, or else what is let in. -/
structure Suits (letIn : Node → Prop) (p : Place) (n : Node) : Prop where
  readable : n.isReadable = true
  item : p ≠ .argument → (n.isListItem = true ↔ p = .item)
  line : p = .line → n.isPhrase = true ∨ letIn n

namespace Suits

variable {letIn also : Node → Prop} {p : Place} {n : Node}

theorem mono (h : Suits letIn p n) (hlet : letIn n → also n) : Suits also p n :=
  ⟨h.readable, h.item, fun hp => (h.line hp).imp_right hlet⟩

theorem argument (h : Suits letIn p n) : Suits letIn .argument n :=
  ⟨h.readable, fun hp => absurd rfl hp, nofun⟩

/-- What may stand within a line may stand among blocks. -/
theorem block (h : Suits letIn .line n) : Suits letIn .block n := by
  refine ⟨h.readable, fun _ => ?_, nofun⟩
  rw [h.item (by decide)]
  decide

/-- What belongs within a line may stand anywhere but in a list. -/
theorem of_isPhrase (hphrase : n.isPhrase = true) (hread : n.isReadable = true)
    (hp : p ≠ .item) : Suits letIn p n := by
  refine ⟨hread, fun _ => ?_, fun _ => .inl hphrase⟩
  cases n with
  | listItem => cases hphrase
  | _ => simp [isListItem, hp]

end Suits

section

variable {letIn : Node → Prop} {p : Place} {n : Node} {ns ms : List Node}

/-- A node without children that belongs within a line. -/
theorem placed_leaf (hleaf : n.children = []) (hphrase : n.isPhrase = true)
    (hread : n.isReadable = true) (hp : p ≠ .item) : Placed (Suits letIn) p n :=
  ⟨.of_isPhrase hphrase hread hp, fun c hc => by simp [hleaf] at hc⟩

/-- A text is in order wherever there is no list. -/
theorem placed_text (hp : p ≠ .item) (content : String) (span : Span) :
    Placed (Suits letIn) p (.text content span) :=
  placed_leaf rfl rfl rfl hp

/-- A block is in order if what is in it is. -/
theorem placed_block (hread : n.isReadable = true) (hitem : n.isListItem = false)
    (h : ∀ c ∈ n.children, Placed (Suits letIn) (n.childPlace .block) c) :
    Placed (Suits letIn) .block n :=
  ⟨⟨hread, fun _ => by simp [hitem], nofun⟩, h⟩

/-- Nodes that are all in order at a place. -/
def AllPlaced (letIn : Node → Prop) (p : Place) (ns : List Node) : Prop :=
  ∀ n ∈ ns, Placed (Suits letIn) p n

namespace AllPlaced

theorem nil : AllPlaced letIn p [] := nofun

theorem cons (hn : Placed (Suits letIn) p n) (hns : AllPlaced letIn p ns) :
    AllPlaced letIn p (n :: ns) := List.forall_mem_cons.mpr ⟨hn, hns⟩

theorem head (h : AllPlaced letIn p (n :: ns)) : Placed (Suits letIn) p n := h n (by simp)

theorem tail (h : AllPlaced letIn p (n :: ns)) : AllPlaced letIn p ns :=
  fun m hm => h m (by simp [hm])

theorem single (hn : Placed (Suits letIn) p n) : AllPlaced letIn p [n] := cons hn nil

theorem append (hns : AllPlaced letIn p ns) (hms : AllPlaced letIn p ms) :
    AllPlaced letIn p (ns ++ ms) := List.forall_mem_append.mpr ⟨hns, hms⟩

/-- What is in order within a line is in order among blocks. -/
theorem block (h : AllPlaced letIn .line ns) : AllPlaced letIn .block ns :=
  fun n hn => (h n hn).move (h n hn).self.block rfl

end AllPlaced

end

end Node

end Livedoc.Tree
