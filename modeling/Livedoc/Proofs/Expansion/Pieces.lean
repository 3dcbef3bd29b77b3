import Livedoc.Proofs.Expansion.ControlFlow
import Mathlib.Data.List.SplitLengths

/-!
# Expansion piece by piece

Where expansion gives a result, it gives it through its pieces. Nodes that stand one after the
other are expanded one after the other (`expandNodes_append_eq_ok`). A node that is not dynamic
stays, and what is expanded within it takes the place of what was there: the node is refilled
(`expandNodes_refill`). A call of a built-in function does within the call what the function does,
and expands what that gives (`expandNodes_call_eq_ok`).
-/

namespace Livedoc

open Livedoc.Environment Livedoc.Expansion Livedoc.Problem Livedoc.Source Livedoc.Tree
open Livedoc.Tree.Node

/-! ## Containers -/

/-- The node with other nodes for those expanded within it; a node without any stays. -/
def Tree.Node.refill (n : Node) (cells : List (List Node)) : Node :=
  match n with
  | .table headers rows alignment s =>
    .table (cells.take headers.length)
      ((rows.map List.length).splitLengths (cells.drop headers.length)) alignment s
  | n => (n.withChildren? cells.flatten).getD n

namespace Expansion

variable {α β : Type}

theorem splitLengths_flatten (rows : List (List α)) :
    (rows.map List.length).splitLengths rows.flatten = rows := by
  induction rows with
  | nil => rfl
  | cons row rest ih => simp [ih]

theorem length_of_mapM {f : α → Expansion β} {l : List α} {bs : List β} {e after : Environment}
    (h : l.mapM f e = (.ok bs, after)) : bs.length = l.length := by
  induction l generalizing bs e with
  | nil =>
      cases h
      rfl
  | cons a l ih =>
      rw [List.mapM_cons] at h
      obtain ⟨b, between, -, h⟩ := bind_eq_ok h
      obtain ⟨rest, last, hrest, hpure⟩ := bind_eq_ok h
      cases hpure
      simp [ih hrest]

/-- The cells of a table row by row are its cells one after the other. -/
theorem mapM_flatten_of {f : α → Expansion β} {rows : List (List α)} {bss : List (List β)}
    {e after : Environment} (h : (rows.mapM fun row : List α => row.mapM f) e = (.ok bss, after)) :
    rows.flatten.mapM f e = (.ok bss.flatten, after) ∧
      bss.map List.length = rows.map List.length := by
  induction rows generalizing bss e with
  | nil =>
      cases h
      exact ⟨rfl, rfl⟩
  | cons row rows ih =>
      rw [List.mapM_cons] at h
      obtain ⟨bs, between, hrow, h⟩ := bind_eq_ok h
      obtain ⟨rest, last, hrest, hpure⟩ := bind_eq_ok h
      cases hpure
      obtain ⟨hflat, hlengths⟩ := ih hrest
      constructor
      · rw [List.flatten_cons, List.mapM_append, bind_ok hrow, bind_ok hflat]
        rfl
      · simp [hlengths, length_of_mapM hrow]

/-- A node that is not dynamic stays, filled with what the nodes within it expand to. -/
theorem expandNodes_refill {n : Node} (hn : n.isDynamic = false) {e after : Environment}
    {out : List Node} (h : expandNodes [n] e = (.ok out, after)) :
    ∃ cells, n.fragments.mapM expandNodes e = (.ok cells, after) ∧ out = [n.refill cells] := by
  rw [expandNodes_single] at h
  cases n with
  | call | reference | conditional | loop => cases hn
  | text | code | math | image | lineBreak | thematicBreak =>
      cases h
      exact ⟨[], rfl, rfl⟩
  | table headers rows alignment s =>
      obtain ⟨heads, between, hheads, h⟩ := bind_eq_ok (m := headers.mapM expandNodes) h
      obtain ⟨bodies, last, hbodies, hpure⟩ := bind_eq_ok h
      cases hpure
      obtain ⟨hflat, hlengths⟩ := mapM_flatten_of (f := expandNodes) hbodies
      refine ⟨heads ++ bodies.flatten, ?_, ?_⟩
      · rw [fragments, List.mapM_append, bind_ok hheads, bind_ok hflat]
        rfl
      · simp only [refill, ← length_of_mapM hheads, ← hlengths, List.take_left, List.drop_left,
          splitLengths_flatten]
  | _ =>
      -- the containers, each with its children as the only fragment
      obtain ⟨cs, between, hcs, hpure⟩ := bind_eq_ok (m := expandNodes _) h
      cases hpure
      refine ⟨[cs], ?_, by simp [refill, withChildren?]⟩
      rw [fragments, List.mapM_cons, bind_ok hcs]
      rfl

/-! ## Nodes one after the other -/

theorem expandNodes_cons (n : Node) (rest : List Node) : expandNodes (n :: rest) = do
    let first ← expandNodes [n]
    let others ← expandNodes rest
    return first ++ others := by
  have hlevel : expandNodes rest = unfold expandNodes rest :=
    (funext (unfold_expandNodes rest)).symm
  rw [hlevel, expandNodes_single]
  exact (funext (unfold_expandNodes (n :: rest))).symm

theorem expandNodes_cons_eq_ok {n : Node} {rest out : List Node} {e after : Environment}
    (h : expandNodes (n :: rest) e = (.ok out, after)) : ∃ first others between,
      expandNodes [n] e = (.ok first, between) ∧
      expandNodes rest between = (.ok others, after) ∧ out = first ++ others := by
  rw [expandNodes_cons] at h
  obtain ⟨first, between, hfirst, h⟩ := bind_eq_ok h
  obtain ⟨others, last, hothers, hpure⟩ := bind_eq_ok h
  cases hpure
  exact ⟨first, others, between, hfirst, hothers, rfl⟩

theorem expandNodes_nil_eq_ok {out : List Node} {e after : Environment}
    (h : expandNodes [] e = (.ok out, after)) : out = [] ∧ after = e := by
  rw [← unfold_expandNodes] at h
  cases h
  exact ⟨rfl, rfl⟩

theorem expandNodes_append_eq_ok {before rest out : List Node} {e after : Environment}
    (h : expandNodes (before ++ rest) e = (.ok out, after)) : ∃ shown others between,
      expandNodes before e = (.ok shown, between) ∧
      expandNodes rest between = (.ok others, after) ∧ out = shown ++ others := by
  induction before generalizing e out with
  | nil =>
      refine ⟨[], out, e, ?_, h, rfl⟩
      rw [← unfold_expandNodes]
      rfl
  | cons n before ih =>
      obtain ⟨first, others, between, hfirst, hothers, rfl⟩ := expandNodes_cons_eq_ok h
      obtain ⟨shown, rest', last, hshown, hrest, rfl⟩ := ih hothers
      refine ⟨first ++ shown, rest', last, ?_, hrest, (List.append_assoc ..).symm⟩
      rw [expandNodes_cons, bind_ok hfirst, bind_ok hshown]
      rfl

end Expansion

/-! ## Calls -/

/-- The environment within a call. -/
def Invocation.inside (c : Invocation) (e : Environment) : Environment :=
  { e with setting := e.setting.enterCall c.name c.namedTexts }

namespace Expansion

variable {c : Invocation} {b : Builtin} {e after : Environment} {out : List Node}

/-- A call of a built-in function is the function, run within the call, and the expansion of what
it gives. What is done to the store within the call is done to the store outside. -/
theorem expandNodes_call_eq_ok (hname : c.name = b.name)
    (hnone : e.store.functions.get? b.name = none)
    (h : expandNodes [c.toNode] e = (.ok out, after)) : ∃ given between last,
      b.run expandNodes c (c.inside e) = (.ok given, between) ∧
      expandNodes given between = (.ok out, last) ∧ after.store = last.store := by
  have hcallee : e.store.callee? c.name = some (.builtin b) := by
    rw [hname]
    exact callee_builtin hnone
  rw [expandNodes_call, expandCall_known hcallee] at h
  obtain ⟨inner, block, last, henter, hrun, rfl⟩ := inBlock_eq_ok h
  obtain ⟨setting, hcall, rfl, rfl⟩ := enter_call_eq_ok henter
  obtain ⟨-, rfl⟩ := call_eq_ok_iff.mp hcall
  obtain ⟨given, between, hgiven, hout⟩ := bind_eq_ok hrun
  exact ⟨given, between, last, hgiven, hout, rfl⟩

/-- A call of a built-in function that gives static nodes is the function, run within the call. -/
theorem expandNodes_call_eq_ok_of_static (hname : c.name = b.name)
    (hnone : e.store.functions.get? b.name = none) (hstatic : b.handsOnBody = false)
    (h : expandNodes [c.toNode] e = (.ok out, after)) : ∃ last,
      b.run expandNodes c (c.inside e) = (.ok out, last) ∧ after.store = last.store := by
  obtain ⟨given, between, last, hgiven, hout, hstore⟩ := expandNodes_call_eq_ok hname hnone h
  rw [expandNodes_of_static (Builtin.run_static hstatic c _ _ _ hgiven)] at hout
  cases hout
  exact ⟨_, hgiven, hstore⟩

end Expansion

end Livedoc
