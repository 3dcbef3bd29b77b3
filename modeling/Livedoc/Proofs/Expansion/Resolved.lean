import Livedoc.Proofs.Expansion.Isolation

/-!
# Expanding what is expanded already

A call expands once more whatever a built-in function gives. Some functions need that, since they
hand their body on as it is (`Builtin.handsOnBody`). The others expand the body themselves, or
give something in its place. What they give is static (`Builtin.run_static`), and static nodes
expand to themselves in any environment and leave it as it is. So for these functions a call is
the function, run within the call, and nothing is done twice (`expandNodes_resolved`).
-/

namespace Livedoc

open Livedoc.Environment Livedoc.Expansion Livedoc.Problem Livedoc.Source Livedoc.Tree
open Livedoc.Tree.Node

/-- The functions that give their body as it is, on its own or within a container. -/
def Builtin.handsOnBody : Builtin → Bool
  | .row | .column | .grid | .center | .conditional => true
  | _ => false

namespace Expansion

theorem numberNodes_static (x : Float) : Static (numberNodes x) := .leaf (by simp [walk]) rfl

theorem truncateBody_static (places : Float) {ns : List Node} (h : Static ns) :
    Static (truncateBody places ns) := by
  unfold truncateBody
  split
  · exact .leaf (by simp [walk]) rfl
  · exact h

/-- A text stays static with another content, and nothing else is changed. -/
theorem mapTexts_static (f : String → String) {ns : List Node} (h : Static ns) :
    Static (mapTexts f ns) := by
  intro n hn
  obtain ⟨m, hm, rfl⟩ := List.mem_map.mp hn
  have hstatic := h m hm
  cases m with
  | text content span => simp [containsDynamic, walk, isDynamic]
  | _ => exact hstatic

/-! ## What functions give -/

theorem setMetadata_static (x : Expander) (key : String) (c : Invocation) :
    Returns Static (setMetadata x key c) :=
  .bind (.trivial _) fun _ _ => .bind (.trivial _) fun _ _ => .pure .nil

theorem define_static (x : Expander) (c : Invocation) : Returns Static (define x c) := by
  unfold define
  refine .bind (.trivial _) fun name _ => ?_
  split
  · exact .bind (.trivial _) fun _ _ => .pure .nil
  · dsimp only
    split
    · exact .bind (.trivial _) fun _ _ => .bind (.trivial _) fun _ _ => .pure .nil
    · exact .bind (.trivial _) fun _ _ => .pure .nil

theorem theme_static (x : Expander) (c : Invocation) : Returns Static (Builtin.run x c .theme) := by
  refine .bind (.trivial _) fun value _ => .bind (.trivial _) fun _ _ => ?_
  refine .bind (.trivial _) fun layout _ => ?_
  cases layout with
  | none => exact .pure .nil
  | some layout =>
      dsimp only
      split
      · exact .bind (.trivial _) fun _ _ => .pure .nil
      · exact .pure .nil

end Expansion

/-- **What a function gives is static**, unless it hands on its body. -/
theorem Builtin.run_static {b : Builtin} (hb : b.handsOnBody = false)
    (c : Invocation) : Returns Static (b.run expandNodes c) := by
  cases b with
  | row | column | grid | center | conditional => cases hb
  | add | multiply | pow =>
      exact .bind (.trivial _) fun _ _ => .bind (.trivial _) fun _ _ => .pure (numberNodes_static _)
  | truncate =>
      refine .bind (.trivial _) fun places _ => ?_
      exact .bind (expandNodes_static c.body) fun ns hns => .pure (truncateBody_static _ hns)
  | repetition =>
      refine .bind (.trivial _) fun count _ => .bind (.trivial _) fun rounds _ => ?_
      exact repeatFrom_static (expandNodes_static c.body) "_index" _ _
  | «variable» =>
      refine .bind (.trivial _) fun name _ => ?_
      split
      · exact .bind (.trivial _) fun _ _ => .pure .nil
      · exact .bind (.trivial _) fun _ _ => .bind (.trivial _) fun _ _ => .pure .nil
  | upper | lower => exact .bind (expandNodes_static c.body) fun ns hns => .pure (mapTexts_static _ hns)
  | documentName | documentAuthor | documentLanguage => exact setMetadata_static _ _ c
  | documentType =>
      refine .bind (.trivial _) fun value _ => ?_
      split
      · exact .bind (.trivial _) fun _ _ => .bind (.trivial _) fun _ _ => .pure .nil
      · exact .bind (.trivial _) fun _ _ => .pure .nil
  | theme => exact theme_static _ c
  | inclusion =>
      have hparts := inclusion_static c
      rwa [← includeFile_eq] at hparts
  | definition => exact define_static _ c

/-- A call of a function that does not hand on its body is the function, run within the call. -/
theorem expandNodes_builtin {c : Invocation} {e : Environment} {b : Builtin}
    (hcallee : e.store.callee? c.name = some (.builtin b)) (hb : b.handsOnBody = false) :
    expandNodes [c.toNode] e =
      inBlock (.call c.name c.namedTexts c.span) (b.run expandNodes c) e := by
  have hrun : Callee.run expandNodes c (.builtin b) = b.run expandNodes c :=
    bind_expandNodes (Builtin.run_static hb c)
  rw [expandNodes_call, expandCall_known hcallee, hrun]

/-- **Expansion is the identity on resolved nodes.** Nodes without a dynamic node among or below
them expand to themselves in every environment and leave it as it is, with all variables, frames,
functions, metadata and messages. Let a built-in function give nodes, unless it is one that hands
on its body. Then these are such nodes. So expanding them once more, in the environment that the
function leaves or in any other one, changes no node, does nothing over again and records no
message again, and a call of the function comes to what the function itself does within the
call. -/
theorem expandNodes_resolved :
    (∀ ns e, (∀ n ∈ ns, n.containsDynamic = false) → expandNodes ns e = (.ok ns, e)) ∧
    (∀ (b : Builtin) c e after ns, b.handsOnBody = false →
      b.run expandNodes c e = (.ok ns, after) →
        (∀ n ∈ ns, n.containsDynamic = false) ∧ ∀ e', expandNodes ns e' = (.ok ns, e')) ∧
    (∀ (b : Builtin) c e, b.handsOnBody = false →
      e.store.callee? c.name = some (.builtin b) → expandNodes [c.toNode] e =
        inBlock (.call c.name c.namedTexts c.span) (b.run expandNodes c) e) := by
  have hself : ∀ ns e, (∀ n ∈ ns, n.containsDynamic = false) → expandNodes ns e = (.ok ns, e) :=
    fun ns e h => congrFun (expandNodes_of_static h) e
  refine ⟨hself, ?_, fun b c e hb hcallee => expandNodes_builtin hcallee hb⟩
  intro b c e after ns hb hrun
  have hstatic : Static ns := Builtin.run_static hb c e after ns hrun
  exact ⟨hstatic, fun e' => hself ns e' hstatic⟩

/-- A call of `upper` over a reference to a variable that is missing: its name is shown in upper
case, and it is warned about once. -/
theorem expandNodes_resolved_upper :
    let e := folderWith ""
    let c : Invocation := ⟨"upper", [], [], [.reference "x" .unknown], .unknown⟩
    let run := Builtin.run expandNodes c .upper
    (run e).1 = .ok [.text "\x7b\x7bX\x7d\x7d" .unknown] ∧
      expandNodes [.text "\x7b\x7bX\x7d\x7d" .unknown] (run e).2 =
        (.ok [.text "\x7b\x7bX\x7d\x7d" .unknown], (run e).2) ∧
      expandNodes [c.toNode] e = inBlock (.call "upper" [] .unknown) run e ∧
      (expandNodes [c.toNode] e).2.store.report.warnings.map (·.message) =
        ["Undefined variable: x"] := by
  intro e c run
  have hrun : (run e).1 = .ok [.text "\x7b\x7bX\x7d\x7d" .unknown] := by rfl
  obtain ⟨-, hresult, hcall⟩ := expandNodes_resolved
  refine ⟨hrun, ?_, hcall .upper c e rfl rfl, by decide +kernel⟩
  exact (hresult .upper c e (run e).2 _ rfl (Prod.ext hrun rfl)).2 (run e).2

end Livedoc
