import Livedoc.Document.Reading
import Livedoc.Proofs.Document.Names
import Livedoc.Proofs.Markdown.Uncalled

/-!
# The text of a line

The nodes of a line hold the text that its markup shows.  If no call and no reference starts in the
line, no node of it is a call or a reference (`readLine_holds`).
-/

namespace Livedoc.Document

open Livedoc.Markdown Livedoc.Source Livedoc.Tree Livedoc.Tree.Node

theorem textOf_joinTextNodes (ns : List Node) : textOf (joinTextNodes ns) = textOf ns := by
  have hafter (before : Node) (ns : List Node) :
      textOf (joinAfter before ns) = textOf (before :: ns) := by
    fun_induction joinAfter before ns with
    | case1 => rfl
    | case2 rest a s b t ih => simp only [ih, textOf, textContent, String.append_assoc]
    | case3 before next rest _ ih =>
        rw [textOf, ih]
        rfl
  cases ns with
  | nil => rfl
  | cons n rest => exact hafter n rest

/-- Nodes hold no call and no reference, and they hold a text. -/
structure Holds (shown : List Char) (ns : List Node) : Prop where
  static : AllDynamic (fun _ => False) ns
  text : textOf ns = String.ofList shown

theorem Holds.joined {shown : List Char} {ns : List Node} (h : Holds shown ns) :
    Holds shown (joinTextNodes ns) :=
  ⟨joinTextNodes_allDynamic h.static, (textOf_joinTextNodes ns).trans h.text⟩

/-- Any search. -/
abbrev FindsAny {α : Type} (P : α → Prop) (w : Locating α) : Prop := Finds (fun _ => True) P w

/-- A leaf over the place of a text. -/
private theorem findsAny_leaf {shown : List Char} (part : List Char) {f : Span → Node}
    (hf : ∀ s, (f s).isLeaf = true ∧ (f s).isDynamic = false ∧
      (f s).textContent = String.ofList shown) :
    FindsAny (fun n => Holds shown [n]) (do return f (← locate part)) := by
  refine .bind (P := fun _ => True) (fun _ _ => ⟨trivial, trivial⟩) fun s _ => .pure ?_
  obtain ⟨hleaf, hstatic, htext⟩ := hf s
  exact ⟨.leaf hleaf hstatic, by rw [textOf, textOf, htext, String.append_empty]⟩

mutual

/-- The node of a piece without calls holds what the piece shows. -/
theorem inlineNode_holds : ∀ i : Inline, i.hasCall = false →
    FindsAny (fun n => Holds i.shown [n]) (inlineNode i)
  | .text raw, _ | .escaped raw, _ | .code raw, _ | .html raw, _ =>
      findsAny_leaf raw fun _ => ⟨rfl, rfl, rfl⟩
  | .math raw display, _ => findsAny_leaf raw fun _ => ⟨rfl, rfl, rfl⟩
  | .softBreak, _ | .hardBreak, _ => findsAny_leaf ['\n'] fun _ => ⟨rfl, rfl, rfl⟩
  | .sizedImage i, _ => by
      refine findsAny_leaf i.raw fun _ => ⟨rfl, rfl, ?_⟩
      rw [textContent, Inline.shown, String.ofList_toList]
  | .call head raw, hcall => by cases hcall
  | .emphasis strong children, hcall => by
      refine .bind (inlineNodeList_holds children hcall) fun ns hns => .pure ?_
      exact ⟨.container (by rw [walk]) rfl hns.joined.static, by
        rw [textOf, textOf, textContent, hns.joined.text, String.append_empty, Inline.shown]⟩
  | .link url title children, hcall => by
      refine .bind (inlineNodeList_holds children hcall) fun ns hns => .pure ?_
      exact ⟨.container (by rw [walk]) rfl hns.joined.static, by
        rw [textOf, textOf, textContent, hns.joined.text, String.append_empty, Inline.shown]⟩
  | .image url title children, hcall => by
      refine .bind (inlineNodeList_holds children hcall) fun ns hns => .pure ?_
      exact ⟨.leaf rfl rfl, by
        rw [textOf, textOf, textContent, hns.joined.text, String.append_empty, Inline.shown]⟩

/-- The nodes of several pieces without calls hold what the pieces show. -/
theorem inlineNodeList_holds : ∀ is : List Inline, Inline.anyCall is = false →
    FindsAny (Holds (Inline.shownAll is)) (inlineNodeList is)
  | [], _ => .pure ⟨.nil, rfl⟩
  | i :: rest, hcall => by
      rw [Inline.anyCall, Bool.or_eq_false_iff] at hcall
      refine .bind (inlineNode_holds i hcall.1) fun n hn => ?_
      refine .bind (inlineNodeList_holds rest hcall.2) fun ns hns => .pure ?_
      refine ⟨allDynamic_cons.mpr ⟨hn.static, hns.static⟩, ?_⟩
      have htext := hn.text
      rw [textOf, textOf, String.append_empty] at htext
      rw [textOf, htext, hns.text, Inline.shownAll, String.ofList_append]

end

/-- **A line without calls holds what its markup shows.** -/
theorem readLine_holds {raw : String} (h : Uncalled none raw.toList) :
    Holds (Inline.shownAll (readInline [] raw.toList)) (readLine raw) := by
  have hcalls := (readInline_reduces [] h).calls rfl
  exact ((inlineNodeList_holds _ hcalls _ trivial).1).joined

end Livedoc.Document
