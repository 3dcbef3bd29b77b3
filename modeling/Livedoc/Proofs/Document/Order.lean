import Livedoc.Document.Content
import Livedoc.Proofs.Tree.Walk
import Mathlib.Order.Basic

/-!
# The order of spans

Positions are ordered by line and column.  What follows each other from one position to another
(`Follow`) is covered by a span that does not end before it starts (`Follow.cover`).

A search only moves forward, so what it finds stands between the position where it starts and the
one where it ends (`Advances.locate`).  Which positions a search can come to is left open: they have
a property if those of its cursor do however far it moves (`Cursor.StaysIn`).
-/

namespace Livedoc.Source

/-- Positions in the order of lines, and of columns within a line. -/
instance : Preorder Position where
  le p q := p.line < q.line ∨ p.line = q.line ∧ p.column ≤ q.column
  le_refl _ := .inr ⟨rfl, Nat.le_refl _⟩
  le_trans p q r h h' := by omega

theorem Position.le_iff {p q : Position} :
    p ≤ q ↔ p.line < q.line ∨ p.line = q.line ∧ p.column ≤ q.column := Iff.rfl

/-- The span is known and does not end before it starts, and both ends have the property. -/
structure Span.OrderedIn (W : Position → Prop) (s : Span) : Prop where
  isKnown : s.isKnown = true
  start : W s.start
  stop : W s.stop
  le : s.start ≤ s.stop

/-- From a position to another one, the known ones among the spans follow each other. -/
inductive Follow (W : Position → Prop) : Position → List Span → Position → Prop where
  | nil {p q : Position} (h : p ≤ q) : Follow W p [] q
  | unknown {p q : Position} {s : Span} {ss : List Span} (hs : s.isKnown = false)
      (h : Follow W p ss q) : Follow W p (s :: ss) q
  | known {p q : Position} {s : Span} {ss : List Span} (hp : p ≤ s.start) (hs : s.OrderedIn W)
      (h : Follow W s.stop ss q) : Follow W p (s :: ss) q

namespace Follow

variable {W : Position → Prop} {p p' q r : Position} {s t : Span} {ss ts : List Span}

theorem le (h : Follow W p ss q) : p ≤ q := by
  induction h with
  | nil h => exact h
  | unknown _ _ ih => exact ih
  | known hp hs _ ih => exact (hp.trans hs.le).trans ih

/-- Spans that follow each other do so from an earlier position. -/
theorem of_le (h : Follow W p ss q) (hle : p' ≤ p) : Follow W p' ss q := by
  induction h with
  | nil h => exact .nil (hle.trans h)
  | unknown hs _ ih => exact .unknown hs (ih hle)
  | known hp hs h _ => exact .known (hle.trans hp) hs h

theorem append (h : Follow W p ss q) (h' : Follow W q ts r) : Follow W p (ss ++ ts) r := by
  induction h with
  | nil h => exact h'.of_le h
  | unknown hs _ ih => exact .unknown hs (ih h')
  | known hp hs _ ih => exact .known hp hs (ih h')

theorem tail (h : Follow W p (s :: ss) q) : Follow W p ss q := by
  cases h with
  | unknown _ h => exact h
  | known hp hs h => exact h.of_le (hp.trans hs.le)

/-- The first span and the others. -/
theorem uncons (h : Follow W p (s :: ss) q) : ∃ r, Follow W p [s] r ∧ Follow W r ss q := by
  cases h with
  | unknown hs h => exact ⟨p, .unknown hs (.nil le_rfl), h⟩
  | known hp hs h => exact ⟨s.stop, .known hp hs (.nil le_rfl), h⟩

/-- A known span is ordered. -/
theorem orderedIn (h : Follow W p (s :: ss) q) (hs : s.isKnown = true) : s.OrderedIn W := by
  cases h with
  | unknown hunknown => rw [hs] at hunknown; cases hunknown
  | known _ hs _ => exact hs

/-- Two spans as one, from the start of the first to the end of the second. -/
theorem merge (h : Follow W p (s :: t :: ss) q) (hs : s.isKnown = true) (ht : t.isKnown = true) :
    Follow W p (⟨s.start, t.stop⟩ :: ss) q := by
  cases h with
  | unknown hunknown => rw [hs] at hunknown; cases hunknown
  | known hp hs h =>
      cases h with
      | unknown hunknown => rw [ht] at hunknown; cases hunknown
      | known hst ht h =>
          have hle : s.start ≤ t.stop := (hs.le.trans hst).trans ht.le
          exact .known hp ⟨hs.isKnown, hs.start, ht.stop, hle⟩ h

/-- The known spans, if there are any, go from the start of the first to the end of the last. -/
private theorem first_last (h : Follow W p ss q) {first : Span} {rest : List Span}
    (hknown : ss.filter Span.isKnown = first :: rest) :
    p ≤ first.start ∧ (⟨first.start, ((first :: rest).getLastD first).stop⟩ : Span).OrderedIn W ∧
      ((first :: rest).getLastD first).stop ≤ q := by
  induction h generalizing first rest with
  | nil => cases hknown
  | unknown hs _ ih =>
      rw [List.filter_cons_of_neg (by simp [hs])] at hknown
      exact ih hknown
  | @known p q s ss hp hs h ih =>
      rw [List.filter_cons_of_pos hs.isKnown, List.cons.injEq] at hknown
      obtain ⟨rfl, hrest⟩ := hknown
      cases rest with
      | nil => exact ⟨hp, hs, h.le⟩
      | cons next others =>
          obtain ⟨hnext, hcover, hstop⟩ := ih hrest
          have hlast : (s :: next :: others).getLastD s = (next :: others).getLastD next := by
            rw [List.getLastD_cons, List.getLastD_cons, List.getLastD_cons]
          rw [hlast]
          have hle := (hs.le.trans hnext).trans hcover.le
          exact ⟨hp, ⟨hs.isKnown, hs.start, hcover.stop, hle⟩, hstop⟩

/-- **What covers spans that follow each other is ordered**, and stands where they do. -/
theorem cover (h : Follow W p ss q) : Follow W p [Span.cover ss .unknown] q := by
  unfold Span.cover
  cases hknown : ss.filter Span.isKnown with
  | nil => exact .unknown rfl (.nil h.le)
  | cons first rest =>
      obtain ⟨hp, hs, hstop⟩ := h.first_last hknown
      exact .known hp hs (.nil hstop)

end Follow

end Livedoc.Source

namespace Livedoc.Document

open Livedoc.Problem Livedoc.Source

/-! ## Cursors -/

namespace Cursor

variable {c : Cursor} {W : Position → Prop}

theorem position_le_next (c : Cursor) : c.position ≤ c.next.position := by
  unfold next
  split
  · exact le_rfl
  · exact .inl (Nat.lt_succ_self _)
  · refine .inr ⟨rfl, ?_⟩
    show c.column + c.indent ≤ c.column + 1 + c.indent
    omega

theorem position_le_advance (n : Nat) (c : Cursor) : c.position ≤ (c.advance n).position := by
  induction n generalizing c with
  | zero => exact le_rfl
  | succ n ih => exact c.position_le_next.trans (ih c.next)

theorem advance_advance (m n : Nat) (c : Cursor) : (c.advance m).advance n = c.advance (m + n) := by
  induction m generalizing c with
  | zero => rw [Nat.zero_add, advance]
  | succ m ih => rw [advance, ih, Nat.succ_add, advance]

/-- However far the cursor moves, it is on a line and its position has the property. -/
def StaysIn (W : Position → Prop) (c : Cursor) : Prop :=
  ∀ n, 0 < (c.advance n).position.line ∧ W (c.advance n).position

/-- A property of cursors that each step keeps, and what follows from it for their positions. -/
theorem StaysIn.of_next {I : Cursor → Prop} (hnext : ∀ c, I c → I c.next)
    (hposition : ∀ c, I c → 0 < c.position.line ∧ W c.position) (hc : I c) : c.StaysIn W := by
  intro n
  induction n generalizing c with
  | zero => exact hposition c hc
  | succ n ih => exact ih (hnext c hc)

theorem StaysIn.advance (h : c.StaysIn W) (n : Nat) : (c.advance n).StaysIn W := by
  intro m
  rw [advance_advance]
  exact h _

/-- **What is found stands between the position before and the one after.** -/
theorem StaysIn.locate (h : c.StaysIn W) (part : List Char) :
    (c.locate part).2.StaysIn W ∧ (c.locate part).1.OrderedIn W ∧
      c.position ≤ (c.locate part).1.start ∧
        (c.locate part).1.stop = (c.locate part).2.position := by
  unfold Cursor.locate
  split
  · obtain ⟨hline, hW⟩ := h 0
    exact ⟨h, ⟨decide_eq_true hline, hW, hW, le_rfl⟩, le_rfl, rfl⟩
  · next before _ =>
      have hstart := h.advance before
      have hstop := hstart.advance part.length
      obtain ⟨hline, hW⟩ := hstart 0
      have hle := (c.advance before).position_le_advance part.length
      exact ⟨hstop, ⟨decide_eq_true hline, hW, (hstop 0).2, hle⟩, c.position_le_advance before, rfl⟩

end Cursor

/-! ## Searches -/

/-- The cursor stays where the property holds, and the mistakes found so far are at ordered
spans. -/
structure Search.Sound (W : Position → Prop) (s : Search) : Prop where
  cursor : s.cursor.StaysIn W
  mistakes : ∀ e ∈ s.mistakes, e.span.OrderedIn W

/-- Work that starts at the position and moves forward. What it gives has a property that may be
about the position where it ends. -/
def Advances {α : Type} (W : Position → Prop) (p : Position) (R : Position → α → Prop)
    (w : Locating α) : Prop :=
  ∀ s : Search, s.Sound W → s.cursor.position = p →
    (w s).2.Sound W ∧ p ≤ (w s).2.cursor.position ∧ R (w s).2.cursor.position (w s).1

namespace Advances

variable {α β : Type} {W : Position → Prop} {p : Position}
variable {R : Position → α → Prop} {T : Position → β → Prop}

theorem pure {a : α} (h : R p a) : Advances W p R (Pure.pure a) := by
  intro s hs hp
  subst hp
  exact ⟨hs, le_rfl, h⟩

/-- One piece of work after the other. -/
theorem bind {w : Locating α} {f : α → Locating β} (hw : Advances W p R w)
    (hf : ∀ q a, p ≤ q → R q a → Advances W q T (f a)) : Advances W p T (w >>= f) := by
  intro s hs hp
  obtain ⟨hs', hle, hR⟩ := hw s hs hp
  obtain ⟨hs'', hle', hT⟩ := hf _ _ hle hR _ hs' rfl
  exact ⟨hs'', hle.trans hle', hT⟩

/-- **What is looked for is found in order**, or at the position where the search stands. -/
theorem locate (part : List Char) :
    Advances W p (fun q span => span.OrderedIn W ∧ Follow W p [span] q)
      (Document.locate part) := by
  intro s hs hp
  obtain ⟨hcursor, hspan, hstart, hstop⟩ := hs.cursor.locate part
  subst hp
  have hend : (s.cursor.locate part).1.stop ≤ (s.cursor.locate part).2.position := by
    rw [hstop]
  exact ⟨⟨hcursor, hs.mistakes⟩, (hstart.trans hspan.le).trans hend, hspan,
    .known hstart hspan (.nil hend)⟩

/-- A mistake is noted at an ordered span. -/
theorem report (message : String) {span : Span} (hspan : span.OrderedIn W) :
    Advances W p (fun q _ => q = p) (Document.report message span) := by
  intro s hs hp
  refine ⟨⟨hs.cursor, fun e he => ?_⟩, hp.ge, hp⟩
  rcases List.mem_append.mp he with he | he
  · exact hs.mistakes e he
  · rw [List.mem_singleton.mp he]
    exact hspan

end Advances

end Livedoc.Document
