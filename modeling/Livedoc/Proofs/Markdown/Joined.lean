import Livedoc.Proofs.Markdown.Shown

/-!
# Text in front of a level

How a level divides its text into pieces does not matter: neighbouring texts are joined before
emphasis is resolved (`Piece.joinTexts_append`).  Text that ends in white space does not matter for
the runs of marks after it either, which see the end of a level instead.  So resolving the emphasis
of a level with such a text in front puts the text in front of the result
(`resolveEmphasis_cons_text`), and likewise for a text and a soft break
(`resolveEmphasis_cons_softBreak`).
-/

namespace Livedoc.Markdown

open Livedoc.Text

/-! ## Joining pieces -/

namespace Piece

variable {ps ps' qs qs' : List Piece}

/-- A text in front of pieces whose texts are joined. -/
def consText (raw : List Char) : List Piece → List Piece
  | .done (.text next) :: others => .done (.text (raw ++ next)) :: others
  | others => .done (.text raw) :: others

theorem joinTexts_text (raw : List Char) (rest : List Piece) :
    joinTexts (.done (.text raw) :: rest) = consText raw (joinTexts rest) := rfl

theorem consText_consText (raw next : List Char) (ps : List Piece) :
    consText raw (consText next ps) = consText (raw ++ next) ps := by
  fun_cases consText next ps <;> simp [consText]

theorem any_isMarks_consText (raw : List Char) (ps : List Piece) :
    (consText raw ps).any isMarks = ps.any isMarks := by
  fun_cases consText raw ps <;> simp [isMarks]

theorem joinTexts_append_right (h : joinTexts qs = joinTexts qs') (ps : List Piece) :
    joinTexts (ps ++ qs) = joinTexts (ps ++ qs') := by
  fun_induction joinTexts ps with
  | case1 => exact h
  | case2 raw rest _ _ _ ih | case3 raw rest _ ih =>
      rw [List.cons_append, List.cons_append, joinTexts_text, joinTexts_text, ih]
  | case4 p rest hp ih =>
      rw [List.cons_append, List.cons_append, joinTexts, joinTexts, ih] <;> exact hp

theorem joinTexts_consText_append (raw : List Char) (ps qs : List Piece) :
    joinTexts (consText raw ps ++ qs) = consText raw (joinTexts (ps ++ qs)) := by
  fun_cases consText raw ps with
  | case1 next others =>
      rw [List.cons_append, List.cons_append, joinTexts_text, joinTexts_text, consText_consText]
  | case2 ps => rw [List.cons_append, joinTexts_text]

/-- Texts may be joined before more pieces follow. -/
theorem joinTexts_joinTexts_append (ps qs : List Piece) :
    joinTexts (joinTexts ps ++ qs) = joinTexts (ps ++ qs) := by
  induction ps with
  | nil => rfl
  | cons p rest ih =>
      by_cases hp : ∃ raw, p = .done (.text raw)
      · obtain ⟨raw, rfl⟩ := hp
        rw [joinTexts_text, joinTexts_consText_append, ih, List.cons_append, joinTexts_text]
      · have hp : ∀ raw, p ≠ .done (.text raw) := fun raw h => hp ⟨raw, h⟩
        rw [joinTexts, List.cons_append, List.cons_append, joinTexts, joinTexts, ih] <;> exact hp

/-- **What pieces are after joining their texts depends only on what their parts are.** -/
theorem joinTexts_append (h : joinTexts ps = joinTexts ps') (h' : joinTexts qs = joinTexts qs') :
    joinTexts (ps ++ qs) = joinTexts (ps' ++ qs') := by
  rw [← joinTexts_joinTexts_append ps, h, joinTexts_joinTexts_append]
  exact joinTexts_append_right h' ps'

end Piece

/-- How a level divides its text into pieces does not matter. -/
theorem resolveEmphasis_congr {ps qs : List Piece} (h : Piece.joinTexts ps = Piece.joinTexts qs) :
    resolveEmphasis ps = resolveEmphasis qs := by
  rw [resolveEmphasis, resolveEmphasis, h]

namespace Inline

/-- A text in front of pieces of markup. -/
def consText (raw : List Char) : List Inline → List Inline
  | text next :: others => text (raw ++ next) :: others
  | others => text raw :: others

theorem joinTexts_text {raw : List Char} (h : raw ≠ []) (is : List Inline) :
    joinTexts (text raw :: is) = consText raw (joinTexts is) := by
  rw [joinTexts]
  simp only [textChars?, List.isEmpty_iff, h, if_false]
  split
  · next hothers => rw [hothers, consText]
  · next others hothers => rw [consText]; exact hothers

theorem joinTexts_text_append {raw : List Char} (h : raw ≠ []) (next : List Char)
    (is : List Inline) :
    joinTexts (text (raw ++ next) :: is) = joinTexts (text raw :: text next :: is) := by
  have happend : raw ++ next ≠ [] := by simp [h]
  rw [joinTexts_text happend, joinTexts_text h]
  by_cases hnext : next = []
  · subst hnext
    have hempty : joinTexts (text [] :: is) = joinTexts is := by
      rw [joinTexts]
      simp only [textChars?]
      split
      · next hothers => rw [hothers, List.nil_append]
      · rfl
    rw [hempty, List.append_nil]
  · rw [joinTexts_text hnext]
    fun_cases consText next (joinTexts is) <;> simp [consText, *]

end Inline

/-! ## What lies before the first opening run -/

namespace Pairing

variable {p : Pairing}

/-- A pairing of a level that starts with more pieces, given last one first. -/
def onto (p : Pairing) (base : List Inline) : Pairing := { p with content := p.content ++ base }

theorem push_onto (p : Pairing) (base : List Inline) (i : Inline) :
    (p.onto base).push i = (p.push i).onto base := by
  unfold push onto
  cases p.openings <;> rfl

theorem pushAll_onto (p : Pairing) (base is : List Inline) :
    (p.onto base).pushAll is = (p.pushAll is).onto base := by
  unfold pushAll onto
  cases p.openings <;> simp

theorem paired_onto (content base : List Inline) (outer : List Opening) (opening : Run)
    (emphasis : Inline) :
    (if opening.left = 0 then (Pairing.mk (content ++ base) outer).pushAll [emphasis, opening.rest]
      else ⟨content ++ base, ⟨opening, [emphasis]⟩ :: outer⟩) =
      (if opening.left = 0 then (Pairing.mk content outer).pushAll [emphasis, opening.rest]
        else ⟨content, ⟨opening, [emphasis]⟩ :: outer⟩).onto base := by
  split
  · exact pushAll_onto ⟨content, outer⟩ base _
  · rfl

/-- Pairing a closing run does not look at what lies before the first opening one. -/
theorem close_onto (rounds : Nat) (run : Run) (p : Pairing) (base : List Inline) :
    (p.onto base).close rounds run = (p.close rounds run).onto base := by
  induction rounds generalizing run p with
  | zero => exact push_onto p base run.rest
  | succ rounds ih =>
      have hopenings : (p.onto base).openings = p.openings := rfl
      have hunpaired : (if run.opens && run.left > 0 then
            { p.onto base with openings := ⟨run, []⟩ :: p.openings }
          else (p.onto base).push run.rest) =
          (if run.opens && run.left > 0 then { p with openings := ⟨run, []⟩ :: p.openings }
            else p.push run.rest).onto base := by
        split
        · rfl
        · exact push_onto p base run.rest
      unfold close
      rw [hopenings]
      dsimp only
      split
      · split
        · next o outer hfound =>
            split
            · exact hunpaired
            · rw [← ih]
              let strong : Bool := run.left ≥ 2 && o.run.left ≥ 2
              let used := if strong then 2 else 1
              let opening : Run := { o.run with left := o.run.left - used }
              exact congrArg _ (paired_onto p.content base outer opening _)
        · exact hunpaired
      · exact hunpaired

theorem finish_onto (p : Pairing) (base : List Inline) :
    (p.onto base).finish = base.reverse ++ p.finish := by
  obtain ⟨content, openings⟩ := p
  induction openings with
  | nil => simp [onto, finish]
  | cons o outer ih =>
      have honto : (Pairing.mk content (o :: outer)).onto base =
        ⟨content ++ base, o :: outer⟩ := rfl
      rw [honto, finish_open, finish_open, ← List.append_assoc, ← ih]
      rfl

end Pairing

theorem pairFrom_onto (before : Option Char) (ps : List Piece) (p : Pairing)
    (base : List Inline) : pairFrom before ps (p.onto base) = (pairFrom before ps p).onto base := by
  induction ps generalizing before p with
  | nil => rfl
  | cons piece rest ih =>
      cases piece with
      | done i => exact (congrArg (pairFrom _ rest) (Pairing.push_onto p base i)).trans (ih _ _)
      | marks mark count =>
          exact (congrArg (pairFrom _ rest) (Pairing.close_onto _ _ p base)).trans (ih _ _)

/-- **What a level starts with stays in front**, as far as it holds no runs of marks. -/
theorem finish_pairFrom (before : Option Char) (ps : List Piece) (base : List Inline) :
    (pairFrom before ps ⟨base, []⟩).finish =
      base.reverse ++ (pairFrom before ps ⟨[], []⟩).finish := by
  rw [← Pairing.finish_onto, ← pairFrom_onto]
  rfl

/-- White space before a run is like the start of a level. -/
theorem Run.between_blank {c : Char} (hc : isBlank c = true) (after : Option Char) (mark : Char)
    (count : Nat) : Run.between (some c) after mark count = Run.between none after mark count := by
  have hspace : isBlank ' ' = true := by decide
  simp [Run.between, hc, hspace]

theorem pairFrom_blank {before : Option Char} (h : ∀ c, before = some c → isBlank c = true)
    (ps : List Piece) (p : Pairing) : pairFrom before ps p = pairFrom none ps p := by
  cases before with
  | none => rfl
  | some c =>
      cases ps with
      | nil => rfl
      | cons piece rest =>
          cases piece with
          | done i => rfl
          | marks mark count => simp only [pairFrom, Run.between_blank (h c rfl)]

/-! ## Levels with a text in front -/

/-- **A text that ends in white space stays in front of a level**, whatever follows it. -/
theorem resolveEmphasis_cons_text {raw : List Char} {c : Char} (hlast : raw.getLast? = some c)
    (hc : isBlank c = true) (ps : List Piece) :
    resolveEmphasis (.done (.text raw) :: ps) = Inline.consText raw (resolveEmphasis ps) := by
  have hne : raw ≠ [] := by
    rintro rfl
    cases hlast
  unfold resolveEmphasis
  dsimp only
  rw [Piece.joinTexts_text, Piece.any_isMarks_consText]
  generalize Piece.joinTexts ps = joined
  split
  · rw [← Inline.joinTexts_text hne]
    fun_cases Piece.consText raw joined with
    | case1 next others =>
        -- What follows the text sees its last character, or white space.
        have hbefore : pairFrom (raw ++ next).getLast? others ⟨[], []⟩ =
            pairFrom next.getLast? others ⟨[], []⟩ := by
          rw [List.getLast?_append]
          cases hnext : next.getLast? with
          | some d => rfl
          | none =>
              rw [hlast]
              refine pairFrom_blank ?_ others _
              rintro d ⟨⟩
              exact hc
        rw [pairFrom, pairFrom]
        show Inline.joinTexts (pairFrom (raw ++ next).getLast? others ⟨[.text (raw ++ next)], []⟩).finish =
          Inline.joinTexts (.text raw :: (pairFrom next.getLast? others ⟨[.text next], []⟩).finish)
        rw [finish_pairFrom, finish_pairFrom _ _ [.text next], hbefore]
        exact Inline.joinTexts_text_append hne next _
    | case2 =>
        rw [pairFrom]
        show Inline.joinTexts (pairFrom raw.getLast? joined ⟨[.text raw], []⟩).finish = _
        rw [finish_pairFrom, pairFrom_blank]
        · rfl
        · rintro d hd
          rw [hlast] at hd
          cases hd
          exact hc
  · next hmarks =>
      -- A run of marks would be a text here.
      cases joined with
      | nil => rfl
      | cons first others =>
          cases first with
          | done i => cases i <;> rfl
          | marks mark count => exact absurd rfl hmarks

/-- **A text and a soft break stay in front of a level**, whatever follows them. -/
theorem resolveEmphasis_cons_softBreak {raw : List Char} (hne : raw ≠ []) (ps : List Piece) :
    resolveEmphasis (.done (.text raw) :: .done .softBreak :: ps) =
      .text raw :: .softBreak :: resolveEmphasis ps := by
  have hjoin : Piece.joinTexts (.done (.text raw) :: .done .softBreak :: ps) =
      .done (.text raw) :: .done .softBreak :: Piece.joinTexts ps := by
    rw [Piece.joinTexts_text, Piece.joinTexts]
    · rfl
    · nofun
  unfold resolveEmphasis
  dsimp only
  rw [hjoin]
  generalize Piece.joinTexts ps = joined
  have hmarks : (Piece.done (.text raw) :: .done .softBreak :: joined).any Piece.isMarks =
      joined.any Piece.isMarks := rfl
  rw [hmarks]
  split
  · have hpair : (pairFrom none (.done (.text raw) :: .done .softBreak :: joined) ⟨[], []⟩).finish =
        .text raw :: .softBreak :: (pairFrom none joined ⟨[], []⟩).finish := by
      rw [pairFrom, pairFrom]
      show (pairFrom (some '\n') joined ⟨[.softBreak, .text raw], []⟩).finish = _
      rw [finish_pairFrom, pairFrom_blank]
      · rfl
      · rintro d ⟨⟩
        decide
    rw [hpair, Inline.joinTexts_text hne, Inline.joinTexts]
    rfl
  · rfl

end Livedoc.Markdown
