import Livedoc.Proofs.Markdown.Heads

/-!
# What a line shows

The markup of a line shows characters of the line: of texts all of them, of emphasis what stands
between its marks, of a link what stands between its brackets.  So reading the markup of some text
can leave characters out, but it adds none.  And if it leaves none out, there was no markup to read:
every piece is text, raw HTML, or a line break that is shown as one (`Inline.Reduces`).

This holds of each reader of markup without inner markup (`leaf?_shows`), and of the pairing of runs
of marks (`resolveEmphasis_reduces`).
-/

namespace Livedoc.Markdown

open Livedoc.Text

namespace Inline

variable {is js ks ms : List Inline} {cs part : List Char}

mutual

/-- The characters that a piece shows. -/
def shown : Inline → List Char
  | text raw | escaped raw | code raw | html raw | call _ raw => raw
  | softBreak | hardBreak => ['\n']
  | math raw display => if display then trim raw else raw
  | emphasis _ children | link _ _ children | image _ _ children => shownAll children
  | sizedImage i => i.alt.toList

/-- The characters that several pieces show. -/
def shownAll : List Inline → List Char
  | [] => []
  | i :: rest => i.shown ++ shownAll rest

end

mutual

/-- Whether a piece is a call or holds one. -/
def hasCall : Inline → Bool
  | call .. => true
  | emphasis _ children | link _ _ children | image _ _ children => anyCall children
  | _ => false

/-- Whether one of several pieces is a call or holds one. -/
def anyCall : List Inline → Bool
  | [] => false
  | i :: rest => i.hasCall || anyCall rest

end

/-- Whether a piece is no markup: text, raw HTML, or a line break that is shown as one. -/
def isPlain : Inline → Bool
  | text _ | html _ | softBreak => true
  | _ => false

@[simp] theorem shownAll_append (is js : List Inline) :
    shownAll (is ++ js) = shownAll is ++ shownAll js := by
  induction is with
  | nil => rfl
  | cons i is ih => rw [List.cons_append, shownAll, shownAll, ih, List.append_assoc]

@[simp] theorem anyCall_append (is js : List Inline) :
    anyCall (is ++ js) = (anyCall is || anyCall js) := by
  induction is with
  | nil => rfl
  | cons i is ih => rw [List.cons_append, anyCall, anyCall, ih, Bool.or_assoc]

/-! ## Showing the same, and showing less -/

/-- Some pieces show what others show.  They have no markup if the others have none, and hold no
calls if the others hold none. -/
structure Keeps (is js : List Inline) : Prop where
  calls : anyCall is = false → anyCall js = false
  shown : shownAll js = shownAll is
  plain : is.all isPlain = true → js.all isPlain = true

/-- Some pieces show what others show, without markup if the others have none, or they show less.
They hold no calls if the others hold none. -/
structure Reduces (is js : List Inline) : Prop where
  calls : anyCall is = false → anyCall js = false
  shows : (shownAll js = shownAll is ∧ (is.all isPlain = true → js.all isPlain = true)) ∨
    (shownAll js).length < (shownAll is).length

namespace Keeps

theorem refl (is : List Inline) : Keeps is is := ⟨id, rfl, id⟩

theorem of_eq (h : is = js) : Keeps is js := h ▸ .refl is

theorem trans (h : Keeps is js) (h' : Keeps js ks) : Keeps is ks :=
  ⟨h'.calls ∘ h.calls, h'.shown.trans h.shown, h'.plain ∘ h.plain⟩

theorem append (h : Keeps is js) (h' : Keeps ks ms) : Keeps (is ++ ks) (js ++ ms) where
  calls := by
    simp only [anyCall_append, Bool.or_eq_false_iff]
    exact fun hcalls => ⟨h.calls hcalls.1, h'.calls hcalls.2⟩
  shown := by rw [shownAll_append, shownAll_append, h.shown, h'.shown]
  plain := by
    simp only [List.all_append, Bool.and_eq_true]
    exact fun hplain => ⟨h.plain hplain.1, h'.plain hplain.2⟩

theorem append_left (is : List Inline) (h : Keeps js ks) : Keeps (is ++ js) (is ++ ks) :=
  (refl is).append h

theorem reduces (h : Keeps is js) : Reduces is js := ⟨h.calls, .inl ⟨h.shown, h.plain⟩⟩

/-- Neighbouring texts may be one text. -/
theorem joined (raw more : List Char) : Keeps [text raw, text more] [text (raw ++ more)] :=
  ⟨fun _ => rfl, by simp [shownAll, Inline.shown], fun _ => rfl⟩

/-- A text may be two texts. -/
theorem divided (raw more : List Char) : Keeps [text (raw ++ more)] [text raw, text more] :=
  ⟨fun _ => rfl, by simp [shownAll, Inline.shown], fun _ => rfl⟩

/-- A text without characters shows nothing. -/
theorem append_empty (is : List Inline) : Keeps (is ++ [text []]) is where
  calls h := by
    rw [anyCall_append, Bool.or_eq_false_iff] at h
    exact h.1
  shown := by simp [shownAll, Inline.shown]
  plain h := by
    rw [List.all_append, Bool.and_eq_true] at h
    exact h.1

end Keeps

namespace Reduces

theorem refl (is : List Inline) : Reduces is is := (Keeps.refl is).reduces

theorem of_eq (h : is = js) : Reduces is js := (Keeps.of_eq h).reduces

/-- Pieces that show less. -/
theorem of_length_lt (calls : anyCall is = false → anyCall js = false)
    (h : (shownAll js).length < (shownAll is).length) : Reduces is js := ⟨calls, .inr h⟩

theorem length_le (h : Reduces is js) : (shownAll js).length ≤ (shownAll is).length := by
  rcases h.shows with ⟨hsame, -⟩ | hless
  · exact Nat.le_of_eq (congrArg List.length hsame)
  · exact Nat.le_of_lt hless

theorem trans (h : Reduces is js) (h' : Reduces js ks) : Reduces is ks where
  calls := h'.calls ∘ h.calls
  shows := by
    have hle := h.length_le
    rcases h'.shows with ⟨hsame', hplain'⟩ | hless'
    · rcases h.shows with ⟨hsame, hplain⟩ | hless
      · exact .inl ⟨hsame'.trans hsame, hplain' ∘ hplain⟩
      · exact .inr (hsame' ▸ hless)
    · exact .inr (Nat.lt_of_lt_of_le hless' hle)

theorem append (h : Reduces is js) (h' : Reduces ks ms) : Reduces (is ++ ks) (js ++ ms) where
  calls := by
    simp only [anyCall_append, Bool.or_eq_false_iff]
    exact fun hcalls => ⟨h.calls hcalls.1, h'.calls hcalls.2⟩
  shows := by
    have hle := h.length_le
    have hle' := h'.length_le
    simp only [shownAll_append, List.length_append, List.all_append, Bool.and_eq_true]
    rcases h.shows with ⟨hsame, hplain⟩ | hless
    · rcases h'.shows with ⟨hsame', hplain'⟩ | hless'
      · exact .inl ⟨by rw [hsame, hsame'], fun hall => ⟨hplain hall.1, hplain' hall.2⟩⟩
      · exact .inr (by omega)
    · exact .inr (by omega)

theorem append_left (is : List Inline) (h : Reduces js ks) : Reduces (is ++ js) (is ++ ks) :=
  (refl is).append h

/-- Fewer pieces show less. -/
theorem append_nil (is js : List Inline) : Reduces (is ++ js) is where
  calls := by
    rw [anyCall_append, Bool.or_eq_false_iff]
    exact And.left
  shows := by
    rw [shownAll_append, List.length_append, List.all_append, Bool.and_eq_true]
    by_cases h : shownAll js = []
    · exact .inl ⟨by rw [h, List.append_nil], And.left⟩
    · have := List.length_pos_iff.mpr h
      exact .inr (by omega)

/-- Pieces that show a whole text have no markup. -/
theorem all_isPlain (h : Reduces [text cs] js) (hshown : shownAll js = cs) :
    js.all isPlain = true := by
  rcases h.shows with ⟨-, hplain⟩ | hless
  · exact hplain rfl
  · simp [hshown, shownAll, shown] at hless

end Reduces

/-- Joining texts keeps what they show. -/
theorem joinTexts_keeps (is : List Inline) : Keeps is (joinTexts is) := by
  induction is with
  | nil => exact .refl []
  | cons i rest ih =>
      refine (Keeps.append_left [i] ih).trans ?_
      -- A text and an escaped text show the same characters, and neither holds a call.
      have htext (raw : List Char) (h : i.textChars? = some raw) : Keeps [i] [text raw] := by
        cases i <;> cases h <;> exact ⟨fun _ => rfl, rfl, fun _ => rfl⟩
      rw [joinTexts]
      split
      · exact .refl _
      · next raw hraw =>
          refine ((htext raw hraw).append (.refl _)).trans ?_
          split
          · next next others hothers =>
              rw [hothers]
              exact (Keeps.joined raw next).append (.refl others)
          · split
            · next hempty =>
                rw [List.isEmpty_iff.mp hempty]
                exact ⟨id, rfl, id⟩
            · exact .refl _

end Inline

/-- Joining the texts of a level keeps what they show. -/
theorem Piece.joinTexts_keeps (ps : List Piece) :
    Inline.Keeps (ps.map Piece.plain) ((Piece.joinTexts ps).map Piece.plain) := by
  fun_induction Piece.joinTexts ps with
  | case1 => exact .refl []
  | case2 raw rest next others hothers ih =>
      rw [hothers] at ih
      exact (ih.append_left [.text raw]).trans ((Inline.Keeps.joined raw next).append (.refl _))
  | case3 raw rest _ ih => exact ih.append_left [.text raw]
  | case4 p rest _ ih => exact ih.append_left [p.plain]

theorem Piece.joinTexts_isMarks {ps : List Piece} (h : ∀ p ∈ ps, p.isMarks = false) :
    ∀ p ∈ Piece.joinTexts ps, p.isMarks = false := by
  fun_induction Piece.joinTexts ps with
  | case1 => exact h
  | case2 raw rest next others hothers ih =>
      have hrest := ih fun p hp => h p (List.mem_cons_of_mem _ hp)
      rw [hothers, List.forall_mem_cons] at hrest
      exact List.forall_mem_cons.mpr ⟨rfl, hrest.2⟩
  | case3 raw rest _ ih =>
      exact List.forall_mem_cons.mpr ⟨rfl, ih fun p hp => h p (List.mem_cons_of_mem _ hp)⟩
  | case4 p rest _ ih =>
      rw [List.forall_mem_cons] at h
      exact List.forall_mem_cons.mpr ⟨h.1, ih h.2⟩

/-! ## Emphasis -/

namespace Pairing

variable {p : Pairing}

theorem finish_push (p : Pairing) (i : Inline) : (p.push i).finish = p.finish ++ [i] := by
  unfold push finish
  cases p.openings <;> simp

theorem finish_pushAll (p : Pairing) (is : List Inline) :
    (p.pushAll is).finish = p.finish ++ is.reverse := by
  unfold pushAll finish
  cases p.openings <;> simp

/-- A run that opens a level is followed by what the level holds. -/
theorem finish_open (content : List Inline) (o : Opening) (outer : List Opening) :
    (Pairing.mk content (o :: outer)).finish =
      (Pairing.mk content outer).finish ++ o.run.rest :: o.content.reverse := by
  simp [finish]

/-- What lies after the opening run that is found is what followed it. -/
theorem finish_findOpening {closing : Run} {content : List Inline} {openings outer : List Opening}
    {o : Opening} (h : findOpening closing openings = some (o, outer)) :
    (Pairing.mk content openings).finish = (Pairing.mk content (o :: outer)).finish := by
  induction openings generalizing o with
  | nil => cases h
  | cons first rest ih =>
      unfold findOpening at h
      split at h
      · cases h
        rfl
      · obtain ⟨⟨found, outer'⟩, hrest, heq⟩ := Option.map_eq_some_iff.mp h
        cases heq
        rw [finish_open, ih hrest, finish_open, finish_open]
        simp

/-- Emphasis follows what is left of the run that opened it. -/
theorem finish_paired (content : List Inline) (outer : List Opening) (opening : Run)
    (emphasis : Inline) :
    (if opening.left = 0 then (Pairing.mk content outer).pushAll [emphasis, opening.rest]
      else ⟨content, ⟨opening, [emphasis]⟩ :: outer⟩).finish =
      (Pairing.mk content outer).finish ++ [opening.rest, emphasis] := by
  split
  · exact finish_pushAll _ _
  · exact finish_open content ⟨opening, [emphasis]⟩ outer

/-- Emphasis does not show the marks that it takes from the runs. -/
theorem paired_reduces (before content : List Inline) (strong : Bool) (opening : Run)
    {closing : Run} {used : Nat} (hused : 0 < used) (hclosing : used ≤ closing.left) :
    Inline.Reduces (before ++ (opening.rest :: content) ++ [closing.rest])
      (before ++ [{ opening with left := opening.left - used }.rest,
        Inline.emphasis strong content] ++ [{ closing with left := closing.left - used }.rest]) := by
  refine .of_length_lt ?_ ?_
  · simp [Inline.anyCall, Inline.hasCall, Run.rest]
  · simp only [Inline.shownAll_append, Inline.shownAll, Inline.shown, Run.rest, List.length_append,
      List.length_replicate, List.length_nil]
    omega

/-- **Pairing a closing run shows no more than the run does.** -/
theorem close_reduces (rounds : Nat) (run : Run) (p : Pairing) :
    Inline.Reduces (p.finish ++ [run.rest]) (p.close rounds run).finish := by
  induction rounds generalizing run p with
  | zero => exact .of_eq (finish_push p run.rest).symm
  | succ rounds ih =>
      have hunpaired : (if run.opens && run.left > 0 then
            { p with openings := ⟨run, []⟩ :: p.openings }
          else p.push run.rest).finish = p.finish ++ [run.rest] := by
        split
        · exact finish_open p.content ⟨run, []⟩ p.openings
        · exact finish_push p run.rest
      unfold close
      dsimp only
      split
      · next hcloses =>
          split
          · next o outer hfound =>
              split
              · exact .of_eq hunpaired.symm
              · simp only [Bool.and_eq_true, decide_eq_true_eq] at hcloses
                let strong : Bool := run.left ≥ 2 && o.run.left ≥ 2
                let used := if strong then 2 else 1
                have hused : 0 < used ∧ used ≤ run.left := by
                  show 0 < (if _ then 2 else 1) ∧ (if _ then 2 else 1) ≤ run.left
                  grind
                have hfinish : p.finish = (Pairing.mk p.content outer).finish ++
                    o.run.rest :: o.content.reverse := by
                  rw [← finish_open, ← finish_findOpening hfound]
                have hpaired := paired_reduces (Pairing.mk p.content outer).finish
                  o.content.reverse strong o.run hused.1 hused.2
                rw [← hfinish, ← finish_paired] at hpaired
                exact hpaired.trans (ih _ _)
          · exact .of_eq hunpaired.symm
      · exact .of_eq hunpaired.symm

end Pairing

theorem Run.rest_between (before after : Option Char) (mark : Char) (count : Nat) :
    (Run.between before after mark count).rest = .text (List.replicate count mark) := by
  unfold Run.between
  dsimp only
  split <;> rfl

theorem pairFrom_reduces (before : Option Char) (ps : List Piece) (p : Pairing) :
    Inline.Reduces (p.finish ++ ps.map Piece.plain) (pairFrom before ps p).finish := by
  induction ps generalizing before p with
  | nil => exact .of_eq (List.append_nil _)
  | cons piece rest ih =>
      rw [List.map_cons, ← List.singleton_append, ← List.append_assoc]
      cases piece with
      | done i =>
          have hpush : Inline.Reduces (p.finish ++ [(Piece.done i).plain]) (p.push i).finish :=
            .of_eq (Pairing.finish_push p i).symm
          exact (hpush.append (.refl _)).trans (ih _ _)
      | marks mark count =>
          have hclose := Pairing.close_reduces (count + 1)
            (Run.between before (rest.head?.bind Piece.firstChar) mark count) p
          rw [Run.rest_between] at hclose
          exact (hclose.append (.refl _)).trans (ih _ _)

/-- **Pairing the runs of marks of a level shows no more than the level does.** -/
theorem resolveEmphasis_reduces (ps : List Piece) :
    Inline.Reduces (ps.map Piece.plain) (resolveEmphasis ps) := by
  refine (Piece.joinTexts_keeps ps).reduces.trans ?_
  unfold resolveEmphasis
  dsimp only
  split
  · exact (pairFrom_reduces none (Piece.joinTexts ps) ⟨[], []⟩).trans (Inline.joinTexts_keeps _).reduces
  · exact .refl _

/-- A level without marks keeps what it shows. -/
theorem resolveEmphasis_keeps {ps : List Piece} (h : ∀ p ∈ ps, p.isMarks = false) :
    Inline.Keeps (ps.map Piece.plain) (resolveEmphasis ps) := by
  have hjoined := Piece.joinTexts_isMarks h
  unfold resolveEmphasis
  rw [if_neg]
  · exact Piece.joinTexts_keeps ps
  · simpa using hjoined

end Livedoc.Markdown
