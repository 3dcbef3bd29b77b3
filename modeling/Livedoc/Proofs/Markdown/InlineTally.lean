import Livedoc.Proofs.Markdown.Heads
import Livedoc.Proofs.Markdown.LeafTally

/-!
# Brackets in a line

Reading a line adds no opening brackets (`tally_readInline_le`).  What has been read so far weighs
as much as its pieces, its pending text and the brackets that wait for their closing ones; a step
adds at most the brackets that it takes from the source.  Pairing the runs of a level moves pieces
about and uses marks up, and a link or an image loses the bracket that opens it.
-/

namespace Livedoc.Markdown

open Livedoc.Text

variable {cs after : List Char}

/-! ## Pieces -/

/-- Joining texts keeps their brackets. -/
theorem Inline.weightAll_joinTexts (is : List Inline) :
    weightAll (joinTexts is) = weightAll is := by
  induction is with
  | nil => rfl
  | cons i rest ih =>
      unfold joinTexts
      cases htext : i.textChars? with
      | none => simp only [weightAll, ih]
      | some raw =>
          have hweight : i.weight = tally raw := by
            cases i <;> simp_all [textChars?, weight]
          dsimp only
          split
          · next next others hothers =>
              rw [hothers] at ih
              simp only [weightAll, weight, tally_append] at ih ⊢
              omega
          · split
            · next hempty =>
                rw [List.isEmpty_iff.mp hempty, tally_nil] at hweight
                rw [ih, weightAll, hweight, Nat.zero_add]
            · rw [weightAll, weightAll, ih, weight, hweight]

namespace Piece

/-- The number of opening brackets in a piece of a level. -/
def weight (p : Piece) : Nat := p.plain.weight

/-- The number of opening brackets in several pieces of a level. -/
def weightAll (ps : List Piece) : Nat := (ps.map weight).sum

@[simp]
theorem weightAll_nil : weightAll [] = 0 := rfl

@[simp]
theorem weightAll_cons (p : Piece) (ps : List Piece) :
    weightAll (p :: ps) = p.weight + weightAll ps := by
  simp [weightAll]

@[simp]
theorem weightAll_append (ps qs : List Piece) :
    weightAll (ps ++ qs) = weightAll ps + weightAll qs := by
  simp [weightAll]

@[simp]
theorem weightAll_reverse (ps : List Piece) : weightAll ps.reverse = weightAll ps := by
  simp [weightAll, List.sum_reverse]

@[simp]
theorem weight_text (raw : List Char) : (done (.text raw)).weight = tally raw := by
  rw [weight, plain, Inline.weight]

theorem weightAll_joinTexts (ps : List Piece) : weightAll (joinTexts ps) = weightAll ps := by
  fun_induction joinTexts ps with
  | case1 => rfl
  | case2 raw rest next others hothers ih =>
      rw [hothers] at ih
      simp only [weightAll_cons, weight_text, tally_append] at ih ⊢
      omega
  | case3 raw rest _ ih => rw [weightAll_cons, weightAll_cons, ih]
  | case4 p rest _ ih => rw [weightAll_cons, weightAll_cons, ih]

theorem weightAll_plain (ps : List Piece) :
    Inline.weightAll (ps.map plain) = weightAll ps := by
  induction ps with
  | nil => rfl
  | cons p rest ih => rw [List.map_cons, Inline.weightAll, ih, weightAll_cons, weight]

end Piece

/-! ## Emphasis -/

theorem Run.weight_rest (r : Run) : r.rest.weight = tally (List.replicate r.left r.mark) := by
  rw [Run.rest, Inline.weight]

/-- Using marks up adds no brackets. -/
theorem Run.weight_rest_le (r : Run) (used : Nat) :
    ({ r with left := r.left - used } : Run).rest.weight ≤ r.rest.weight := by
  rw [weight_rest, weight_rest]
  exact tally_replicate_le (Nat.sub_le _ _) r.mark

theorem Run.weight_rest_between (before after : Option Char) (mark : Char) (count : Nat) :
    (Run.between before after mark count).rest.weight = (Piece.marks mark count).weight := by
  rw [weight_rest, Piece.weight, Piece.plain, Inline.weight]
  unfold Run.between
  dsimp only
  split <;> rfl

/-- The number of opening brackets in an opening run and behind it. -/
def Opening.weight (o : Opening) : Nat := Inline.weightAll o.content + o.run.rest.weight

/-- The number of opening brackets in opening runs and behind them. -/
def weightOpenings (os : List Opening) : Nat := (os.map Opening.weight).sum

theorem weightOpenings_cons (o : Opening) (os : List Opening) :
    weightOpenings (o :: os) = o.weight + weightOpenings os := by
  simp [weightOpenings]

namespace Pairing

variable {p : Pairing}

/-- The number of opening brackets in a level whose runs are being paired. -/
def weight (p : Pairing) : Nat := Inline.weightAll p.content + weightOpenings p.openings

theorem weight_pushAll (p : Pairing) (is : List Inline) :
    (p.pushAll is).weight = p.weight + Inline.weightAll is := by
  unfold pushAll
  split
  · next hopenings =>
      simp only [weight, Inline.weightAll_append]
      omega
  · next o outer hopenings =>
      simp only [weight, hopenings, weightOpenings_cons, Opening.weight, Inline.weightAll_append]
      omega

theorem weight_push (p : Pairing) (i : Inline) : (p.push i).weight = p.weight + i.weight := by
  have hone : (p.pushAll [i]).weight = p.weight + i.weight := by
    rw [weight_pushAll, Inline.weightAll, Inline.weightAll, Nat.add_zero]
  have hsame : p.push i = p.pushAll [i] := by
    unfold push pushAll
    split <;> simp
  rw [hsame, hone]

/-- The runs that are passed become text behind the one that is found. -/
theorem weight_findOpening {closing : Run} {openings outer : List Opening} {o : Opening}
    (h : findOpening closing openings = some (o, outer)) :
    o.weight + weightOpenings outer = weightOpenings openings := by
  induction openings generalizing o with
  | nil => cases h
  | cons first rest ih =>
      unfold findOpening at h
      split at h
      · cases h
        rw [weightOpenings_cons]
      · obtain ⟨⟨found, outer'⟩, hrest, heq⟩ := Option.map_eq_some_iff.mp h
        cases heq
        have hfound := ih hrest
        simp only [Opening.weight, weightOpenings_cons, Inline.weightAll_append,
          Inline.weightAll] at hfound ⊢
        omega

/-- A run that is not paired opens a level, or it is a text. -/
private theorem weight_unpaired (p : Pairing) (run : Run) :
    (if run.opens && run.left > 0 then { p with openings := ⟨run, []⟩ :: p.openings }
      else p.push run.rest).weight = p.weight + run.rest.weight := by
  split
  · simp only [weight, weightOpenings_cons, Opening.weight, Inline.weightAll]
    omega
  · exact weight_push p _

/-- What is put into emphasis is as heavy as before. -/
private theorem weight_paired (p : Pairing) (outer : List Opening) (content : List Inline)
    (opening : Run) (strong : Bool) :
    (if opening.left = 0 then
      { p with openings := outer }.pushAll [Inline.emphasis strong content.reverse, opening.rest]
      else { p with
        openings := ⟨opening, [Inline.emphasis strong content.reverse]⟩ :: outer
      }).weight =
      Inline.weightAll p.content + Inline.weightAll content + opening.rest.weight +
        weightOpenings outer := by
  split
  · rw [weight_pushAll]
    simp only [weight, Inline.weightAll, Inline.weight, Inline.weightAll_reverse]
    omega
  · simp only [weight, weightOpenings_cons, Opening.weight, Inline.weightAll, Inline.weight,
      Inline.weightAll_reverse]
    omega

/-- **Pairing a closing run adds no brackets.** -/
theorem weight_close_le (rounds : Nat) (run : Run) (p : Pairing) :
    (p.close rounds run).weight ≤ p.weight + run.rest.weight := by
  induction rounds generalizing run p with
  | zero => exact (weight_push p _).le
  | succ rounds ih =>
      unfold close
      dsimp only
      split
      · split
        · next o outer hfound =>
            split
            · exact (weight_unpaired p run).le
            · refine Nat.le_trans (ih _ _) (Nat.add_le_add ?_ (run.weight_rest_le _))
              have hopenings := weight_findOpening hfound
              have hrest := o.run.weight_rest_le
                (if run.left ≥ 2 && o.run.left ≥ 2 then 2 else 1)
              refine Nat.le_trans (weight_paired p outer o.content { o.run with left := _ } _).le ?_
              rw [Opening.weight] at hopenings
              rw [weight]
              dsimp only at hrest ⊢
              omega
        · exact (weight_unpaired p run).le
      · exact (weight_unpaired p run).le

theorem weight_finish (p : Pairing) : Inline.weightAll p.finish = p.weight := by
  have hall : ∀ os : List Opening,
      Inline.weightAll (os.foldr (fun o before => o.content ++ o.run.rest :: before) p.content) =
        Inline.weightAll p.content + weightOpenings os := by
    intro os
    induction os with
    | nil => rfl
    | cons o os ih =>
        rw [List.foldr_cons, Inline.weightAll_append, Inline.weightAll, ih, weightOpenings_cons,
          Opening.weight]
        omega
  rw [finish, Inline.weightAll_reverse, hall, weight]

end Pairing

theorem weight_pairFrom_le (before : Option Char) (ps : List Piece) (p : Pairing) :
    (pairFrom before ps p).weight ≤ p.weight + Piece.weightAll ps := by
  induction ps generalizing before p with
  | nil => exact Nat.le_add_right _ _
  | cons piece rest ih =>
      unfold pairFrom
      rw [Piece.weightAll_cons, ← Nat.add_assoc]
      refine Nat.le_trans (ih _ _) (Nat.add_le_add_right ?_ _)
      cases piece with
      | done i => exact (p.weight_push i).le
      | marks mark count =>
          rw [← Run.weight_rest_between before (rest.head?.bind Piece.firstChar)]
          exact p.weight_close_le _ _

/-- **Pairing the runs of a level adds no brackets.** -/
theorem weight_resolveEmphasis_le (ps : List Piece) :
    Inline.weightAll (resolveEmphasis ps) ≤ Piece.weightAll ps := by
  have hjoined := Piece.weightAll_joinTexts ps
  unfold resolveEmphasis
  dsimp only
  split
  · have hpaired := weight_pairFrom_le none (Piece.joinTexts ps) ⟨[], []⟩
    have hempty : (⟨[], []⟩ : Pairing).weight = 0 := rfl
    rw [Inline.weightAll_joinTexts, Pairing.weight_finish]
    omega
  · rw [Piece.weightAll_plain, hjoined]

/-! ## Levels -/

/-- The number of opening brackets in a bracket that waits and before it. -/
def Bracket.weight (b : Bracket) : Nat := b.text.weight + Piece.weightAll b.before

/-- A bracket is one bracket. -/
theorem Bracket.weight_text (b : Bracket) : b.text.weight = 1 := by
  rw [Bracket.text, Piece.weight_text]
  split <;> rfl

/-- The number of opening brackets in brackets that wait and before them. -/
def weightBrackets (bs : List Bracket) : Nat := (bs.map Bracket.weight).sum

theorem weightBrackets_cons (b : Bracket) (bs : List Bracket) :
    weightBrackets (b :: bs) = b.weight + weightBrackets bs := by
  simp [weightBrackets]

namespace LineReading

variable {r : LineReading}

/-- The number of opening brackets in what has been read so far. -/
def weight (r : LineReading) : Nat :=
  Piece.weightAll r.pieces + tally r.pending + weightBrackets r.brackets

@[simp]
theorem weight_passed (r : LineReading) (source after : List Char) :
    (r.passed source after).weight = r.weight := rfl

@[simp]
theorem weight_passedChar (r : LineReading) (c : Char) : (r.passedChar c).weight = r.weight := rfl

theorem weight_addChar (r : LineReading) (c : Char) :
    (r.addChar c).weight = r.weight + tally [c] := by
  simp only [weight, addChar, tally_cons, tally_nil]
  omega

theorem weight_flush (r : LineReading) : r.flush.weight = r.weight := by
  unfold flush
  split
  · rfl
  · simp only [weight, Piece.weightAll_cons, Piece.weight_text, tally_reverse, tally_nil]
    omega

theorem weight_addPiece (r : LineReading) (p : Piece) :
    (r.addPiece p).weight = r.weight + p.weight := by
  rw [← weight_flush r]
  simp only [weight, addPiece, Piece.weightAll_cons]
  omega

theorem weight_addLeaf (r : LineReading) (i : Inline) :
    (r.addLeaf i).weight = r.weight + i.weight := by
  have hpiece : (r.addPiece (.done i)).weight = r.weight + i.weight := r.weight_addPiece _
  unfold addLeaf
  dsimp only
  split <;> exact hpiece

/-- A bracket that opens a level counts as the bracket that it is. -/
theorem weight_openBracket (r : LineReading) (forImage : Bool) (source : List Char) :
    (r.openBracket forImage source).weight = r.weight + 1 := by
  rw [← weight_flush r]
  simp only [weight, openBracket, weightBrackets_cons, Bracket.weight, Bracket.weight_text,
    Piece.weightAll_nil]
  omega

theorem weight_dropBracket (r : LineReading) : r.dropBracket.weight = r.weight := by
  unfold dropBracket
  split
  · rfl
  · next b outer hbrackets =>
      simp only [weight, hbrackets, weightBrackets_cons, Bracket.weight, Piece.weightAll_append,
        Piece.weightAll_cons]
      omega

theorem weight_dropBrackets (r : LineReading) : r.dropBrackets.weight = r.weight := by
  have hall : ∀ (bs : List Bracket) (ps : List Piece),
      Piece.weightAll (bs.foldl (fun pieces b => pieces ++ b.text :: b.before) ps) =
        Piece.weightAll ps + weightBrackets bs := by
    intro bs
    induction bs with
    | nil => exact fun _ => rfl
    | cons b bs ih =>
        intro ps
        rw [List.foldl_cons, ih, Piece.weightAll_append, Piece.weightAll_cons,
          weightBrackets_cons, Bracket.weight]
        omega
  have hnone : weightBrackets [] = 0 := rfl
  simp only [weight, dropBrackets, hall, hnone]
  omega

/-- A link or an image loses the bracket that opens it. -/
theorem weight_closeLink_le {b : Bracket} {outer : List Bracket}
    (h : r.brackets = b :: outer) (target : Target) :
    (r.closeLink b outer target).weight ≤ r.weight := by
  have hchildren := weight_resolveEmphasis_le r.pieces.reverse
  rw [Piece.weightAll_reverse] at hchildren
  have hinactive : weightBrackets
      (outer.map fun o => if o.forImage then o else { o with active := false }) =
        weightBrackets outer := by
    rw [weightBrackets, List.map_map]
    refine congrArg List.sum (List.map_congr_left fun o _ => ?_)
    rw [Function.comp_apply]
    split <;> rfl
  have hlink : ∀ i : Inline, i.weight = Inline.weightAll (resolveEmphasis r.pieces.reverse) →
      (Piece.done i).weight + Piece.weightAll b.before ≤
        Piece.weightAll r.pieces + b.weight := by
    intro i hi
    rw [Piece.weight, Piece.plain, hi, Bracket.weight]
    omega
  unfold closeLink
  dsimp only
  split
  · have hpiece := hlink (.image target.url target.title _) (by rw [Inline.weight])
    simp only [weight, h, weightBrackets_cons, Piece.weightAll_cons]
    omega
  · have hpiece := hlink (.link target.url target.title _) (by rw [Inline.weight])
    simp only [weight, h, weightBrackets_cons, Piece.weightAll_cons, hinactive]
    omega

theorem weight_finish_le (r : LineReading) : Inline.weightAll r.finish ≤ r.weight := by
  have hresolved := weight_resolveEmphasis_le r.flush.dropBrackets.pieces.reverse
  have hweight : r.flush.dropBrackets.weight = r.weight := by
    rw [weight_dropBrackets, weight_flush]
  rw [Piece.weightAll_reverse] at hresolved
  rw [weight] at hweight
  rw [finish]
  omega

end LineReading

/-! ## Steps -/

theorem weight_closeBracket_le (refs : References) (r : LineReading) (after : List Char) :
    (closeBracket refs r after).1.weight + tally (closeBracket refs r after).2 ≤
      r.weight + tally after := by
  have hmark : (Piece.done (.text [']'])).weight = 0 := Piece.weight_text _
  unfold closeBracket
  dsimp only
  split
  · simp [LineReading.weight_addPiece, LineReading.weight_flush, hmark]
  · next b outer hbrackets =>
      split
      · next target rest htarget =>
          have hrest : rest <:+ after := by
            split at htarget
            · exact linkTarget?_suffix htarget
            · cases htarget
          have hclosed := LineReading.weight_closeLink_le hbrackets target
          rw [LineReading.weight_passedChar, LineReading.weight_flush] at hclosed
          rw [LineReading.weight_passed]
          exact Nat.add_le_add hclosed (tally_le_of_suffix hrest)
      · simp [LineReading.weight_addPiece, LineReading.weight_dropBracket,
          LineReading.weight_flush, hmark]

/-- **A step adds at most the brackets that it takes.** -/
theorem weight_stepInline_le (refs : References) (r : LineReading) (c : Char)
    (rest : List Char) :
    (stepInline refs r c rest).1.weight + tally (stepInline refs r c rest).2 ≤
      r.weight + tally (c :: rest) := by
  unfold stepInline
  split
  · next i after hleaf =>
      have hconserved := leaf?_conserves r hleaf
      dsimp only
      rw [LineReading.weight_passed, LineReading.weight_addLeaf]
      omega
  split
  · next hmark =>
      have hmarks : (Piece.marks c ((rest.takeWhile (· == c)).length + 1)).weight = 0 := by
        rw [Piece.weight, Piece.plain, Inline.weight]
        refine tally_replicate ?_ _
        rintro rfl
        simp at hmark
      have hrest := tally_drop_le (rest.takeWhile (· == c)).length rest
      dsimp only
      rw [LineReading.weight_passedChar, LineReading.weight_addPiece, hmarks, tally_cons]
      omega
  split
  · next hopen =>
      dsimp only
      rw [LineReading.weight_passedChar, LineReading.weight_openBracket, tally_cons, if_pos hopen]
      omega
  split
  · next hclose =>
      rw [tally_cons_of_ne (by rw [hclose]; decide)]
      exact weight_closeBracket_le refs r rest
  split
  · next more =>
      dsimp only
      rw [LineReading.weight_passedChar, LineReading.weight_openBracket,
        tally_cons_of_ne (by decide), tally_cons, if_pos rfl]
      omega
  · dsimp only
    rw [LineReading.weight_addChar, tally_cons c rest, tally_cons c, tally_nil]
    omega

theorem weight_readFrom_le (refs : References) (rounds : Nat) (r : LineReading)
    (cs : List Char) : (readFrom refs rounds r cs).weight ≤ r.weight + tally cs := by
  induction rounds generalizing r cs with
  | zero =>
      cases cs with
      | nil => exact Nat.le_add_right _ _
      | cons c rest => exact Nat.le_add_right _ _
  | succ rounds ih =>
      cases cs with
      | nil => exact Nat.le_add_right _ _
      | cons c rest => exact Nat.le_trans (ih _ _) (weight_stepInline_le refs r c rest)

/-- **Reading a line adds no brackets.** -/
theorem weight_readInline_le (refs : References) (cs : List Char) :
    Inline.weightAll (readInline refs cs) ≤ tally cs := by
  unfold readInline
  split
  · exact Nat.zero_le _
  · have hread := weight_readFrom_le refs cs.length .empty cs
    have hempty : LineReading.empty.weight = 0 := rfl
    rw [hempty, Nat.zero_add] at hread
    exact Nat.le_trans (LineReading.weight_finish_le _) hread

end Livedoc.Markdown
