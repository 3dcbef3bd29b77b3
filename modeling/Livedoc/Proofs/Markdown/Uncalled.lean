import Livedoc.Proofs.Call.Grammar
import Livedoc.Proofs.Markdown.ReadOff

/-!
# Lines without calls

A call or a reference starts with a dot before a name, which follows neither a word nor another dot.
Where no dot stands so (`Uncalled`), reading a line takes the pieces off it one after the other, and
what has been read of it shows what was taken, or less (`LineReading.stepInline_takes`); so the whole
of it shows the line, or less (`readInline_reduces`).  If the line has no characters that start markup
either, it shows exactly the line (`shownAll_readInline`).
-/

namespace Livedoc.Markdown

open Livedoc.Call Livedoc.Text

variable {cs after part : List Char}

/-! ## Levels -/

namespace LineReading

variable {r : LineReading}

/-- The pieces of several levels, each bracket being a text. -/
def flat : List Bracket → List Piece → List Inline
  | [], pieces => pieces.reverse.map Piece.plain
  | b :: outer, pieces => flat outer b.before ++ b.text.plain :: pieces.reverse.map Piece.plain

/-- All that has been read of a line, without regard to emphasis and brackets. -/
def soFar (r : LineReading) : List Inline := flat r.brackets r.flush.pieces

theorem flat_cons (bs : List Bracket) (p : Piece) (ps : List Piece) :
    flat bs (p :: ps) = flat bs ps ++ [p.plain] := by
  cases bs <;> simp [flat]

theorem flat_append (bs : List Bracket) (ps qs : List Piece) :
    flat bs (ps ++ qs) = flat bs qs ++ ps.reverse.map Piece.plain := by
  cases bs <;> simp [flat]

/-- Whether brackets may open links does not matter for what was read. -/
theorem flat_map {f : Bracket → Bracket} (hf : ∀ b, (f b).before = b.before ∧ (f b).text = b.text)
    (bs : List Bracket) (ps : List Piece) : flat (bs.map f) ps = flat bs ps := by
  induction bs generalizing ps with
  | nil => rfl
  | cons b bs ih => rw [List.map_cons, flat, flat, ih, (hf b).1, (hf b).2]

theorem flush_eq_self (h : r.pending = []) : r.flush = r := by
  rw [flush, h]
  rfl

theorem brackets_flush (r : LineReading) : r.flush.brackets = r.brackets := by
  unfold flush
  split <;> rfl

theorem pending_flush (r : LineReading) : r.flush.pending = [] := by
  unfold flush
  split
  · next hempty => exact List.isEmpty_iff.mp hempty
  · rfl

theorem soFar_eq (h : r.pending = []) : r.soFar = flat r.brackets r.pieces := by
  rw [soFar, flush_eq_self h]

/-- Where the reading stands does not matter for what was read. -/
theorem soFar_with (r : LineReading) (previous : Option Char) (inAnchor : Bool) :
    { r with previous, inAnchor : LineReading }.soFar = r.soFar := by
  unfold soFar flush
  dsimp only
  split <;> rfl

theorem previous_addPiece (r : LineReading) (p : Piece) : (r.addPiece p).previous = r.previous := by
  unfold addPiece flush
  dsimp only
  split <;> rfl

theorem previous_dropBracket (r : LineReading) : r.dropBracket.previous = r.previous := by
  unfold dropBracket
  split <;> rfl

theorem previous_passed (r : LineReading) (part after : List Char) :
    (r.passed (part ++ after) after).previous = part.getLast? := by
  simp [passed]

theorem soFar_flush (r : LineReading) : r.flush.soFar = r.soFar := by
  rw [soFar_eq r.pending_flush, soFar, brackets_flush]

theorem soFar_addPiece (r : LineReading) (p : Piece) : (r.addPiece p).soFar = r.soFar ++ [p.plain] := by
  have hpending : (r.addPiece p).pending = [] := r.pending_flush
  rw [soFar_eq hpending, soFar, ← flat_cons, ← brackets_flush r]
  rfl

theorem soFar_openBracket (r : LineReading) (forImage : Bool) (source : List Char) :
    (r.openBracket forImage source).soFar =
      r.soFar ++ [.text (if forImage then ['!', '['] else ['['])] := by
  have hpending : (r.openBracket forImage source).pending = [] := r.pending_flush
  rw [soFar_eq hpending, soFar, ← brackets_flush r]
  rfl

theorem addChar_keeps (r : LineReading) (c : Char) :
    Inline.Keeps (r.soFar ++ [.text [c]]) (r.addChar c).soFar := by
  have hafter : (r.addChar c).soFar =
      flat r.brackets r.pieces ++ [.text (r.pending.reverse ++ [c])] := by
    rw [← List.reverse_cons]
    exact flat_cons r.brackets (.done (.text (c :: r.pending).reverse)) r.pieces
  rw [hafter]
  cases hpending : r.pending with
  | nil =>
      rw [soFar_eq hpending]
      exact .refl _
  | cons d ds =>
      have hbefore : r.soFar = flat r.brackets r.pieces ++ [.text (d :: ds).reverse] := by
        rw [soFar, flush, hpending]
        exact flat_cons r.brackets (.done (.text (d :: ds).reverse)) r.pieces
      rw [hbefore, List.append_assoc]
      exact .append_left _ (.joined _ _)

theorem soFar_dropBracket (hpending : r.pending = []) : r.dropBracket.soFar = r.soFar := by
  obtain ⟨pieces, pending, brackets, previous, inAnchor⟩ := r
  obtain rfl : pending = [] := hpending
  cases brackets with
  | nil => rfl
  | cons b outer =>
      show flat outer (pieces ++ b.text :: b.before) = flat (b :: outer) pieces
      rw [flat_append, flat_cons, flat]
      simp

theorem flat_dropBrackets (r : LineReading) :
    r.dropBrackets.pieces.reverse.map Piece.plain = flat r.brackets r.pieces := by
  have hall (bs : List Bracket) (ps : List Piece) :
      (bs.foldl (fun pieces b => pieces ++ b.text :: b.before) ps).reverse.map Piece.plain =
        flat bs ps := by
    induction bs generalizing ps with
    | nil => rfl
    | cons b bs ih =>
        rw [List.foldl_cons, ih, flat_append, flat_cons, flat]
        simp
  exact hall r.brackets r.pieces

/-- A link shows less than the brackets that it stands in, and what stands between them. -/
theorem closeLink_reduces {b : Bracket} {outer : List Bracket} (hb : r.brackets = b :: outer)
    (hpending : r.pending = []) (target : Target) :
    Inline.Reduces r.soFar (r.closeLink b outer target).soFar := by
  have hchildren := resolveEmphasis_reduces r.pieces.reverse
  -- The content follows the bracket, which shows something; the link does not show the bracket.
  have hless (i : Inline) (hshown : i.shown = Inline.shownAll (resolveEmphasis r.pieces.reverse))
      (hcall : i.hasCall = Inline.anyCall (resolveEmphasis r.pieces.reverse)) :
      Inline.Reduces r.soFar (flat outer b.before ++ [i]) := by
    rw [soFar_eq hpending, hb, flat]
    refine .append_left _ (.of_length_lt ?_ ?_)
    · rw [Inline.anyCall, Inline.anyCall, Inline.anyCall, hcall, Bool.or_false, Bool.or_eq_false_iff]
      exact fun h => hchildren.calls h.2
    · have hbracket : 0 < b.text.plain.shown.length := by
        unfold Bracket.text
        split <;> decide
      have hle := hchildren.length_le
      simp only [Inline.shownAll, hshown, List.length_append, List.length_nil]
      omega
  obtain ⟨pieces, pending, brackets, previous, inAnchor⟩ := r
  obtain rfl : pending = [] := hpending
  unfold closeLink
  dsimp only
  split
  · have hafter := flat_cons outer
      (.done (.image target.url target.title (resolveEmphasis pieces.reverse))) b.before
    exact (hless _ rfl rfl).trans (.of_eq hafter.symm)
  · have hafter := flat_cons outer
      (.done (.link target.url target.title (resolveEmphasis pieces.reverse))) b.before
    refine (hless _ rfl rfl).trans (.of_eq (hafter.symm.trans (flat_map ?_ _ _).symm))
    intro o
    split <;> exact ⟨rfl, rfl⟩

/-! ## Steps -/

/-- A step takes the start of a source.  After it, what was read before and what the step took are
shown, or less. -/
def Takes (r : LineReading) (source : List Char) (step : LineReading × List Char) : Prop :=
  ∃ part, source = part ++ step.2 ∧ part ≠ [] ∧ step.1.previous = part.getLast? ∧
    Inline.Reduces (r.soFar ++ [.text part]) step.1.soFar

/-- A closing bracket makes a link of what was read, or is a text. -/
theorem closeBracket_takes (refs : References) (r : LineReading) (rest : List Char) :
    r.Takes (']' :: rest) (closeBracket refs r rest) := by
  have hpending : (r.flush.passedChar ']').pending = [] := r.pending_flush
  have hsoFar : (r.flush.passedChar ']').soFar = r.soFar :=
    (r.flush.soFar_with _ _).trans r.soFar_flush
  unfold Markdown.closeBracket
  dsimp only
  split
  · refine ⟨[']'], rfl, by simp, previous_addPiece _ _, ?_⟩
    rw [soFar_addPiece, hsoFar]
    exact .refl _
  · next b outer hbrackets =>
      split
      · next target rest' htarget =>
          have hrest : rest' <:+ rest := by
            split at htarget
            · exact linkTarget?_suffix htarget
            · cases htarget
          obtain ⟨part, rfl⟩ := hrest
          refine ⟨']' :: part, rfl, by simp, previous_passed _ (']' :: part) rest', ?_⟩
          have hclosed := closeLink_reduces hbrackets hpending target
          rw [hsoFar] at hclosed
          refine (Inline.Reduces.append_nil _ _).trans (hclosed.trans (.of_eq ?_))
          exact (soFar_with _ _ _).symm
      · refine ⟨[']'], rfl, by simp, ?_, ?_⟩
        · rw [previous_addPiece, previous_dropBracket]
          rfl
        · rw [soFar_addPiece, soFar_dropBracket hpending, hsoFar]
          exact .refl _

theorem soFar_addLeaf (r : LineReading) (i : Inline) : (r.addLeaf i).soFar = r.soFar ++ [i] := by
  rw [← show (r.addPiece (.done i)).soFar = r.soFar ++ [i] from soFar_addPiece r (.done i)]
  unfold addLeaf
  split
  · exact soFar_with _ _ _
  · rfl

/-- **A step shows no more than it takes**, if no call stands where it starts. -/
theorem stepInline_takes (refs : References) {c : Char} {rest : List Char}
    (hcall : callSpan? r.previous (c :: rest) = none) :
    r.Takes (c :: rest) (stepInline refs r c rest) := by
  unfold stepInline
  split
  · next i after hleaf =>
      obtain ⟨part, hpart, hread⟩ := leaf?_shows hcall hleaf
      refine ⟨part, hpart, hread.nonempty, by rw [hpart, previous_passed], ?_⟩
      refine (Inline.Reduces.append_left _ hread.reduces).trans (.of_eq ?_)
      exact (soFar_addLeaf r i).symm.trans (soFar_with _ _ _).symm
  · split
    · have hmarks := takeWhile_eq_replicate c rest
      have hrest : rest =
          rest.takeWhile (· == c) ++ rest.drop (rest.takeWhile (· == c)).length :=
        eq_takeWhile_append_of_drop rfl
      refine ⟨List.replicate ((rest.takeWhile (· == c)).length + 1) c, ?_, by simp, ?_, ?_⟩
      · rw [List.replicate_succ, ← hmarks]
        exact congrArg (c :: ·) hrest
      · simp [passedChar, List.getLast?_replicate]
      · refine .of_eq (.symm ?_)
        exact (soFar_with _ _ _).trans (soFar_addPiece r (.marks c _))
    · split
      · next hc =>
          subst hc
          refine ⟨['['], rfl, by simp, rfl, .of_eq (.symm ?_)⟩
          exact (soFar_with _ _ _).trans (soFar_openBracket r false rest)
      · split
        · next hc =>
            subst hc
            exact closeBracket_takes refs r rest
        · split
          · next more _ _ _ _ =>
              refine ⟨['!', '['], rfl, by simp, rfl, .of_eq (.symm ?_)⟩
              exact (soFar_with _ _ _).trans (soFar_openBracket r true more)
          · exact ⟨[c], rfl, by simp, rfl, (addChar_keeps r c).reduces⟩

end LineReading

/-! ## Lines without calls -/

/-- No call and no reference starts in a text after `previous`: where a dot stands before a name, it
directly follows a word or another dot. -/
def Uncalled (previous : Option Char) (cs : List Char) : Prop :=
  ∀ front c rest, cs = front ++ '.' :: c :: rest → isNameStart c = true →
    allowsCall (front.getLast?.or previous) = false

theorem uncalled_cons {previous : Option Char} {c : Char} {rest : List Char} :
    Uncalled previous (c :: rest) ↔
      ¬(c = '.' ∧ rest.head?.any isNameStart = true ∧ allowsCall previous = true) ∧
        Uncalled (some c) rest := by
  -- The last character before a dot is one of those before it, or `c`, or stands before them all.
  have hlast (front : List Char) : (c :: front).getLast?.or previous = front.getLast?.or (some c) := by
    rw [List.getLast?_cons]
    cases front.getLast? <;> rfl
  constructor
  · intro h
    refine ⟨?_, fun front d after hrest hd => ?_⟩
    · rintro ⟨rfl, hname, hallows⟩
      obtain ⟨d, hd, hname⟩ := (Option.any_eq_true _ _).mp hname
      obtain ⟨after, rfl⟩ := List.head?_eq_some_iff.mp hd
      have hrefused := h [] d after rfl hname
      rw [List.getLast?_nil, Option.none_or, hallows] at hrefused
      cases hrefused
    · rw [← hlast]
      exact h (c :: front) d after (congrArg (c :: ·) hrest) hd
  · rintro ⟨hfirst, hrest⟩ front d after hcs hd
    cases front with
    | nil =>
        obtain ⟨rfl, rfl⟩ := List.cons.inj hcs
        rw [List.getLast?_nil, Option.none_or, ← Bool.not_eq_true]
        exact fun hallows => hfirst ⟨rfl, by simpa using hd, hallows⟩
    | cons e front =>
        obtain ⟨rfl, htail⟩ := List.cons.inj hcs
        rw [hlast]
        exact hrest front d after htail hd

/-- Whether a text is without calls can be found out character by character. -/
instance decidableUncalled : (previous : Option Char) → (cs : List Char) →
    Decidable (Uncalled previous cs)
  | _, [] => .isTrue fun front c rest h => by simp at h
  | previous, c :: rest =>
    have := decidableUncalled (some c) rest
    decidable_of_iff _ uncalled_cons.symm

theorem Uncalled.callSpan?_eq_none {previous : Option Char} (h : Uncalled previous cs) :
    callSpan? previous cs = none := by
  unfold callSpan?
  split
  · next hallows =>
      have hscan : scan cs 0 = none := by
        rw [scan_eq_none_iff]
        rintro ⟨c, rest, hcs, hc⟩
        have hrefused := h [] c rest hcs hc
        rw [List.getLast?_nil, Option.none_or, hallows] at hrefused
        cases hrefused
      rw [Option.map_eq_none_iff]
      exact hscan
  · rfl

/-- What follows some characters is without calls after the last one of them. -/
theorem Uncalled.append {previous : Option Char} (h : Uncalled previous (part ++ after))
    (hpart : part ≠ []) : Uncalled part.getLast? after := by
  intro front c rest hafter hc
  have hcall := h (part ++ front) c rest (by rw [hafter, List.append_assoc]) hc
  have hlast := List.getLast?_eq_some_getLast hpart
  rw [List.getLast?_append, hlast, Option.or_assoc, Option.some_or] at hcall
  rw [hlast]
  exact hcall

theorem readFrom_reduces (refs : References) {rounds : Nat} {r : LineReading}
    (h : Uncalled r.previous cs) (hrounds : cs.length ≤ rounds) :
    Inline.Reduces (r.soFar ++ [.text cs]) (readFrom refs rounds r cs).soFar := by
  induction rounds generalizing r cs with
  | zero =>
      obtain rfl := List.length_eq_zero_iff.mp (Nat.le_zero.mp hrounds)
      exact .append_nil _ _
  | succ rounds ih =>
      cases cs with
      | nil => exact .append_nil _ _
      | cons c rest =>
          obtain ⟨part, hpart, hne, hprevious, hstep⟩ :=
            LineReading.stepInline_takes refs h.callSpan?_eq_none
          rw [readFrom]
          generalize stepInline refs r c rest = step at hpart hprevious hstep ⊢
          have hlength : step.2.length ≤ rounds := by
            have htotal := congrArg List.length hpart
            have hpos := List.length_pos_iff.mpr hne
            simp only [List.length_append, List.length_cons] at htotal hrounds
            omega
          rw [hpart] at h ⊢
          have hrest := ih (r := step.1) (hprevious ▸ h.append hne) hlength
          -- What the step takes is a text of its own.
          have hdivided := (Inline.Keeps.divided part step.2).reduces
          refine (Inline.Reduces.append_left _ hdivided).trans ?_
          rw [← List.singleton_append, ← List.append_assoc]
          exact (hstep.append (.refl _)).trans hrest

/-- **The markup of a text without calls shows the text, or less of it.** -/
theorem readInline_reduces (refs : References) (h : Uncalled none cs) :
    Inline.Reduces [.text cs] (readInline refs cs) := by
  unfold readInline
  split
  · next hempty =>
      rw [List.isEmpty_iff.mp hempty]
      exact .refl _
  · have huncalled : Uncalled LineReading.empty.previous cs := h
    have hread := readFrom_reduces refs huncalled (Nat.le_refl cs.length)
    refine Inline.Reduces.trans hread ?_
    have hfinish := resolveEmphasis_reduces
      (readFrom refs cs.length .empty cs).flush.dropBrackets.pieces.reverse
    rwa [LineReading.flat_dropBrackets, LineReading.brackets_flush] at hfinish

/-! ## Lines without markup -/

/-- A character that markup starts with. -/
def startsMarkup (c : Char) : Bool := "\\$\x60*_[<\n".toList.contains c

/-- No leaf is read where no markup starts. -/
theorem leaf?_eq_none {r : LineReading} (hcall : callSpan? r.previous cs = none)
    (hplain : ∀ c ∈ cs, startsMarkup c = false) : leaf? r cs = none := by
  have hno {c : Char} (hmarkup : startsMarkup c = true) : c ∉ cs := fun hc => by
    rw [hplain c hc] at hmarkup
    cases hmarkup
  rw [Option.eq_none_iff_forall_ne_some]
  intro found hfound
  unfold leaf? at hfound
  split at hfound
  · exact hno (c := '\\') (by decide) (by simp)
  · exact hno (c := '$') (by decide) (by simp)
  · exact hno (c := '\x60') (by decide) (by simp)
  · rw [hcall] at hfound
    cases hfound
  · obtain ⟨image, himage, -⟩ := Option.map_eq_some_iff.mp hfound
    exact hno (c := '*') (by decide) (SizedImage.mem_of_take? himage)
  · exact hno (c := '<') (by decide) (by simp)
  · obtain ⟨⟨indent, after⟩, hbreak, -⟩ := Option.map_eq_some_iff.mp hfound
    have hnewline := List.mem_of_mem_head? (afterBreak?_eq_some hbreak).1
    exact hno (c := '\n') (by decide) (List.mem_of_mem_drop hnewline)
  · exact hno (c := '\n') (by decide) (by simp)
  · cases hfound

namespace LineReading

variable {r : LineReading}

/-- Nothing that was read of a line is markup, or may yet be. -/
structure Bare (r : LineReading) : Prop where
  brackets : r.brackets = []
  pieces : ∀ p ∈ r.pieces, p.isMarks = false

theorem Bare.flush (h : r.Bare) : r.flush.Bare := by
  unfold LineReading.flush
  split
  · exact h
  · exact ⟨h.brackets, List.forall_mem_cons.mpr ⟨rfl, h.pieces⟩⟩

theorem Bare.addPiece (h : r.Bare) {p : Piece} (hp : p.isMarks = false) : (r.addPiece p).Bare :=
  ⟨h.flush.brackets, List.forall_mem_cons.mpr ⟨hp, h.flush.pieces⟩⟩

/-- A step takes one character, and shows it. -/
theorem stepInline_keeps (refs : References) {c : Char} {rest : List Char} (hr : r.Bare)
    (hcall : callSpan? r.previous (c :: rest) = none)
    (hplain : ∀ d ∈ c :: rest, startsMarkup d = false) :
    (stepInline refs r c rest).2 = rest ∧ (stepInline refs r c rest).1.Bare ∧
      Inline.Keeps (r.soFar ++ [.text [c]]) (stepInline refs r c rest).1.soFar := by
  have hne {d : Char} (hmarkup : startsMarkup d = true) : d ∉ c :: rest := fun hd => by
    rw [hplain d hd] at hmarkup
    cases hmarkup
  unfold stepInline
  rw [leaf?_eq_none hcall hplain]
  dsimp only
  split
  · next hmark =>
      simp only [Bool.or_eq_true, decide_eq_true_eq] at hmark
      rcases hmark with rfl | rfl
      · exact absurd (by simp) (hne (d := '*') (by decide))
      · exact absurd (by simp) (hne (d := '_') (by decide))
  · split
    · next hc => exact absurd (by simp [hc]) (hne (d := '[') (by decide))
    · split
      · next hc =>
          subst hc
          have hpassed : (r.flush.passedChar ']').Bare := ⟨hr.flush.brackets, hr.flush.pieces⟩
          -- No bracket is open, so a closing one is a text.
          have hclosed : closeBracket refs r rest =
              ((r.flush.passedChar ']').addPiece (.done (.text [']'])), rest) := by
            unfold closeBracket
            dsimp only
            split
            · rfl
            · next hb =>
                rw [hpassed.brackets] at hb
                cases hb
          rw [hclosed]
          refine ⟨rfl, hpassed.addPiece rfl, .of_eq ?_⟩
          rw [soFar_addPiece, ← r.soFar_flush]
          exact congrArg (· ++ _) (r.flush.soFar_with _ _).symm
      · split
        · exact absurd (by simp) (hne (d := '[') (by decide))
        · exact ⟨rfl, ⟨hr.brackets, hr.pieces⟩, addChar_keeps r c⟩

end LineReading

theorem readFrom_keeps (refs : References) {rounds : Nat} {r : LineReading} (hr : r.Bare)
    (h : Uncalled r.previous cs) (hplain : ∀ c ∈ cs, startsMarkup c = false)
    (hrounds : cs.length ≤ rounds) :
    (readFrom refs rounds r cs).Bare ∧
      Inline.Keeps (r.soFar ++ [.text cs]) (readFrom refs rounds r cs).soFar := by
  induction rounds generalizing r cs with
  | zero =>
      obtain rfl := List.length_eq_zero_iff.mp (Nat.le_zero.mp hrounds)
      exact ⟨hr, .append_empty _⟩
  | succ rounds ih =>
      cases cs with
      | nil => exact ⟨hr, .append_empty _⟩
      | cons c rest =>
          have hcall := h.callSpan?_eq_none
          obtain ⟨hafter, hbare, hstep⟩ := LineReading.stepInline_keeps refs hr hcall hplain
          obtain ⟨part, hpart, hne, hprevious, -⟩ := LineReading.stepInline_takes refs hcall
          rw [hafter] at hpart
          obtain rfl : part = [c] := (List.append_cancel_right hpart).symm
          rw [readFrom]
          dsimp only
          rw [hafter]
          have hsplit : Uncalled r.previous ([c] ++ rest) := h
          have huncalled : Uncalled (stepInline refs r c rest).1.previous rest :=
            hprevious ▸ hsplit.append (List.cons_ne_nil c [])
          obtain ⟨hread, hrest⟩ := ih hbare huncalled
            (fun d hd => hplain d (List.mem_cons_of_mem c hd)) (Nat.le_of_succ_le_succ hrounds)
          refine ⟨hread, ?_⟩
          -- What the step takes is a text of its own.
          refine (Inline.Keeps.append_left _ (.divided [c] rest)).trans ?_
          rw [← List.singleton_append, ← List.append_assoc]
          exact (hstep.append (.refl _)).trans hrest

/-- **The markup of a text without calls is the text, if no markup starts in it.** -/
theorem shownAll_readInline (refs : References) (h : Uncalled none cs)
    (hplain : ∀ c ∈ cs, startsMarkup c = false) : Inline.shownAll (readInline refs cs) = cs := by
  unfold readInline
  split
  · next hempty =>
      rw [List.isEmpty_iff.mp hempty]
      rfl
  · have hempty : LineReading.empty.Bare := ⟨rfl, nofun⟩
    obtain ⟨hbare, hread⟩ := readFrom_keeps refs hempty h hplain (Nat.le_refl cs.length)
    have hpieces : ∀ p ∈ (readFrom refs cs.length .empty cs).flush.dropBrackets.pieces.reverse,
        p.isMarks = false := by
      intro p hp
      rw [List.mem_reverse, LineReading.dropBrackets, hbare.flush.brackets] at hp
      exact hbare.flush.pieces p hp
    have hfinish := resolveEmphasis_keeps hpieces
    rw [LineReading.flat_dropBrackets, LineReading.brackets_flush] at hfinish
    have hkept : Inline.Keeps [.text cs] (readFrom refs cs.length .empty cs).finish :=
      hread.trans hfinish
    simpa [Inline.shownAll, Inline.shown] using hkept.shown

end Livedoc.Markdown
