import Livedoc.Proofs.Markdown.Joined
import Livedoc.Proofs.Markdown.Uncalled

/-!
# What stands before a text

Reading a line takes its pieces from left to right, and what was read before a place changes what
is read from there on in few ways: through the brackets that are open, through the last character,
which decides whether a dot may start a call, and through an anchor of raw HTML.  Where these agree,
two readings go on alike, whatever pieces stand in front (`readFrom_follows`).  So the markup of a
line that starts with some pieces is the markup of the whole level that has these pieces in front
of those of the rest (`LineReading.Follows.finish`).
-/

namespace Livedoc.Markdown

open Livedoc.Call Livedoc.Text

/-! ## Levels with pieces in front -/

namespace LineReading

variable {front ps qs ps' qs' : List Piece} {bs cs : List Bracket}

/-- The levels of two readings, given by their open brackets and the pieces of the innermost one:
they differ in how texts are divided into pieces, and the outermost level of the second has more
pieces in front. -/
inductive SameLevels (front : List Piece) :
    List Bracket → List Piece → List Bracket → List Piece → Prop
  | outermost {ps qs : List Piece}
      (pieces : Piece.joinTexts qs.reverse = Piece.joinTexts (front ++ ps.reverse)) :
      SameLevels front [] ps [] qs
  | inner {b c : Bracket} {bs cs : List Bracket} {ps qs : List Piece}
      (pieces : Piece.joinTexts qs.reverse = Piece.joinTexts ps.reverse)
      (bracket : b.forImage = c.forImage ∧ b.active = c.active ∧ b.source = c.source)
      (outer : SameLevels front bs b.before cs c.before) :
      SameLevels front (b :: bs) ps (c :: cs) qs

namespace SameLevels

/-- The same pieces may be added to both, up to how texts are divided. -/
theorem append (h : SameLevels front bs ps cs qs)
    (hnew : Piece.joinTexts qs'.reverse = Piece.joinTexts ps'.reverse) :
    SameLevels front bs (ps' ++ ps) cs (qs' ++ qs) := by
  cases h with
  | outermost hpieces =>
      refine .outermost ?_
      rw [List.reverse_append, List.reverse_append, ← List.append_assoc]
      exact Piece.joinTexts_append hpieces hnew
  | inner hpieces hbracket houter =>
      refine .inner ?_ hbracket houter
      rw [List.reverse_append, List.reverse_append]
      exact Piece.joinTexts_append hpieces hnew

/-- The same piece may be added to both. -/
theorem cons (h : SameLevels front bs ps cs qs) (p : Piece) :
    SameLevels front bs (p :: ps) cs (p :: qs) := by
  rw [← List.singleton_append, ← List.singleton_append]
  exact h.append rfl

/-- How texts are divided into pieces does not matter. -/
theorem congr (h : SameLevels front bs ps cs qs)
    (hps : Piece.joinTexts ps'.reverse = Piece.joinTexts ps.reverse)
    (hqs : Piece.joinTexts qs'.reverse = Piece.joinTexts qs.reverse) :
    SameLevels front bs ps' cs qs' := by
  cases h with
  | outermost hpieces =>
      exact .outermost (hqs.trans (hpieces.trans (Piece.joinTexts_append_right hps.symm front)))
  | inner hpieces hbracket houter =>
      exact .inner (hqs.trans (hpieces.trans hps.symm)) hbracket houter

/-- A bracket as it is around a link: it may open no other one. -/
private def around (o : Bracket) : Bracket := if o.forImage then o else { o with active := false }

private theorem before_around (o : Bracket) : (around o).before = o.before := by
  unfold around
  split <;> rfl

/-- A link makes the brackets around it text in both. -/
private theorem map_around (h : SameLevels front bs ps cs qs) :
    SameLevels front (bs.map around) ps (cs.map around) qs := by
  induction h with
  | outermost hpieces => exact .outermost hpieces
  | @inner b c bs cs ps qs hpieces hbracket _ ih =>
      refine .inner hpieces ?_ ?_
      · obtain ⟨himage, hactive, hsource⟩ := hbracket
        unfold around
        rw [← himage]
        split
        · exact ⟨himage, hactive, hsource⟩
        · exact ⟨rfl, rfl, hsource⟩
      · rw [before_around, before_around]
        exact ih

/-- The innermost bracket becomes text in both. -/
theorem drop {b c : Bracket} (h : SameLevels front (b :: bs) ps (c :: cs) qs) :
    SameLevels front bs (ps ++ b.text :: b.before) cs (qs ++ c.text :: c.before) := by
  cases h with
  | inner hpieces hbracket houter =>
      have htext : b.text = c.text := by rw [Bracket.text, Bracket.text, hbracket.1]
      rw [List.append_cons ps, List.append_cons qs, ← htext]
      refine houter.append ?_
      rw [List.reverse_append, List.reverse_append]
      exact Piece.joinTexts_append_right hpieces _

/-- All open brackets become text in both. -/
theorem foldl_text (h : SameLevels front bs ps cs qs) :
    Piece.joinTexts (cs.foldl (fun pieces b => pieces ++ b.text :: b.before) qs).reverse =
      Piece.joinTexts
        (front ++ (bs.foldl (fun pieces b => pieces ++ b.text :: b.before) ps).reverse) := by
  induction bs generalizing cs ps qs with
  | nil =>
      cases h with
      | outermost hpieces => exact hpieces
  | cons b bs ih =>
      cases cs with
      | nil => cases h
      | cons c cs =>
          rw [List.foldl_cons, List.foldl_cons]
          exact ih h.drop

end SameLevels

/-- Two readings of the same rest of a line: they go on alike, and the second has more pieces in
front. -/
structure Follows (front : List Piece) (r s : LineReading) : Prop where
  levels : SameLevels front r.brackets r.flush.pieces s.brackets s.flush.pieces
  calls : allowsCall r.previous = allowsCall s.previous
  inAnchor : r.inAnchor = s.inAnchor

theorem previous_flush (r : LineReading) : r.flush.previous = r.previous := by
  unfold flush
  split <;> rfl

theorem inAnchor_flush (r : LineReading) : r.flush.inAnchor = r.inAnchor := by
  unfold flush
  split <;> rfl

theorem pieces_flush_with (r : LineReading) (previous : Option Char) (inAnchor : Bool) :
    { r with previous, inAnchor : LineReading }.flush.pieces = r.flush.pieces := by
  unfold flush
  dsimp only
  split <;> rfl

/-- One more character is one more text. -/
theorem joinTexts_addChar (r : LineReading) (c : Char) :
    Piece.joinTexts (r.addChar c).flush.pieces.reverse =
      Piece.joinTexts (.done (.text [c]) :: r.flush.pieces).reverse := by
  have hafter : (r.addChar c).flush.pieces = .done (.text (r.pending.reverse ++ [c])) :: r.pieces := by
    rw [← List.reverse_cons]
    rfl
  rw [hafter]
  cases hpending : r.pending with
  | nil =>
      rw [flush_eq_self hpending]
      rfl
  | cons d ds =>
      have hbefore : r.flush.pieces = .done (.text (d :: ds).reverse) :: r.pieces := by
        rw [flush, hpending]
        rfl
      rw [hbefore]
      simp only [List.reverse_cons, List.append_assoc]
      refine Piece.joinTexts_append_right ?_ _
      simp [Piece.joinTexts]

namespace Follows

variable {r s : LineReading}

theorem flush (h : Follows front r s) : Follows front r.flush s.flush where
  levels := by
    rw [flush_eq_self r.pending_flush, flush_eq_self s.pending_flush, brackets_flush, brackets_flush]
    exact h.levels
  calls := by
    rw [previous_flush, previous_flush]
    exact h.calls
  inAnchor := by
    rw [inAnchor_flush, inAnchor_flush]
    exact h.inAnchor

/-- Where the readings stand afterwards. -/
theorem moved (h : Follows front r s) (previous : Option Char) :
    Follows front { r with previous } { s with previous } where
  levels := by
    have hr := pieces_flush_with r previous r.inAnchor
    have hs := pieces_flush_with s previous s.inAnchor
    rw [hr, hs]
    exact h.levels
  calls := rfl
  inAnchor := h.inAnchor

theorem addPiece (h : Follows front r s) (p : Piece) :
    Follows front (r.addPiece p) (s.addPiece p) where
  levels := by
    have hr : (r.addPiece p).pending = [] := r.pending_flush
    have hs : (s.addPiece p).pending = [] := s.pending_flush
    rw [flush_eq_self hr, flush_eq_self hs]
    have hadded := h.levels.cons p
    rw [← brackets_flush r, ← brackets_flush s] at hadded
    exact hadded
  calls := h.flush.calls
  inAnchor := h.flush.inAnchor

theorem addChar (h : Follows front r s) (c : Char) : Follows front (r.addChar c) (s.addChar c) where
  levels :=
    (h.levels.cons (.done (.text [c]))).congr (joinTexts_addChar r c) (joinTexts_addChar s c)
  calls := rfl
  inAnchor := h.inAnchor

theorem openBracket (h : Follows front r s) (forImage : Bool) (source : List Char) :
    Follows front (r.openBracket forImage source) (s.openBracket forImage source) where
  levels := by
    have hr : (r.openBracket forImage source).pending = [] := r.pending_flush
    have hs : (s.openBracket forImage source).pending = [] := s.pending_flush
    have houter := h.levels
    rw [← brackets_flush r, ← brackets_flush s] at houter
    rw [flush_eq_self hr, flush_eq_self hs]
    refine .inner rfl ⟨rfl, ?_, rfl⟩ houter
    rw [h.flush.inAnchor]
  calls := h.flush.calls
  inAnchor := h.flush.inAnchor

theorem dropBracket (h : Follows front r s) (hr : r.pending = []) (hs : s.pending = []) :
    Follows front r.dropBracket s.dropBracket := by
  obtain ⟨pieces, pending, brackets, previous, inAnchor⟩ := r
  obtain ⟨pieces', pending', brackets', previous', inAnchor'⟩ := s
  obtain rfl : pending = [] := hr
  obtain rfl : pending' = [] := hs
  have hlevels : SameLevels front brackets pieces brackets' pieces' := h.levels
  cases brackets with
  | nil =>
      cases brackets' with
      | nil => exact h
      | cons => cases hlevels
  | cons b bs =>
      cases brackets' with
      | nil => cases hlevels
      | cons c cs => exact ⟨hlevels.drop, h.calls, h.inAnchor⟩

/-- The content of a link does not depend on how its texts are divided. -/
theorem closeLink (h : Follows front r s) (hr : r.pending = []) (hs : s.pending = [])
    {b c : Bracket} {bs cs : List Bracket} (hb : r.brackets = b :: bs) (hc : s.brackets = c :: cs)
    (target : Target) : Follows front (r.closeLink b bs target) (s.closeLink c cs target) := by
  obtain ⟨pieces, pending, brackets, previous, inAnchor⟩ := r
  obtain ⟨pieces', pending', brackets', previous', inAnchor'⟩ := s
  obtain rfl : pending = [] := hr
  obtain rfl : pending' = [] := hs
  obtain rfl : brackets = b :: bs := hb
  obtain rfl : brackets' = c :: cs := hc
  have hlevels : SameLevels front (b :: bs) pieces (c :: cs) pieces' := h.levels
  cases hlevels with
  | inner hpieces hbracket houter =>
      unfold LineReading.closeLink
      dsimp only
      rw [resolveEmphasis_congr hpieces, ← hbracket.1]
      split
      · exact ⟨houter.cons _, h.calls, h.inAnchor⟩
      · exact ⟨(houter.cons _).map_around, h.calls, h.inAnchor⟩

theorem closeBracket (h : Follows front r s) (refs : References) (after : List Char) :
    Follows front (Markdown.closeBracket refs r after).1 (Markdown.closeBracket refs s after).1 ∧
      (Markdown.closeBracket refs r after).2 = (Markdown.closeBracket refs s after).2 := by
  have hpassed : Follows front (r.flush.passedChar ']') (s.flush.passedChar ']') :=
    h.flush.moved (some ']')
  have hr : (r.flush.passedChar ']').pending = [] := r.pending_flush
  have hs : (s.flush.passedChar ']').pending = [] := s.pending_flush
  unfold Markdown.closeBracket
  dsimp only
  generalize r.flush.passedChar ']' = r' at hpassed hr
  generalize s.flush.passedChar ']' = s' at hpassed hs
  have hlevels := hpassed.levels
  cases hb : r'.brackets with
  | nil =>
      cases hc : s'.brackets with
      | nil => exact ⟨hpassed.addPiece _, rfl⟩
      | cons c cs =>
          rw [hb, hc] at hlevels
          cases hlevels
  | cons b bs =>
      cases hc : s'.brackets with
      | nil =>
          rw [hb, hc] at hlevels
          cases hlevels
      | cons c cs =>
          have hdropped := (hpassed.dropBracket hr hs).addPiece (.done (.text [']']))
          have hlinked := hpassed.closeLink hr hs hb hc
          rw [hb, hc] at hlevels
          cases hlevels with
          | inner _ hbracket _ =>
              obtain ⟨-, hactive, hsource⟩ := hbracket
              dsimp only
              rw [← hactive, ← hsource]
              split
              · next target rest _ => exact ⟨(hlinked target).moved _, rfl⟩
              · exact ⟨hdropped, rfl⟩

/-- Markup without inner markup is found where it stands. -/
theorem leaf? (h : Follows front r s) (source : List Char) :
    Markdown.leaf? r source = Markdown.leaf? s source := by
  have hcall : callSpan? r.previous source = callSpan? s.previous source := by
    rw [callSpan?, callSpan?, h.calls]
  unfold Markdown.leaf?
  split <;> first | rfl | exact hcall | rw [h.inAnchor]

theorem addLeaf (h : Follows front r s) (i : Inline) :
    Follows front (r.addLeaf i) (s.addLeaf i) := by
  have hadded := h.addPiece (.done i)
  unfold LineReading.addLeaf
  dsimp only
  split
  · next raw =>
      refine ⟨?_, hadded.calls, ?_⟩
      · have hr := pieces_flush_with (r.addPiece (.done (.html raw)))
        have hs := pieces_flush_with (s.addPiece (.done (.html raw)))
        dsimp only
        rw [hr, hs]
        exact hadded.levels
      · rw [hadded.inAnchor]
  · exact hadded

/-- **A step does not look at what stands in front.** -/
theorem stepInline (h : Follows front r s) (refs : References) (c : Char) (rest : List Char) :
    Follows front (Markdown.stepInline refs r c rest).1 (Markdown.stepInline refs s c rest).1 ∧
      (Markdown.stepInline refs r c rest).2 = (Markdown.stepInline refs s c rest).2 := by
  unfold Markdown.stepInline
  rw [← h.leaf? (c :: rest)]
  split
  · next i after _ => exact ⟨(h.addLeaf i).moved _, rfl⟩
  · split
    · exact ⟨(h.addPiece _).moved (some c), rfl⟩
    · split
      · exact ⟨(h.openBracket false rest).moved (some c), rfl⟩
      · split
        · exact h.closeBracket refs rest
        · split
          · next more _ _ _ _ => exact ⟨(h.openBracket true more).moved (some '['), rfl⟩
          · exact ⟨h.addChar c, rfl⟩

/-- **The markup of a line with pieces in front** is that of the whole level. -/
theorem finish (h : Follows front r s) :
    s.finish = resolveEmphasis (front ++ r.flush.dropBrackets.pieces.reverse) := by
  have hlevels := h.levels
  rw [← brackets_flush r, ← brackets_flush s] at hlevels
  exact resolveEmphasis_congr hlevels.foldl_text

end Follows
end LineReading

/-! ## Steps take characters -/

/-- A call takes its dot at least. -/
theorem callSpan?_eq_some {previous : Option Char} {cs after : List Char} {i : Inline}
    (h : callSpan? previous cs = some (i, after)) :
    ∃ head rest, cs = '.' :: rest ∧ 0 < head.stop ∧ i = .call head (cs.take head.stop) ∧
      after = cs.drop head.stop := by
  unfold callSpan? at h
  split at h
  · obtain ⟨head, hhead, heq⟩ := Option.map_eq_some_iff.mp h
    rw [Prod.mk.injEq] at heq
    obtain ⟨last, hstands, hstop⟩ := scan_eq_some_iff.mp (show scan cs 0 = some head from hhead)
    obtain ⟨name, rest, hdot, -⟩ := exists_of_scan_eq_some (show scan cs 0 = some head from hhead)
    have hlast := hstands.groups.le
    have hname : 0 < head.nameStop := by
      rw [Head.nameStop]
      omega
    refine ⟨head, _, hdot, ?_, heq.1.symm, heq.2.symm⟩
    split at hstop <;> omega
  · cases h

/-- A step takes at least one character. -/
theorem length_stepInline (refs : References) (r : LineReading) (c : Char) (rest : List Char) :
    (stepInline refs r c rest).2.length ≤ rest.length := by
  cases hcall : callSpan? r.previous (c :: rest) with
  | none =>
      obtain ⟨part, hpart, hne, -⟩ := LineReading.stepInline_takes refs hcall
      have htotal := congrArg List.length hpart
      have hpos := List.length_pos_iff.mpr hne
      simp only [List.length_append, List.length_cons] at htotal
      omega
  | some found =>
      obtain ⟨head, rest', hdot, hstop, -, hafter⟩ := callSpan?_eq_some hcall
      obtain ⟨rfl, rfl⟩ := List.cons.inj hdot
      have hleaf : leaf? r ('.' :: rest) = some found := hcall
      unfold stepInline
      rw [hleaf]
      dsimp only
      rw [hafter, List.length_drop, List.length_cons]
      omega

/-- **Two readings go on alike** over the same text, whatever stands in front, if they take as many
rounds as it has characters. -/
theorem readFrom_follows {front : List Piece} (refs : References) {rounds rounds' : Nat}
    {r s : LineReading} (h : LineReading.Follows front r s) {cs : List Char}
    (hrounds : cs.length ≤ rounds) (hrounds' : cs.length ≤ rounds') :
    LineReading.Follows front (readFrom refs rounds r cs) (readFrom refs rounds' s cs) := by
  induction rounds generalizing r s cs rounds' with
  | zero =>
      obtain rfl := List.length_eq_zero_iff.mp (Nat.le_zero.mp hrounds)
      rw [readFrom, readFrom]
      exact h
  | succ rounds ih =>
      cases cs with
      | nil =>
          rw [readFrom, readFrom]
          exact h
      | cons c rest =>
          cases rounds' with
          | zero => cases hrounds'
          | succ rounds' =>
              obtain ⟨hstep, hafter⟩ := h.stepInline refs c rest
              have htaken := length_stepInline refs r c rest
              rw [readFrom, readFrom]
              dsimp only
              rw [← hafter]
              refine ih hstep ?_ ?_
              · exact htaken.trans (Nat.le_of_succ_le_succ hrounds)
              · exact htaken.trans (Nat.le_of_succ_le_succ hrounds')

end Livedoc.Markdown
