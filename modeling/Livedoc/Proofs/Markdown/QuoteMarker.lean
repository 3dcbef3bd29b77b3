import Livedoc.Proofs.Markdown.Ahead

/-!
# Reading the marker of a quotation

The marker of a typed quotation, such as `[!NOTE]`, stands in brackets, so reading it opens a level
of its own; the closing bracket gives this level up, unless the marker is the label of a link.  After
the marker the line is read as it would be on its own: behind a space its text follows the marker
(`readInline_marker_space`), and behind a line break the break does (`readInline_marker_break`).
-/

namespace Livedoc.Markdown

open Livedoc.Call Livedoc.Text

/-- A marker as it stands in a text. -/
def quoteMarker (name : List Char) : List Char := '[' :: '!' :: (name ++ [']'])

/-- White space is dropped behind a marker, and the marker stays. -/
theorem trimEnd_quoteMarker (before name after : List Char) :
    trimEnd (before ++ quoteMarker name ++ after) = before ++ quoteMarker name ++ trimEnd after := by
  have htext (after : List Char) : before ++ quoteMarker name ++ after =
      (before ++ '[' :: '!' :: name) ++ ']' :: after := by
    simp [quoteMarker]
  rw [htext, trimEnd, dropEndWhile_append_cons (by decide), htext]
  rfl

/-- A text that some pieces of markup are read from, and no piece from no text. -/
def markup (refs : References) (cs : List Char) : List Inline :=
  (readFrom refs cs.length .empty cs).finish

theorem readInline_eq_markup {cs : List Char} (h : cs ≠ []) (refs : References) :
    readInline refs cs = markup refs cs := by
  rw [readInline, if_neg]
  · rfl
  · rwa [List.isEmpty_iff]

/-! ## White space and calls -/

/-- All characters of white space. -/
private def blankChars : List Char :=
  blankRanges.flatMap fun r => (List.range' r.1 (r.2 + 1 - r.1)).map Char.ofNat

private theorem mem_blankChars {c : Char} (h : isBlank c = true) : c ∈ blankChars := by
  obtain ⟨r, hr, hfirst, hlast⟩ := inRanges_iff.mp h
  refine List.mem_flatMap.mpr ⟨r, hr, List.mem_map.mpr ⟨c.toNat, ?_, Char.ofNat_toNat c⟩⟩
  rw [List.mem_range'_1]
  omega

/-- A call may start after white space. -/
theorem allowsCall_blank {c : Char} (h : isBlank c = true) : allowsCall (some c) = true := by
  have hall : (blankChars.all fun d => allowsCall (some d)) = true := by decide +kernel
  exact List.all_eq_true.mp hall c (mem_blankChars h)

/-! ## Letters -/

/-- A letter is text. -/
theorem stepInline_letter (refs : References) (r : LineReading) {c : Char} (hc : c.isAlpha = true)
    (rest : List Char) : stepInline refs r c rest = (r.addChar c, rest) := by
  have hne (d : Char) (hd : d.isAlpha = false) : c ≠ d := by
    rintro rfl
    rw [hc] at hd
    cases hd
  have hleaf : leaf? r (c :: rest) = none := by
    unfold leaf?
    split <;> first
      | rfl
      | next heq => exact absurd (List.cons.inj heq).1 (hne _ (by decide))
  unfold stepInline
  rw [hleaf]
  dsimp only
  rw [if_neg, if_neg (hne _ (by decide)), if_neg (hne _ (by decide))]
  · split
    · exact absurd rfl (hne '!' (by decide))
    · rfl
  · simp [hne '*' (by decide), hne '_' (by decide)]

/-- A reading with some more letters. -/
def LineReading.addChars (r : LineReading) (cs : List Char) : LineReading := cs.foldl addChar r

theorem readFrom_letters (refs : References) {name : List Char} (h : ∀ c ∈ name, c.isAlpha = true)
    (rounds : Nat) (r : LineReading) (rest : List Char) :
    readFrom refs (rounds + name.length) r (name ++ rest) =
      readFrom refs rounds (r.addChars name) rest := by
  induction name generalizing r with
  | nil => rfl
  | cons c name ih =>
      rw [List.forall_mem_cons] at h
      rw [List.length_cons, ← Nat.add_assoc, List.cons_append, readFrom,
        stepInline_letter refs r h.1]
      exact ih h.2 (r.addChar c)

theorem LineReading.pending_addChars (r : LineReading) (cs : List Char) :
    (r.addChars cs).pending = cs.reverse ++ r.pending ∧ (r.addChars cs).pieces = r.pieces ∧
      (r.addChars cs).brackets = r.brackets ∧ (r.addChars cs).inAnchor = r.inAnchor := by
  induction cs generalizing r with
  | nil => exact ⟨rfl, rfl, rfl, rfl⟩
  | cons c cs ih =>
      obtain ⟨hpending, hpieces, hbrackets, hanchor⟩ := ih (r.addChar c)
      refine ⟨?_, hpieces, hbrackets, hanchor⟩
      rw [List.reverse_cons, List.append_assoc]
      exact hpending

/-! ## Markers -/

variable {refs : References} {name : List Char}

/-- What has been read when a marker has been. -/
def afterMarker (name : List Char) : LineReading where
  pieces := [.done (.text [']']), .done (.text ('!' :: name)), .done (.text ['['])]
  pending := []
  brackets := []
  previous := some ']'
  inAnchor := false

/-- The exclamation mark of a marker is text, since a letter follows it. -/
theorem stepInline_exclamation (refs : References) (r : LineReading) {c : Char}
    (hc : c.isAlpha = true) (rest : List Char) :
    stepInline refs r '!' (c :: rest) = (r.addChar '!', c :: rest) := by
  have hne (d : Char) (hd : d.isAlpha = false) : c ≠ d := by
    rintro rfl
    rw [hc] at hd
    cases hd
  have hleaf : leaf? r ('!' :: c :: rest) = none := by
    show sizedImage? ('!' :: c :: rest) = none
    rw [sizedImage?, Option.map_eq_none_iff]
    unfold SizedImage.take?
    split
    · next heq =>
        exact absurd (List.cons.inj (List.cons.inj heq).2).1 (hne _ (by decide))
    · rfl
  unfold stepInline
  rw [hleaf]
  dsimp only
  rw [if_neg (by decide), if_neg (by decide), if_neg (by decide)]
  split
  · next heq => exact absurd (List.cons.inj heq).1 (hne '[' (by decide))
  · rfl

/-- The closing bracket of a marker is text, unless the marker is a label that a link may have. -/
theorem closeBracket_marker {r : LineReading} {after : List Char} {source : List Char}
    (hpending : r.pending = source.reverse) (hsource : source ≠ []) (hpieces : r.pieces = [])
    (hbrackets : r.brackets = [⟨false, true, [], source ++ ']' :: after⟩])
    (hafter : ∀ c ∈ after.head?, c ≠ '(' ∧ c ≠ '[') (hrefs : refs.lookup (labelKey source) = none) :
    closeBracket refs r after =
      (⟨[.done (.text [']']), .done (.text source), .done (.text ['['])], [], [], some ']',
        r.inAnchor⟩, after) := by
  have htarget : linkTarget? refs source after = none := by
    have hlabel : referenceTarget? refs source after = none := by
      unfold referenceTarget?
      split
      · exact absurd rfl (hafter '[' rfl).2
      · rw [hrefs]
        rfl
    unfold linkTarget?
    split
    · exact absurd rfl (hafter '(' rfl).1
    · rw [hlabel]
      rfl
  have htext : (source ++ ']' :: after).take
      ((source ++ ']' :: after).length - after.length - 1) = source := by
    rw [List.length_append, List.length_cons,
      show source.length + (after.length + 1) - after.length - 1 = source.length by omega]
    exact List.take_left
  have hflush : r.flush.passedChar ']' =
      ⟨[.done (.text source)], [], [⟨false, true, [], source ++ ']' :: after⟩], some ']',
        r.inAnchor⟩ := by
    rw [LineReading.flush, hpending, hpieces, hbrackets, List.reverse_reverse, if_neg]
    · rfl
    · simpa using hsource
  unfold closeBracket
  dsimp only
  rw [hflush]
  dsimp only
  rw [htext, if_pos rfl, htarget]
  rfl

/-- A marker is text, unless it is a label that a link may have. -/
theorem readFrom_marker (hletters : ∀ c ∈ name, c.isAlpha = true) (hname : name ≠ [])
    (hrefs : refs.lookup (labelKey ('!' :: name)) = none) (after : List Char)
    (hafter : ∀ c ∈ after.head?, c ≠ '(' ∧ c ≠ '[') (rounds : Nat) :
    readFrom refs (rounds + (quoteMarker name).length) .empty (quoteMarker name ++ after) =
      readFrom refs rounds (afterMarker name) after := by
  obtain ⟨first, others, rfl⟩ := List.exists_cons_of_ne_nil hname
  have hfirst := hletters first (by simp)
  let opened : LineReading :=
    ⟨[], [], [⟨false, true, [], '!' :: (first :: others) ++ ']' :: after⟩], some '[', false⟩
  have hlength : rounds + (quoteMarker (first :: others)).length =
      (rounds + 1 + (first :: others).length + 1) + 1 := by
    simp [quoteMarker]
    omega
  have htext : quoteMarker (first :: others) ++ after =
      '[' :: '!' :: first :: (others ++ ']' :: after) := by
    simp [quoteMarker]
  rw [hlength, htext, readFrom]
  show readFrom refs (rounds + 1 + (first :: others).length + 1) opened
    ('!' :: first :: (others ++ ']' :: after)) = _
  rw [readFrom, stepInline_exclamation refs opened hfirst]
  show readFrom refs (rounds + 1 + (first :: others).length) (opened.addChar '!')
    ((first :: others) ++ ']' :: after) = _
  rw [readFrom_letters refs hletters, readFrom]
  obtain ⟨hpending, hpieces, hbrackets, hanchor⟩ :=
    (opened.addChar '!').pending_addChars (first :: others)
  generalize (opened.addChar '!').addChars (first :: others) = r at hpending hpieces hbrackets hanchor
  have hclosed : stepInline refs r ']' after = closeBracket refs r after := rfl
  have hsource : ('!' :: first :: others).reverse = (first :: others).reverse ++ ['!'] :=
    List.reverse_cons
  rw [hclosed, closeBracket_marker (hpending.trans hsource.symm) (by simp) hpieces hbrackets hafter
    hrefs, hanchor]
  rfl

/-- Nothing that was read of a marker changes how the line goes on. -/
theorem follows_of_pieces {front : List Piece} {r : LineReading} (hbrackets : r.brackets = [])
    (hpieces : Piece.joinTexts r.flush.pieces.reverse = front) (hfront : Piece.joinTexts front = front)
    (hcalls : allowsCall r.previous = true) (hanchor : r.inAnchor = false) :
    LineReading.Follows front .empty r where
  levels := by
    rw [hbrackets]
    refine .outermost ?_
    show _ = Piece.joinTexts (front ++ [])
    rw [List.append_nil, hpieces, hfront]
  calls := hcalls.symm
  inAnchor := hanchor.symm

/-- What is read off a text after some pieces is put behind them. -/
theorem finish_after (refs : References) {front : List Piece} {r : LineReading} (h : LineReading.Follows front .empty r)
    {cs : List Char} {rounds : Nat} (hrounds : cs.length ≤ rounds) :
    ∃ ps, (readFrom refs rounds r cs).finish = resolveEmphasis (front ++ ps) ∧
      markup refs cs = resolveEmphasis ps :=
  ⟨_, (readFrom_follows refs h (Nat.le_refl _) hrounds).finish, rfl⟩

section Markers

variable (hletters : ∀ c ∈ name, c.isAlpha = true) (hname : name ≠ [])
  (hrefs : refs.lookup (labelKey ('!' :: name)) = none)

include hletters hname hrefs

/-- A marker alone is a text. -/
theorem readInline_marker : readInline refs (quoteMarker name) = [.text (quoteMarker name)] := by
  have hread := readFrom_marker hletters hname hrefs [] nofun 0
  rw [List.append_nil, Nat.zero_add] at hread
  rw [readInline, if_neg (by simp [quoteMarker]), hread, readFrom]
  simp [LineReading.finish, LineReading.flush, LineReading.dropBrackets, afterMarker,
    resolveEmphasis, Piece.joinTexts, Piece.isMarks, Piece.plain, quoteMarker]

/-- **Behind a marker and a space a line reads as it does on its own**, the marker and the space
being put in front of its text. -/
theorem readInline_marker_space {c : Char} (hc : isBlank c = false) (rest : List Char) :
    readInline refs (quoteMarker name ++ ' ' :: c :: rest) =
      Inline.consText (quoteMarker name ++ [' ']) (readInline refs (c :: rest)) := by
  have hspace : c ≠ ' ' := by
    rintro rfl
    revert hc
    decide
  have hnewline : c ≠ '\n' := by
    rintro rfl
    revert hc
    decide
  have hread := readFrom_marker hletters hname hrefs (' ' :: c :: rest) (by simp)
    (rest.length + 1 + 1)
  have hlength : (quoteMarker name ++ ' ' :: c :: rest).length =
      rest.length + 1 + 1 + (quoteMarker name).length := by
    rw [List.length_append, List.length_cons, List.length_cons, Nat.add_comm]
  have hstep : stepInline refs (afterMarker name) ' ' (c :: rest) =
      ((afterMarker name).addChar ' ', c :: rest) := by
    have hleaf : leaf? (afterMarker name) (' ' :: c :: rest) = none := by
      show lineBreak? (' ' :: c :: rest) = none
      have hbreak : afterBreak? (' ' :: c :: rest) = none := by
        have hindent : indentOf (' ' :: c :: rest) = 1 := by simp [indentOf, hspace]
        unfold afterBreak?
        rw [hindent]
        dsimp only
        split
        · next heq => exact absurd (List.cons.inj heq).1 hnewline
        · rfl
      unfold lineBreak?
      split
      · next heq => cases heq
      · rw [hbreak]
        rfl
    unfold stepInline
    rw [hleaf]
    rfl
  have hfollows : LineReading.Follows [.done (.text (quoteMarker name ++ [' ']))] .empty
      ((afterMarker name).addChar ' ') := by
    refine follows_of_pieces rfl ?_ rfl (allowsCall_blank (by decide)) rfl
    simp [LineReading.addChar, LineReading.flush, afterMarker, Piece.joinTexts, quoteMarker]
  rw [readInline, if_neg (by simp), hlength, hread, readFrom, hstep]
  obtain ⟨ps, hfinish, hmarkup⟩ := finish_after refs hfollows (Nat.le_refl (c :: rest).length)
  rw [readInline_eq_markup (List.cons_ne_nil c rest), hmarkup]
  refine hfinish.trans ?_
  have hlast : (quoteMarker name ++ [' ']).getLast? = some ' ' := by simp
  exact resolveEmphasis_cons_text hlast (by decide) ps

/-- **Behind a marker and a line break a line reads as it does on its own**, with the marker and the
break in front.  White space after the break belongs to it. -/
theorem readInline_marker_break {gap cs : List Char} (hgap : ∀ c ∈ gap, isBlank c = true)
    (hcs : ∀ c ∈ cs.head?, isBlank c = false) :
    readInline refs (quoteMarker name ++ '\n' :: (gap ++ cs)) =
      .text (quoteMarker name) :: .softBreak :: markup refs cs := by
  have htrim : trimStart (gap ++ cs) = cs := by
    rw [trimStart, List.dropWhile_append_of_pos hgap, List.dropWhile_eq_self_iff]
    intro hpos
    have := hcs cs[0] (by simp [List.head?_eq_getElem?])
    simp [this]
  have hread := readFrom_marker hletters hname hrefs ('\n' :: (gap ++ cs)) (by simp)
    ((gap ++ cs).length + 1)
  have hlength : (quoteMarker name ++ '\n' :: (gap ++ cs)).length =
      (gap ++ cs).length + 1 + (quoteMarker name).length := by
    rw [List.length_append, List.length_cons, Nat.add_comm]
  let passed := ((afterMarker name).addLeaf .softBreak).passed ('\n' :: (gap ++ cs)) cs
  have hstep : stepInline refs (afterMarker name) '\n' (gap ++ cs) = (passed, cs) := by
    have hleaf : leaf? (afterMarker name) ('\n' :: (gap ++ cs)) = some (.softBreak, cs) := by
      have hbreak : leaf? (afterMarker name) ('\n' :: (gap ++ cs)) =
          some (.softBreak, trimStart (gap ++ cs)) := rfl
      rw [hbreak, htrim]
    unfold stepInline
    rw [hleaf]
  have hprevious : passed.previous = ('\n' :: gap).getLast? :=
    LineReading.previous_passed _ ('\n' :: gap) cs
  have hfollows : LineReading.Follows
      [.done (.text (quoteMarker name)), .done .softBreak] .empty passed := by
    refine follows_of_pieces rfl ?_ ?_ ?_ rfl
    · simp [passed, LineReading.passed, LineReading.addLeaf, LineReading.addPiece,
        LineReading.flush, afterMarker, Piece.joinTexts, quoteMarker]
    · rfl
    · rw [hprevious, List.getLast?_eq_some_getLast (List.cons_ne_nil _ _)]
      refine allowsCall_blank ?_
      have hmem := List.getLast_mem (List.cons_ne_nil '\n' gap)
      generalize ('\n' :: gap).getLast _ = last at hmem ⊢
      rcases List.mem_cons.mp hmem with rfl | hlast
      · decide
      · exact hgap _ hlast
  rw [readInline, if_neg (by simp), hlength, hread, readFrom, hstep]
  have hrounds : cs.length ≤ (gap ++ cs).length := by simp
  obtain ⟨ps, hfinish, hmarkup⟩ := finish_after refs hfollows hrounds
  rw [hmarkup]
  refine hfinish.trans ?_
  exact resolveEmphasis_cons_softBreak (by simp [quoteMarker]) ps

end Markers

end Livedoc.Markdown
