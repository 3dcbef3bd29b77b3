import Livedoc.Proofs.Markdown.Ahead

/-!
# How the markup of a text starts

The markup of a text that starts with something other than white space does so too
(`readInline_starts`): its first piece, as far as it becomes text, starts with such a character.
While the text is read, what was read first stays first, or becomes part of a link
(`readFrom_starts`); runs of marks that are used up leave emphasis behind (`pairFrom_leads`).
-/

namespace Livedoc.Markdown

open Livedoc.Call Livedoc.Text

/-! ## First characters -/

namespace Inline

variable {is js ks : List Inline}

/-- The first character of the text that a piece becomes, if it has any.  The placeholder stands for
what becomes no text. -/
def lead : Inline → Option Char
  | text raw | escaped raw => raw.head?
  | html raw | call _ raw => some (raw.headD ' ')
  | softBreak => some '\n'
  | _ => some placeholder

/-- The first piece starts with something other than white space. -/
def Starts (is : List Inline) : Prop := ∃ c, is.head?.bind lead = some c ∧ isBlank c = false

/-- The first piece that is not empty starts with something other than white space. -/
def Leads (is : List Inline) : Prop := ∃ c, is.findSome? lead = some c ∧ isBlank c = false

theorem starts_cons {i : Inline} {c : Char} (hlead : i.lead = some c) (hc : isBlank c = false)
    (is : List Inline) : Starts (i :: is) := ⟨c, hlead, hc⟩

theorem Starts.append (h : Starts is) (js : List Inline) : Starts (is ++ js) := by
  cases is with
  | nil => obtain ⟨c, hc, -⟩ := h; cases hc
  | cons i is => exact h

/-- Something else may follow where something starts, if what comes first does so too. -/
theorem Starts.replace (h : Starts (is ++ js)) (hreplace : Starts js → Starts ks) :
    Starts (is ++ ks) := by
  cases is with
  | nil => exact hreplace h
  | cons i is => exact h

theorem Starts.leads (h : Starts is) : Leads is := by
  obtain ⟨c, hlead, hc⟩ := h
  cases is with
  | nil => cases hlead
  | cons i is =>
      refine ⟨c, ?_, hc⟩
      have hlead : i.lead = some c := hlead
      rw [List.findSome?_cons, hlead]

/-- What follows does not matter where something leads. -/
theorem Leads.replace (h : Leads (is ++ js)) (hreplace : Leads js → Leads ks) : Leads (is ++ ks) := by
  obtain ⟨c, hlead, hc⟩ := h
  rw [List.findSome?_append] at hlead
  cases hbefore : is.findSome? lead with
  | some d =>
      rw [hbefore] at hlead
      exact ⟨c, by rw [List.findSome?_append, hbefore]; exact hlead, hc⟩
  | none =>
      rw [hbefore] at hlead
      obtain ⟨d, hd, hblank⟩ := hreplace ⟨c, hlead, hc⟩
      exact ⟨d, by rw [List.findSome?_append, hbefore]; exact hd, hblank⟩

/-- Joining the texts leaves no empty text in front. -/
theorem Leads.joinTexts (h : Leads is) : Starts (joinTexts is) := by
  induction is with
  | nil => obtain ⟨c, hlead, -⟩ := h; cases hlead
  | cons i rest ih =>
      obtain ⟨c, hlead, hc⟩ := h
      rw [List.findSome?_cons] at hlead
      rw [Inline.joinTexts]
      cases htext : i.textChars? with
      | none =>
          have hsome : i.lead = some c := by
            cases i <;> first | exact hlead | cases htext
          exact starts_cons hsome hc _
      | some raw =>
          have hraw : i.lead = raw.head? := by
            cases i <;> cases htext <;> rfl
          rw [hraw] at hlead
          cases raw with
          | nil =>
              have hrest := ih ⟨c, hlead, hc⟩
              dsimp only
              split
              · next next others hothers =>
                  rw [hothers] at hrest
                  exact hrest
              · exact hrest
          | cons d ds =>
              obtain rfl : d = c := Option.some.inj hlead
              dsimp only
              split
              · exact starts_cons rfl hc _
              · exact starts_cons rfl hc _

end Inline

/-! ## Emphasis -/

namespace Pairing

/-- Where a run is used up, the emphasis that it marks leads. -/
theorem paired_leads {before content tail : List Inline} {opening : Run} {closing : Inline}
    (strong : Bool) (used : Nat) (closing' : Inline)
    (h : Inline.Leads (before ++ (opening.rest :: content) ++ [closing] ++ tail)) :
    Inline.Leads (before ++ [{ opening with left := opening.left - used }.rest,
      Inline.emphasis strong content] ++ [closing'] ++ tail) := by
  simp only [List.append_assoc] at h ⊢
  refine h.replace fun hopening => ?_
  by_cases hleft : opening.left - used = 0
  · refine ⟨Inline.placeholder, ?_, by decide⟩
    simp [Run.rest, hleft, List.findSome?_cons, Inline.lead]
  · obtain ⟨c, hlead, hc⟩ := hopening
    have hmark (n : Nat) (hn : n ≠ 0) : (List.replicate n opening.mark).head? = some opening.mark := by
      rw [List.head?_replicate, if_neg hn]
    have hlead' : some opening.mark = some c := by
      rw [← hlead]
      simp [Run.rest, Inline.lead, hmark opening.left (by omega)]
    refine ⟨c, ?_, hc⟩
    simp [Run.rest, Inline.lead, hmark _ hleft, ← hlead']

theorem close_leads {tail : List Inline} (rounds : Nat) (run : Run) (p : Pairing)
    (h : Inline.Leads (p.finish ++ [run.rest] ++ tail)) :
    Inline.Leads ((p.close rounds run).finish ++ tail) := by
  induction rounds generalizing run p with
  | zero =>
      rw [← finish_push] at h
      exact h
  | succ rounds ih =>
      have hunpaired : (if run.opens && run.left > 0 then
            { p with openings := ⟨run, []⟩ :: p.openings }
          else p.push run.rest).finish = p.finish ++ [run.rest] := by
        split
        · exact finish_open p.content ⟨run, []⟩ p.openings
        · exact finish_push p run.rest
      rw [← hunpaired] at h
      unfold close
      dsimp only
      split
      · split
        · next o outer hfound =>
            split
            · exact h
            · have hfinish : p.finish = (Pairing.mk p.content outer).finish ++
                  o.run.rest :: o.content.reverse := by
                rw [← finish_open, ← finish_findOpening hfound]
              rw [hunpaired, hfinish] at h
              let strong : Bool := run.left ≥ 2 && o.run.left ≥ 2
              let used := if strong then 2 else 1
              let closing : Run := { run with left := run.left - used }
              have hpaired := paired_leads strong used closing.rest h
              rw [← finish_paired] at hpaired
              exact ih _ _ hpaired
        · exact h
      · exact h

end Pairing

theorem pairFrom_leads (before : Option Char) (ps : List Piece) (p : Pairing)
    (h : Inline.Leads (p.finish ++ ps.map Piece.plain)) :
    Inline.Leads (pairFrom before ps p).finish := by
  induction ps generalizing before p with
  | nil =>
      rw [List.map_nil, List.append_nil] at h
      exact h
  | cons piece rest ih =>
      rw [List.map_cons, List.append_cons] at h
      cases piece with
      | done i =>
          refine ih _ _ ?_
          rw [Pairing.finish_push]
          exact h
      | marks mark count =>
          refine ih _ _ (Pairing.close_leads _ _ p ?_)
          rw [Run.rest_between]
          exact h

/-- **What a level starts with is what its markup starts with.** -/
theorem resolveEmphasis_starts {ps : List Piece} (h : Inline.Starts (ps.map Piece.plain)) :
    Inline.Starts (resolveEmphasis ps) := by
  have hjoined : Inline.Starts ((Piece.joinTexts ps).map Piece.plain) := by
    obtain ⟨c, hlead, hc⟩ := h
    cases ps with
    | nil => cases hlead
    | cons p rest =>
        by_cases hp : ∃ raw, p = .done (.text raw)
        · obtain ⟨raw, rfl⟩ := hp
          have hraw : raw.head? = some c := hlead
          rw [Piece.joinTexts_text]
          fun_cases Piece.consText raw (Piece.joinTexts rest) with
          | case1 next others =>
              refine Inline.starts_cons ?_ hc _
              show (raw ++ next).head? = some c
              rw [List.head?_append, hraw]
              rfl
          | case2 => exact ⟨c, hraw, hc⟩
        · rw [Piece.joinTexts]
          · exact Inline.starts_cons hlead hc _
          · exact fun raw hraw => hp ⟨raw, hraw⟩
  unfold resolveEmphasis
  dsimp only
  split
  · exact (pairFrom_leads none _ ⟨[], []⟩ hjoined.leads).joinTexts
  · exact hjoined

/-! ## Leaves -/

theorem isBlank_of_isPunctuation {c : Char} (h : isPunctuation c = true) : isBlank c = false := by
  rw [← Bool.not_eq_true, isBlank, inRanges_iff]
  simp only [isPunctuation, Bool.or_eq_true, Bool.and_eq_true, decide_eq_true_eq] at h
  simp only [blankRanges, List.mem_cons, List.not_mem_nil, or_false, exists_eq_or_imp,
    exists_eq_left]
  omega

/-- A reader whose pieces become no white space. -/
def Reader.LeadsOff (read : Reader) : Prop :=
  ∀ cs i after, read cs = some (i, after) → ∃ d, i.lead = some d ∧ isBlank d = false

theorem Reader.LeadsOff.orElse {first second : Reader} (hfirst : LeadsOff first)
    (hsecond : LeadsOff second) : LeadsOff fun cs => (first cs).orElse fun _ => second cs := by
  intro cs i after h
  have h : (first cs).orElse (fun _ => second cs) = some (i, after) := h
  cases hread : first cs with
  | none =>
      rw [hread] at h
      exact hsecond cs i after h
  | some found =>
      rw [hread] at h
      cases h
      exact hfirst cs i after hread

/-- A piece that becomes no text. -/
private theorem exists_lead_placeholder {i : Inline} (h : i.lead = some Inline.placeholder) :
    ∃ d, i.lead = some d ∧ isBlank d = false := ⟨_, h, by decide⟩

theorem escapes?_leadsOff : Reader.LeadsOff escapes? := by
  intro cs i after h
  unfold escapes? at h
  split at h
  · cases h
  · next taken after' hne htaken =>
      cases h
      unfold takeEscapes at htaken
      split at htaken
      · split at htaken
        · next c rest hc =>
            cases htaken
            exact ⟨c, rfl, isBlank_of_isPunctuation hc⟩
        · cases htaken
          exact absurd rfl hne
      · cases htaken
        exact absurd rfl hne

theorem codeSpan?_leadsOff : Reader.LeadsOff codeSpan? := by
  intro cs i after h
  unfold codeSpan? at h
  dsimp only at h
  split at h
  · cases h
  · next hcount =>
      split at h
      · cases h
        exact exists_lead_placeholder rfl
      · cases h
        refine ⟨'\x60', ?_, by decide⟩
        rw [Inline.lead, List.head?_replicate, if_neg hcount]

theorem formulaSpan?_leadsOff : Reader.LeadsOff formulaSpan? := by
  have hdisplay : Reader.LeadsOff displayFormula? := by
    intro cs i after h
    unfold displayFormula? at h
    split at h
    · split at h
      · cases h
        exact exists_lead_placeholder rfl
      · cases h
    · cases h
  have hticked : Reader.LeadsOff tickedFormula? := by
    have hwith (count : Nat) : Reader.LeadsOff (tickedFormulaWith? count) := by
      intro cs i after h
      obtain ⟨formula, rfl, -⟩ := tickedFormulaWith?_eq_some h
      exact exists_lead_placeholder rfl
    intro cs i after h
    unfold tickedFormula? at h
    split at h
    · exact hwith _ _ i after h
    · cases h
  have hplain : Reader.LeadsOff plainFormula? := by
    intro cs i after h
    unfold plainFormula? at h
    split at h
    · split at h
      · cases h
      · split at h
        · split at h
          · cases h
          · cases h
            exact exists_lead_placeholder rfl
        · cases h
    · cases h
  exact hdisplay.orElse (hticked.orElse hplain)

theorem sizedImage?_leadsOff : Reader.LeadsOff sizedImage? := by
  intro cs i after h
  obtain ⟨image, -, heq⟩ := Option.map_eq_some_iff.mp h
  cases heq
  exact exists_lead_placeholder rfl

theorem ownLink?_leadsOff (linksAllowed : Bool) : Reader.LeadsOff (ownLink? linksAllowed) := by
  intro cs i after h
  obtain ⟨⟨scheme, shown, after'⟩, -, heq⟩ := Option.map_eq_some_iff.mp h
  dsimp only at heq
  split at heq
  · cases heq
    exact exists_lead_placeholder rfl
  · cases heq
    exact ⟨'<', rfl, by decide⟩

theorem rawHtml?_leadsOff : Reader.LeadsOff rawHtml? := by
  intro cs i after h
  obtain ⟨after', hafter, heq⟩ := Option.map_eq_some_iff.mp h
  cases heq
  have hlength := length_afterRawHtml? hafter
  have hstart : cs.head? = some '<' := by
    unfold afterRawHtml? at hafter
    split at hafter <;> first | rfl | cases hafter
  obtain ⟨rest, rfl⟩ := List.head?_eq_some_iff.mp hstart
  refine ⟨'<', ?_, by decide⟩
  obtain ⟨n, hn⟩ : ∃ n, ('<' :: rest).length - after.length = n + 1 :=
    Nat.exists_eq_succ_of_ne_zero (by omega)
  rw [Inline.lead, hn]
  rfl

theorem callSpan?_leadsOff (previous : Option Char) : Reader.LeadsOff (callSpan? previous) := by
  intro cs i after h
  obtain ⟨head, rest, rfl, hstop, rfl, -⟩ := callSpan?_eq_some h
  obtain ⟨n, hn⟩ := Nat.exists_eq_succ_of_ne_zero (Nat.pos_iff_ne_zero.mp hstop)
  refine ⟨'.', ?_, by decide⟩
  rw [Inline.lead, hn]
  rfl

/-- A line break after a backslash is kept. -/
theorem lineBreak?_backslash {rest after : List Char} {i : Inline}
    (h : lineBreak? ('\\' :: rest) = some (i, after)) : i.lead = some Inline.placeholder := by
  unfold lineBreak? at h
  split at h
  · cases h
    rfl
  · obtain ⟨⟨indent, after'⟩, hbreak, -⟩ := Option.map_eq_some_iff.mp h
    unfold afterBreak? at hbreak
    cases hbreak

/-- Markup that starts with something other than white space does so where it becomes text. -/
theorem leaf?_lead {r : LineReading} {c : Char} {rest after : List Char} {i : Inline}
    (h : leaf? r (c :: rest) = some (i, after)) (hc : isBlank c = false) :
    ∃ d, i.lead = some d ∧ isBlank d = false := by
  unfold leaf? at h
  split at h
  · next rest' heq =>
      obtain ⟨rfl, rfl⟩ := List.cons.inj heq
      cases hescapes : escapes? ('\\' :: rest) with
      | some found =>
          rw [hescapes] at h
          cases h
          exact escapes?_leadsOff _ i after hescapes
      | none =>
          rw [hescapes] at h
          exact exists_lead_placeholder (lineBreak?_backslash h)
  · exact formulaSpan?_leadsOff _ i after h
  · exact codeSpan?_leadsOff _ i after h
  · exact callSpan?_leadsOff _ _ i after h
  · exact sizedImage?_leadsOff _ i after h
  · exact (ownLink?_leadsOff _).orElse rawHtml?_leadsOff _ i after h
  · next heq =>
      obtain ⟨rfl, -⟩ := List.cons.inj heq
      exact absurd hc (by decide)
  · next heq =>
      obtain ⟨rfl, -⟩ := List.cons.inj heq
      exact absurd hc (by decide)
  · cases h

/-! ## Reading a line -/

namespace LineReading

variable {r : LineReading}

/-- Where nothing has been read yet, no bracket is open. -/
theorem brackets_of_soFar_eq_nil (h : r.soFar = []) : r.brackets = [] := by
  cases hb : r.brackets with
  | nil => rfl
  | cons b bs =>
      rw [soFar, hb, flat] at h
      simp at h

/-- What was read starts with something other than white space, or it is nothing and `c`, which
follows, is such a character. -/
def StartsWith (r : LineReading) (c : Char) : Prop :=
  Inline.Starts r.soFar ∨ r.soFar = [] ∧ isBlank c = false

theorem StartsWith.append {c : Char} (h : r.StartsWith c) {i : Inline}
    (hi : isBlank c = false → ∃ d, i.lead = some d ∧ isBlank d = false) :
    Inline.Starts (r.soFar ++ [i]) := by
  rcases h with h | ⟨hnil, hc⟩
  · exact h.append [i]
  · obtain ⟨d, hlead, hd⟩ := hi hc
    rw [hnil]
    exact ⟨d, hlead, hd⟩

theorem StartsWith.addChar {c : Char} (h : r.StartsWith c) : Inline.Starts (r.addChar c).soFar := by
  have hafter : (r.addChar c).soFar =
      flat r.brackets r.pieces ++ [.text (r.pending.reverse ++ [c])] := by
    rw [← List.reverse_cons]
    exact flat_cons r.brackets (.done (.text (c :: r.pending).reverse)) r.pieces
  rw [hafter]
  cases hpending : r.pending with
  | nil =>
      rw [← soFar_eq hpending]
      exact h.append fun hc => ⟨c, rfl, hc⟩
  | cons d ds =>
      have hbefore : r.soFar = flat r.brackets r.pieces ++ [.text (d :: ds).reverse] := by
        rw [soFar, flush, hpending]
        exact flat_cons r.brackets (.done (.text (d :: ds).reverse)) r.pieces
      obtain h | ⟨hnil, -⟩ := h
      · rw [hbefore] at h
        refine h.replace ?_
        rintro ⟨e, hlead, he⟩
        refine ⟨e, ?_, he⟩
        have hlead : (d :: ds).reverse.head? = some e := hlead
        show ((d :: ds).reverse ++ [c]).head? = some e
        rw [List.head?_append, hlead]
        rfl
      · rw [hbefore] at hnil
        simp at hnil

/-- A link starts where its bracket stood. -/
theorem starts_closeLink {b : Bracket} {outer : List Bracket} (hb : r.brackets = b :: outer)
    (hpending : r.pending = []) (target : Target) (h : Inline.Starts r.soFar) :
    Inline.Starts (r.closeLink b outer target).soFar := by
  rw [soFar_eq hpending, hb, flat] at h
  have hlink (i : Inline) (hi : i.lead = some Inline.placeholder) :
      Inline.Starts (flat outer b.before ++ [i]) :=
    h.replace fun _ => ⟨_, hi, by decide⟩
  obtain ⟨pieces, pending, brackets, previous, inAnchor⟩ := r
  obtain rfl : pending = [] := hpending
  unfold LineReading.closeLink
  dsimp only
  split
  · rw [soFar_eq rfl, flat_cons]
    exact hlink _ rfl
  · rw [soFar_eq rfl, flat_map, flat_cons]
    · exact hlink _ rfl
    · intro o
      split <;> exact ⟨rfl, rfl⟩

theorem StartsWith.closeBracket (h : r.StartsWith ']') (refs : References) (after : List Char) :
    Inline.Starts (Markdown.closeBracket refs r after).1.soFar := by
  have hpending : (r.flush.passedChar ']').pending = [] := r.pending_flush
  have hsoFar : (r.flush.passedChar ']').soFar = r.soFar :=
    (r.flush.soFar_with _ _).trans r.soFar_flush
  have hadded : Inline.Starts (r.soFar ++ [.text [']']]) := h.append fun hc => ⟨']', rfl, hc⟩
  unfold Markdown.closeBracket
  dsimp only
  split
  · rw [soFar_addPiece, hsoFar]
    exact hadded
  · next b outer hbrackets =>
      split
      · next target rest _ =>
          have hstarts : Inline.Starts (r.flush.passedChar ']').soFar := by
            rw [hsoFar]
            obtain h | ⟨hnil, -⟩ := h
            · exact h
            · rw [← hsoFar] at hnil
              rw [brackets_of_soFar_eq_nil hnil] at hbrackets
              cases hbrackets
          have hlinked := starts_closeLink hbrackets hpending target hstarts
          exact (soFar_with _ _ _).symm ▸ hlinked
      · rw [soFar_addPiece, soFar_dropBracket hpending, hsoFar]
        exact hadded

/-- What was read first stays first. -/
theorem StartsWith.stepInline {c : Char} (h : r.StartsWith c) (refs : References)
    (rest : List Char) : Inline.Starts (Markdown.stepInline refs r c rest).1.soFar := by
  unfold Markdown.stepInline
  split
  · next i after hleaf =>
      have hadded := h.append (leaf?_lead hleaf)
      rw [← soFar_addLeaf] at hadded
      rw [show ((r.addLeaf i).passed (c :: rest) after).soFar = (r.addLeaf i).soFar from
        soFar_with _ _ _]
      exact hadded
  · split
    · next hmark =>
        have hadded := h.append (i := (Piece.marks c ((rest.takeWhile (· == c)).length + 1)).plain)
          fun hc => ⟨c, rfl, hc⟩
        rw [← soFar_addPiece] at hadded
        exact (soFar_with (r.addPiece _) (some c) _).symm ▸ hadded
    · have hbracket (forImage : Bool) (source : List Char) (next : Char) :
          Inline.Starts ((r.openBracket forImage source).passedChar next).soFar := by
        rw [show ((r.openBracket forImage source).passedChar next).soFar =
          (r.openBracket forImage source).soFar from soFar_with _ _ _, soFar_openBracket]
        refine h.append fun _ => ?_
        cases forImage with
        | false => exact ⟨'[', rfl, by decide⟩
        | true => exact ⟨'!', rfl, by decide⟩
      split
      · exact hbracket false rest c
      · split
        · next hc =>
            subst hc
            exact StartsWith.closeBracket h refs rest
        · split
          · exact hbracket true _ '['
          · exact h.addChar

end LineReading

theorem readFrom_starts (refs : References) (rounds : Nat) {r : LineReading}
    (h : Inline.Starts r.soFar) (cs : List Char) :
    Inline.Starts (readFrom refs rounds r cs).soFar := by
  induction rounds generalizing r cs with
  | zero => cases cs <;> exact h
  | succ rounds ih =>
      cases cs with
      | nil => exact h
      | cons c rest => exact ih (LineReading.StartsWith.stepInline (.inl h) refs rest) _

/-- **The markup of a text starts as the text does**, if not with white space. -/
theorem readInline_starts (refs : References) {c : Char} (hc : isBlank c = false)
    (rest : List Char) : Inline.Starts (readInline refs (c :: rest)) := by
  have hempty : LineReading.StartsWith .empty c := .inr ⟨rfl, hc⟩
  have hread : Inline.Starts (readFrom refs (rest.length + 1) .empty (c :: rest)).soFar :=
    readFrom_starts refs rest.length (hempty.stepInline refs rest) _
  refine resolveEmphasis_starts ?_
  rw [LineReading.flat_dropBrackets, LineReading.brackets_flush]
  exact hread

end Livedoc.Markdown
