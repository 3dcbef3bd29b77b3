import Livedoc.Proofs.Markdown.Rest

/-!
# Call heads within a line

Every call head among the pieces of a line was read by the scanner, off an end of the line
(`readInline_scanned`), so it was read off a text with any property that the ends of the line
have.  Reading a line takes pieces off it one after the other, opens and closes levels at brackets,
and pairs runs of marks at the end of a level; all of this moves pieces about and puts some of them
into others, but it makes no call.  So what has to be shown of each step is that the pieces that it
keeps are `Scanned` again.
-/

namespace Livedoc.Markdown

open Livedoc.Call Livedoc.Text

variable {P : List Char → Prop}

/-! ## Scanned pieces -/

namespace Inline

mutual

/-- Whether every call in a piece was read by the scanner, off a text with the property, and its
text is that of the head. -/
def Scanned (P : List Char → Prop) : Inline → Prop
  | call head raw =>
    ∃ rest, P rest ∧ headAt? 0 rest = some head ∧ raw = rest.take head.stop
  | emphasis _ children | link _ _ children | image _ _ children => AllScanned P children
  | _ => True

/-- Whether every call in several pieces was read by the scanner. -/
def AllScanned (P : List Char → Prop) : List Inline → Prop
  | [] => True
  | i :: rest => i.Scanned P ∧ AllScanned P rest

end

theorem allScanned_iff {is : List Inline} : AllScanned P is ↔ ∀ i ∈ is, i.Scanned P := by
  induction is with
  | nil => simp [AllScanned]
  | cons i rest ih => rw [AllScanned, ih, List.forall_mem_cons]

theorem scanned_text (raw : List Char) : (text raw).Scanned P := by
  simp [Scanned]

/-- Only texts are joined. -/
theorem joinTexts_scanned {is : List Inline} (h : ∀ i ∈ is, i.Scanned P) :
    ∀ i ∈ joinTexts is, i.Scanned P := by
  induction is with
  | nil => nofun
  | cons first rest ih =>
      have hfirst := h first (by simp)
      have hrest := ih fun i hi => h i (by simp [hi])
      unfold joinTexts
      split
      · exact List.forall_mem_cons.mpr ⟨hfirst, hrest⟩
      · split
        · next next others hothers =>
            rw [hothers] at hrest
            exact List.forall_mem_cons.mpr ⟨scanned_text _, fun i hi => hrest i (by simp [hi])⟩
        · split
          · exact hrest
          · exact List.forall_mem_cons.mpr ⟨scanned_text _, hrest⟩

end Inline

/-- Whether every call in a piece of a level was read by the scanner. -/
def Piece.Scanned (P : List Char → Prop) (p : Piece) : Prop := p.plain.Scanned P

theorem Piece.joinTexts_scanned {ps : List Piece} (h : ∀ p ∈ ps, p.Scanned P) :
    ∀ p ∈ Piece.joinTexts ps, p.Scanned P := by
  fun_induction Piece.joinTexts ps with
  | case1 => exact h
  | case2 raw rest next others hothers ih =>
      have hrest := ih fun p hp => h p (by simp [hp])
      rw [hothers] at hrest
      exact List.forall_mem_cons.mpr ⟨Inline.scanned_text _, fun p hp => hrest p (by simp [hp])⟩
  | case3 raw rest _ ih =>
      have hrest := ih fun p hp => h p (by simp [hp])
      exact List.forall_mem_cons.mpr ⟨h _ (by simp), hrest⟩
  | case4 p rest _ ih =>
      exact List.forall_mem_cons.mpr ⟨h p (by simp), ih fun q hq => h q (by simp [hq])⟩

/-! ## Emphasis -/

/-- Whether every call in what has been paired so far was read by the scanner. -/
structure Pairing.Scanned (P : List Char → Prop) (p : Pairing) : Prop where
  content : ∀ i ∈ p.content, i.Scanned P
  openings : ∀ o ∈ p.openings, ∀ i ∈ o.content, i.Scanned P

namespace Pairing

variable {p : Pairing}

theorem Scanned.pushAll (h : p.Scanned P) {is : List Inline}
    (his : ∀ i ∈ is, i.Scanned P) : (p.pushAll is).Scanned P := by
  unfold Pairing.pushAll
  split
  · next hopenings =>
      exact ⟨List.forall_mem_append.mpr ⟨his, h.content⟩, h.openings⟩
  · next o outer hopenings =>
      have hall := h.openings
      rw [hopenings, List.forall_mem_cons] at hall
      refine ⟨h.content, List.forall_mem_cons.mpr ⟨?_, hall.2⟩⟩
      exact List.forall_mem_append.mpr ⟨his, hall.1⟩

theorem Scanned.push (h : p.Scanned P) {i : Inline} (hi : i.Scanned P) :
    (p.push i).Scanned P := by
  have hone : (p.pushAll [i]).Scanned P := h.pushAll (by simpa using hi)
  unfold Pairing.push
  unfold Pairing.pushAll at hone
  split at hone <;> simp_all

/-- What lies after the opening run that is found was scanned, and what contains it. -/
theorem findOpening_scanned {closing : Run} {openings outer : List Opening} {o : Opening}
    (hfound : findOpening closing openings = some (o, outer))
    (h : ∀ o ∈ openings, ∀ i ∈ o.content, i.Scanned P) :
    (∀ i ∈ o.content, i.Scanned P) ∧ ∀ o ∈ outer, ∀ i ∈ o.content, i.Scanned P := by
  induction openings generalizing o with
  | nil => cases hfound
  | cons first rest ih =>
      rw [List.forall_mem_cons] at h
      unfold findOpening at hfound
      split at hfound
      · cases hfound
        exact h
      · obtain ⟨⟨found, outer'⟩, hrest, heq⟩ := Option.map_eq_some_iff.mp hfound
        cases heq
        obtain ⟨hcontent, houter⟩ := ih hrest h.2
        refine ⟨List.forall_mem_append.mpr ⟨h.1, List.forall_mem_cons.mpr ⟨?_, hcontent⟩⟩, houter⟩
        exact Inline.scanned_text _

/-- A run that is not paired opens a level, or it is a text. -/
private theorem Scanned.unpaired (h : p.Scanned P) (run : Run) :
    (if run.opens && run.left > 0 then { p with openings := ⟨run, []⟩ :: p.openings }
      else p.push run.rest).Scanned P := by
  split
  · exact ⟨h.content, List.forall_mem_cons.mpr ⟨by simp, h.openings⟩⟩
  · exact h.push (Inline.scanned_text _)

/-- What is put into emphasis goes to the level outside, or stays behind what is left of the run
that opened it. -/
private theorem Scanned.paired (h : p.Scanned P) {outer : List Opening}
    (houter : ∀ o ∈ outer, ∀ i ∈ o.content, i.Scanned P) {content : List Inline}
    (hcontent : ∀ i ∈ content, i.Scanned P) (opening : Run) (strong : Bool) :
    (if opening.left = 0 then
      { p with openings := outer }.pushAll [Inline.emphasis strong content.reverse, opening.rest]
      else { p with
        openings := ⟨opening, [Inline.emphasis strong content.reverse]⟩ :: outer
      }).Scanned P := by
  have hemphasis : (Inline.emphasis strong content.reverse).Scanned P := by
    rw [Inline.Scanned, Inline.allScanned_iff]
    exact fun i hi => hcontent i (List.mem_reverse.mp hi)
  split
  · have hleft : Pairing.Scanned P { p with openings := outer } := ⟨h.content, houter⟩
    exact hleft.pushAll (by simp [hemphasis, Run.rest, Inline.scanned_text])
  · exact ⟨h.content, List.forall_mem_cons.mpr ⟨by simp [hemphasis], houter⟩⟩

/-- Pairing a closing run puts pieces into emphasis and makes no call. -/
theorem Scanned.close {rounds : Nat} {run : Run} (h : p.Scanned P) :
    (p.close rounds run).Scanned P := by
  induction rounds generalizing run p with
  | zero => exact h.push (Inline.scanned_text _)
  | succ rounds ih =>
      unfold Pairing.close
      dsimp only
      split
      · split
        · next o outer hfound =>
            obtain ⟨hcontent, houter⟩ := findOpening_scanned hfound h.openings
            split
            · exact h.unpaired run
            · exact ih (h.paired houter hcontent { o.run with left := _ } _)
        · exact h.unpaired run
      · exact h.unpaired run

theorem Scanned.finish (h : p.Scanned P) : ∀ i ∈ p.finish, i.Scanned P := by
  have hall : ∀ os : List Opening, (∀ o ∈ os, ∀ i ∈ o.content, i.Scanned P) →
      ∀ i ∈ os.foldr (fun o before => o.content ++ o.run.rest :: before) p.content,
        i.Scanned P := by
    intro os
    induction os with
    | nil => exact fun _ => h.content
    | cons o os ih =>
        intro hos
        rw [List.forall_mem_cons] at hos
        refine List.forall_mem_append.mpr ⟨hos.1, List.forall_mem_cons.mpr ⟨?_, ih hos.2⟩⟩
        exact Inline.scanned_text _
  intro i hi
  exact hall p.openings h.openings i (List.mem_reverse.mp hi)

end Pairing

theorem pairFrom_scanned {before : Option Char} {ps : List Piece}
    (hps : ∀ q ∈ ps, q.Scanned P) {p : Pairing} (h : p.Scanned P) :
    (pairFrom before ps p).Scanned P := by
  induction ps generalizing before p with
  | nil => exact h
  | cons piece rest ih =>
      rw [List.forall_mem_cons] at hps
      unfold pairFrom
      refine ih hps.2 ?_
      cases piece with
      | done i => exact h.push hps.1
      | marks mark count => exact h.close

/-- **Pairing the runs of a level makes no call.** -/
theorem resolveEmphasis_scanned {ps : List Piece} (h : ∀ p ∈ ps, p.Scanned P) :
    ∀ i ∈ resolveEmphasis ps, i.Scanned P := by
  have hps := Piece.joinTexts_scanned h
  unfold resolveEmphasis
  dsimp only
  split
  · exact Inline.joinTexts_scanned (pairFrom_scanned hps ⟨by simp, by simp⟩).finish
  · intro i hi
    obtain ⟨p, hp, rfl⟩ := List.mem_map.mp hi
    exact hps p hp

/-! ## Leaves -/

/-- Whether the pieces that a reader gives were scanned. -/
def Reader.Scans (P : List Char → Prop) (read : Reader) : Prop :=
  ∀ {cs i after}, P cs → read cs = some (i, after) → i.Scanned P

namespace Reader

theorem Scans.orElse {first second : Reader} (hfirst : Scans P first)
    (hsecond : Scans P second) :
    Scans P fun cs => (first cs).orElse fun _ => second cs := by
  intro cs i after hcs h
  dsimp only at h
  cases hread : first cs with
  | none =>
      rw [hread] at h
      exact hsecond hcs h
  | some found =>
      rw [hread] at h
      cases h
      exact hfirst hcs hread

end Reader

private theorem escapes?_scans : Reader.Scans P escapes? := by
  intro cs i after hcs h
  unfold escapes? at h
  split at h
  · cases h
  · cases h
    simp [Inline.Scanned]

private theorem lineBreak?_scans : Reader.Scans P lineBreak? := by
  intro cs i after hcs h
  unfold lineBreak? at h
  split at h
  · cases h
    simp [Inline.Scanned]
  · obtain ⟨found, -, heq⟩ := Option.map_eq_some_iff.mp h
    cases heq
    split <;> simp [Inline.Scanned]

private theorem codeSpan?_scans : Reader.Scans P codeSpan? := by
  intro cs i after hcs h
  unfold codeSpan? at h
  dsimp only at h
  split at h
  · cases h
  · split at h <;> (cases h; simp [Inline.Scanned])

private theorem displayFormula?_scans : Reader.Scans P displayFormula? := by
  intro cs i after hcs h
  unfold displayFormula? at h
  split at h
  · split at h
    · cases h
      simp [Inline.Scanned]
    · cases h
  · cases h

private theorem tickedFormulaWith?_scanned {count : Nat} {cs after : List Char} {i : Inline}
    (h : tickedFormulaWith? count cs = some (i, after)) : i.Scanned P := by
  induction count with
  | zero => cases h
  | succ count ih =>
      unfold tickedFormulaWith? at h
      dsimp only at h
      split at h
      · cases h
        simp [Inline.Scanned]
      · exact ih h

private theorem tickedFormula?_scans : Reader.Scans P tickedFormula? := by
  intro cs i after hcs h
  unfold tickedFormula? at h
  split at h
  · exact tickedFormulaWith?_scanned h
  · cases h

private theorem plainFormula?_scans : Reader.Scans P plainFormula? := by
  intro cs i after hcs h
  unfold plainFormula? at h
  split at h
  · split at h
    · cases h
    · split at h
      · split at h
        · cases h
        · cases h
          simp [Inline.Scanned]
      · cases h
  · cases h

private theorem formulaSpan?_scans : Reader.Scans P formulaSpan? :=
  displayFormula?_scans.orElse (tickedFormula?_scans.orElse plainFormula?_scans)

private theorem sizedImage?_scans : Reader.Scans P sizedImage? := by
  intro cs i after hcs h
  obtain ⟨found, -, heq⟩ := Option.map_eq_some_iff.mp h
  cases heq
  simp [Inline.Scanned]

private theorem ownLink?_scans (linksAllowed : Bool) :
    Reader.Scans P (ownLink? linksAllowed) := by
  intro cs i after hcs h
  obtain ⟨found, -, heq⟩ := Option.map_eq_some_iff.mp h
  dsimp only at heq
  split at heq <;> (cases heq; simp [ownLink, Inline.Scanned, Inline.AllScanned])

private theorem rawHtml?_scans : Reader.Scans P rawHtml? := by
  intro cs i after hcs h
  obtain ⟨found, -, heq⟩ := Option.map_eq_some_iff.mp h
  cases heq
  simp [Inline.Scanned]

/-- A call is what the scanner reads at its place. -/
private theorem callSpan?_scans (previous : Option Char) :
    Reader.Scans P (callSpan? previous) := by
  intro cs i after hcs h
  unfold callSpan? at h
  split at h
  · obtain ⟨head, hhead, heq⟩ := Option.map_eq_some_iff.mp h
    cases heq
    rw [Inline.Scanned]
    exact ⟨cs, hcs, hhead, rfl⟩
  · cases h

theorem leaf?_scans (r : LineReading) : Reader.Scans P (leaf? r) := by
  intro cs i after hcs h
  unfold leaf? at h
  split at h
  · exact escapes?_scans.orElse lineBreak?_scans hcs h
  · exact formulaSpan?_scans hcs h
  · exact codeSpan?_scans hcs h
  · exact callSpan?_scans _ hcs h
  · exact sizedImage?_scans hcs h
  · exact Reader.Scans.orElse (ownLink?_scans _) rawHtml?_scans hcs h
  · exact lineBreak?_scans hcs h
  · exact lineBreak?_scans hcs h
  · cases h

/-! ## Levels -/

/-- Whether every call in what has been read of a line was read by the scanner. -/
structure LineReading.Scanned (P : List Char → Prop) (r : LineReading) : Prop where
  pieces : ∀ p ∈ r.pieces, p.Scanned P
  brackets : ∀ b ∈ r.brackets, ∀ p ∈ b.before, p.Scanned P

namespace LineReading

variable {r : LineReading}

private theorem scanned_text (raw : List Char) : (Piece.done (.text raw)).Scanned P :=
  Inline.scanned_text raw

private theorem scanned_bracket (b : Bracket) : b.text.Scanned P := scanned_text _

theorem Scanned.flush (h : r.Scanned P) : r.flush.Scanned P := by
  unfold LineReading.flush
  split
  · exact h
  · exact ⟨List.forall_mem_cons.mpr ⟨scanned_text _, h.pieces⟩, h.brackets⟩

theorem Scanned.addPiece (h : r.Scanned P) {p : Piece} (hp : p.Scanned P) :
    (r.addPiece p).Scanned P :=
  ⟨List.forall_mem_cons.mpr ⟨hp, h.flush.pieces⟩, h.flush.brackets⟩

theorem Scanned.openBracket (h : r.Scanned P) (forImage : Bool) (rest : List Char) :
    (r.openBracket forImage rest).Scanned P :=
  ⟨nofun, List.forall_mem_cons.mpr ⟨h.flush.pieces, h.flush.brackets⟩⟩

theorem Scanned.dropBracket (h : r.Scanned P) : r.dropBracket.Scanned P := by
  unfold LineReading.dropBracket
  split
  · exact h
  · next b outer hbrackets =>
      have hall := h.brackets
      rw [hbrackets, List.forall_mem_cons] at hall
      refine ⟨List.forall_mem_append.mpr ⟨h.pieces, List.forall_mem_cons.mpr ⟨?_, hall.1⟩⟩, hall.2⟩
      exact scanned_bracket b

theorem Scanned.dropBrackets (h : r.Scanned P) : r.dropBrackets.Scanned P := by
  have hall : ∀ (bs : List Bracket) (ps : List Piece),
      (∀ b ∈ bs, ∀ p ∈ b.before, p.Scanned P) → (∀ p ∈ ps, p.Scanned P) →
      ∀ p ∈ bs.foldl (fun pieces b => pieces ++ b.text :: b.before) ps, p.Scanned P := by
    intro bs
    induction bs with
    | nil => exact fun ps _ hps => hps
    | cons b bs ih =>
        intro ps hbs hps
        rw [List.forall_mem_cons] at hbs
        refine ih _ hbs.2 (List.forall_mem_append.mpr ⟨hps, List.forall_mem_cons.mpr ⟨?_, hbs.1⟩⟩)
        exact scanned_bracket b
  exact ⟨hall _ _ h.brackets h.pieces, nofun⟩

/-- What stood between brackets becomes the content of a link or of an image. -/
theorem Scanned.closeLink (h : r.Scanned P) {b : Bracket} {outer : List Bracket}
    (hb : r.brackets = b :: outer) (target : Target) :
    (r.closeLink b outer target).Scanned P := by
  have hall := h.brackets
  rw [hb, List.forall_mem_cons] at hall
  have hchildren : ∀ i ∈ resolveEmphasis r.pieces.reverse, i.Scanned P :=
    resolveEmphasis_scanned fun p hp => h.pieces p (List.mem_reverse.mp hp)
  unfold LineReading.closeLink
  dsimp only
  split
  · refine ⟨List.forall_mem_cons.mpr ⟨?_, hall.1⟩, hall.2⟩
    simpa [Piece.Scanned, Piece.plain, Inline.Scanned, Inline.allScanned_iff] using hchildren
  · refine ⟨List.forall_mem_cons.mpr ⟨?_, hall.1⟩, ?_⟩
    · simpa [Piece.Scanned, Piece.plain, Inline.Scanned, Inline.allScanned_iff] using hchildren
    · intro o ho
      obtain ⟨o', ho', rfl⟩ := List.mem_map.mp ho
      split <;> exact hall.2 o' ho'

theorem Scanned.closeBracket (h : r.Scanned P) (refs : References) (after : List Char) :
    (closeBracket refs r after).1.Scanned P := by
  have hpassed : (r.flush.passedChar ']').Scanned P := ⟨h.flush.pieces, h.flush.brackets⟩
  unfold Markdown.closeBracket
  dsimp only
  split
  · exact hpassed.addPiece (scanned_text _)
  · next b outer hbrackets =>
      split
      · next target rest htarget =>
          have hclosed := hpassed.closeLink hbrackets target
          exact ⟨hclosed.pieces, hclosed.brackets⟩
      · exact hpassed.dropBracket.addPiece (scanned_text _)

theorem Scanned.addLeaf (h : r.Scanned P) {i : Inline} (hi : i.Scanned P) :
    (r.addLeaf i).Scanned P := by
  have hadded : (r.addPiece (.done i)).Scanned P := h.addPiece hi
  unfold LineReading.addLeaf
  dsimp only
  split
  · exact ⟨hadded.pieces, hadded.brackets⟩
  · exact hadded

/-- **Each step of reading a line keeps what was scanned.** -/
theorem Scanned.stepInline (h : r.Scanned P) (refs : References) {c : Char}
    {rest : List Char} (hrest : P (c :: rest)) :
    (stepInline refs r c rest).1.Scanned P := by
  unfold Markdown.stepInline
  split
  · next i after hleaf =>
      have hadded := h.addLeaf (leaf?_scans r hrest hleaf)
      exact ⟨hadded.pieces, hadded.brackets⟩
  · split
    · have hmarks := h.addPiece (p := .marks c ((rest.takeWhile (· == c)).length + 1))
        (Inline.scanned_text _)
      exact ⟨hmarks.pieces, hmarks.brackets⟩
    · split
      · have hopened := h.openBracket false rest
        exact ⟨hopened.pieces, hopened.brackets⟩
      · split
        · exact h.closeBracket refs rest
        · split
          · next more _ _ _ _ =>
              have hopened := h.openBracket true more
              exact ⟨hopened.pieces, hopened.brackets⟩
          · exact ⟨h.pieces, h.brackets⟩

theorem Scanned.readFrom (hP : ∀ {cs ds}, P cs → ds <:+ cs → P ds) (h : r.Scanned P)
    (refs : References) (rounds : Nat) {cs : List Char} (hcs : P cs) :
    (readFrom refs rounds r cs).Scanned P := by
  induction rounds generalizing r cs with
  | zero => cases cs <;> exact h
  | succ rounds ih =>
      cases cs with
      | nil => exact h
      | cons c rest =>
          exact ih (h.stepInline refs hcs) (hP hcs (stepInline_suffix refs r c rest))

end LineReading

/-- **Every call head within a line was read by the scanner.** -/
theorem readInline_scanned (hP : ∀ {cs ds}, P cs → ds <:+ cs → P ds) (refs : References)
    {cs : List Char} (hcs : P cs) : ∀ i ∈ readInline refs cs, i.Scanned P := by
  unfold readInline
  split
  · simpa using Inline.scanned_text []
  · have hempty : LineReading.empty.Scanned P :=
      ⟨by simp [LineReading.empty], by simp [LineReading.empty]⟩
    have hread := hempty.readFrom hP refs cs.length hcs
    intro i hi
    refine resolveEmphasis_scanned (fun p hp => ?_) i hi
    exact hread.flush.dropBrackets.pieces p (List.mem_reverse.mp hp)

end Livedoc.Markdown
