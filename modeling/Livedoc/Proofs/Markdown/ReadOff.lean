import Livedoc.Proofs.Markdown.Shown
import Livedoc.Proofs.Text.Blank
import Mathlib.Data.List.TakeWhile

/-!
# What readers show

A reader of one piece takes the start of a text, and the piece shows what was taken, or less of it
(`leaf?_shows`).  Raw HTML is shown as it is written, and so are marks that open nothing; of the other
markup the marks are left out.
-/

namespace Livedoc.Markdown

open Livedoc.Text

variable {cs after part : List Char} {i : Inline}

/-- A piece is no call, and shows the text that it was read off, or less of it. -/
structure Inline.ReadOff (i : Inline) (part : List Char) : Prop where
  nonempty : part ≠ []
  hasCall : i.hasCall = false
  shows : (i.shown = part ∧ i.isPlain = true) ∨ i.shown.length < part.length

theorem Inline.ReadOff.reduces (h : i.ReadOff part) : Reduces [text part] [i] where
  calls _ := by rw [anyCall, anyCall, h.hasCall, Bool.or_false]
  shows := by
    simp only [shownAll, shown, List.append_nil, List.all_cons, List.all_nil, Bool.and_true]
    exact h.shows.imp_left (And.imp_right fun hplain _ => hplain)

/-- What a reader of one piece takes is the start of its text, and the piece is read off it. -/
def Reader.Shows (read : Reader) : Prop :=
  ∀ {cs i after}, read cs = some (i, after) → ∃ part, cs = part ++ after ∧ i.ReadOff part

theorem Reader.Shows.orElse {first second : Reader} (hfirst : Shows first)
    (hsecond : Shows second) : Shows fun cs => (first cs).orElse fun _ => second cs := by
  intro cs i after h
  dsimp only at h
  cases hread : first cs with
  | none => exact hsecond (by rwa [hread] at h)
  | some found =>
      rw [hread] at h
      cases h
      exact hfirst hread

/-- A piece that shows less than was taken. -/
theorem exists_readOff (hafter : after <:+ cs) (hcall : i.hasCall = false)
    (h : i.shown.length + after.length < cs.length) : ∃ part, cs = part ++ after ∧ i.ReadOff part := by
  obtain ⟨part, rfl⟩ := hafter
  rw [List.length_append] at h
  have hless : i.shown.length < part.length := by omega
  refine ⟨part, rfl, ?_, hcall, .inr hless⟩
  rintro rfl
  simp at hless

theorem length_takeEscapes (cs : List Char) :
    2 * (takeEscapes cs).1.length + (takeEscapes cs).2.length = cs.length := by
  fun_induction takeEscapes cs with
  | case1 c rest hc taken after hsplit ih =>
      rw [hsplit] at ih
      simp only [List.length_cons] at ih ⊢
      omega
  | case2 => simp
  | case3 => simp

theorem escapes?_shows : Reader.Shows escapes? := by
  intro cs i after h
  have hleaves := escapes?_leaves h
  have hlength := length_takeEscapes cs
  unfold escapes? at h
  split at h
  · cases h
  · next taken after' hne hsplit =>
      cases h
      rw [hsplit] at hlength
      have hpos : 0 < taken.length := List.length_pos_iff.mpr fun hnil => hne hnil
      refine exists_readOff hleaves rfl ?_
      show taken.length + _ < _
      simp only at hlength
      omega

theorem length_trimStart_le (cs : List Char) : (trimStart cs).length ≤ cs.length :=
  (List.dropWhile_suffix _).length_le

theorem length_trim_le (cs : List Char) : (trim cs).length ≤ cs.length :=
  Nat.le_trans (prefix_dropEndWhile _ _).length_le (List.dropWhile_suffix _).length_le

/-- A line break takes its spaces and the newline, and white space after it. -/
theorem afterBreak?_eq_some {indent : Nat} (h : afterBreak? cs = some (indent, after)) :
    (cs.drop indent).head? = some '\n' ∧ indent + 1 + after.length ≤ cs.length := by
  unfold afterBreak? at h
  dsimp only at h
  split at h
  · next rest hrest =>
      cases h
      have hlength := congrArg List.length hrest
      have htrim := length_trimStart_le rest
      simp only [List.length_drop, List.length_cons] at hlength
      exact ⟨by rw [hrest]; rfl, by omega⟩
  · cases h

theorem lineBreak?_shows : Reader.Shows lineBreak? := by
  intro cs i after h
  have hleaves := lineBreak?_leaves h
  unfold lineBreak? at h
  split at h
  · next rest =>
      cases h
      have htrim := length_trimStart_le rest
      refine exists_readOff hleaves rfl ?_
      show 1 + _ < _
      simp only [List.length_cons]
      omega
  · obtain ⟨⟨indent, after'⟩, hbreak, heq⟩ := Option.map_eq_some_iff.mp h
    cases heq
    obtain ⟨hnewline, hlength⟩ := afterBreak?_eq_some hbreak
    split
    · refine exists_readOff hleaves rfl ?_
      show 1 + _ < _
      omega
    · -- A break without spaces around it is shown as it is.
      by_cases hlong : 1 + after.length < cs.length
      · exact exists_readOff hleaves rfl hlong
      · obtain ⟨part, rfl⟩ := hleaves
        rw [List.length_append] at hlength hlong
        obtain rfl : indent = 0 := by omega
        obtain ⟨c, rfl⟩ := List.length_eq_one_iff.mp (show part.length = 1 by omega)
        obtain rfl : c = '\n' := by simpa using hnewline
        exact ⟨['\n'], rfl, by simp, rfl, .inl ⟨rfl, rfl⟩⟩

/-! ### Code -/

theorem length_takeCode? {count ticks : Nat} {code : List Char}
    (h : takeCode? count ticks cs = some (code, after)) :
    code.length + count + after.length = cs.length + ticks := by
  fun_induction takeCode? count ticks cs generalizing code with
    grind [Option.map_eq_some_iff]

theorem length_trimCode_le (cs : List Char) : (trimCode cs).length ≤ cs.length := by
  unfold trimCode
  grind

/-- A run of one character. -/
theorem takeWhile_eq_replicate (c : Char) (cs : List Char) :
    cs.takeWhile (· == c) = List.replicate (cs.takeWhile (· == c)).length c :=
  List.eq_replicate_of_mem fun _ hd => by simpa using List.mem_takeWhile_imp hd

theorem codeSpan?_shows : Reader.Shows codeSpan? := by
  intro cs i after h
  have hleaves := codeSpan?_leaves h
  have hsplit : cs.takeWhile (· == '\x60') ++ cs.drop (cs.takeWhile (· == '\x60')).length = cs := by
    rw [drop_length_takeWhile, List.takeWhile_append_dropWhile]
  unfold codeSpan? at h
  dsimp only at h
  split at h
  · cases h
  · next hcount =>
      split at h
      · next code after' hcode =>
          cases h
          refine exists_readOff hleaves rfl ?_
          have hlength := length_takeCode? hcode
          have htrim := length_trimCode_le code
          rw [List.length_drop] at hlength
          show (trimCode code).length + _ < _
          omega
      · cases h
        rw [← takeWhile_eq_replicate]
        refine ⟨_, hsplit.symm, ?_, rfl, .inl ⟨rfl, rfl⟩⟩
        rw [ne_eq, ← List.length_eq_zero_iff]
        exact hcount

/-! ### Formulas -/

theorem length_takeFormula? {multiline : Bool} {formula : List Char}
    (h : takeFormula? multiline cs = some (formula, after)) :
    formula.length + 1 + after.length = cs.length := by
  fun_induction takeFormula? multiline cs generalizing formula with
    grind [Option.map_eq_some_iff]

theorem length_splitAtMarker? {marker before : List Char}
    (h : splitAtMarker? marker cs = some (before, after)) :
    before.length + marker.length + after.length = cs.length := by
  fun_induction splitAtMarker? marker cs generalizing before with
    grind [Option.map_eq_some_iff]

theorem displayFormula?_shows : Reader.Shows displayFormula? := by
  intro cs i after h
  have hleaves := displayFormula?_leaves h
  unfold displayFormula? at h
  split at h
  · next rest =>
      split at h
      · next formula after' hformula =>
          cases h
          have hlength := length_takeFormula? hformula
          have htrim := length_trim_le formula
          refine exists_readOff hleaves rfl ?_
          show (trim formula).length + _ < _
          simp only [List.length_cons] at hlength ⊢
          omega
      · cases h
  · cases h

theorem tickedFormulaWith?_eq_some {count : Nat} (h : tickedFormulaWith? count cs = some (i, after)) :
    ∃ formula, i = .math formula false ∧ formula.length + after.length < cs.length := by
  induction count with
  | zero => cases h
  | succ count ih =>
      unfold tickedFormulaWith? at h
      dsimp only at h
      split at h
      · next formula after' hformula =>
          cases h
          have hlength := length_splitAtMarker? hformula
          simp only [List.length_append, List.length_replicate, List.length_drop,
            List.length_singleton] at hlength
          exact ⟨formula, rfl, by omega⟩
      · exact ih h

theorem tickedFormula?_shows : Reader.Shows tickedFormula? := by
  intro cs i after h
  have hleaves := tickedFormula?_leaves h
  unfold tickedFormula? at h
  split at h
  · next rest =>
      obtain ⟨formula, rfl, hlength⟩ := tickedFormulaWith?_eq_some h
      refine exists_readOff hleaves rfl ?_
      show formula.length + _ < _
      rw [List.length_cons]
      omega
  · cases h

theorem plainFormula?_shows : Reader.Shows plainFormula? := by
  intro cs i after h
  have hleaves := plainFormula?_leaves h
  unfold plainFormula? at h
  split at h
  · next c rest =>
      split at h
      · cases h
      · split at h
        · next formula after' hformula =>
            split at h
            · cases h
            · cases h
              have hlength := length_takeFormula? hformula
              refine exists_readOff hleaves rfl ?_
              show formula.length + _ < _
              simp only [List.length_cons] at hlength ⊢
              omega
        · cases h
  · cases h

theorem formulaSpan?_shows : Reader.Shows formulaSpan? :=
  displayFormula?_shows.orElse (tickedFormula?_shows.orElse plainFormula?_shows)

/-! ### Addresses, raw HTML and images -/

/-- What a text starts with, and the rest. -/
theorem eq_takeWhile_append_of_drop {p : Char → Bool} {rest : List Char}
    (h : cs.drop (cs.takeWhile p).length = rest) : cs = cs.takeWhile p ++ rest := by
  rw [← h, drop_length_takeWhile, List.takeWhile_append_dropWhile]

theorem autoAddress?_eq_some {address : List Char} (h : autoAddress? cs = some (address, after)) :
    cs = '<' :: (address ++ '>' :: after) := by
  unfold autoAddress? at h
  split at h
  · next c rest =>
      dsimp only at h
      split at h
      · split at h
        · next body hbody =>
            split at h
            · next after' hafter =>
                cases h
                have hscheme := eq_takeWhile_append_of_drop hbody
                have hpath := eq_takeWhile_append_of_drop hafter
                have hrest := hscheme.trans (congrArg (_ ++ ':' :: ·) hpath)
                simpa using hrest
            · cases h
        · cases h
      · cases h
  · cases h

theorem mailAddress?_eq_some {address : List Char} (h : mailAddress? cs = some (address, after)) :
    cs = '<' :: (address ++ '>' :: after) := by
  unfold mailAddress? at h
  split at h
  · next rest =>
      dsimp only at h
      split at h
      · next body hbody =>
          split at h
          · next after' hafter =>
              split at h
              · cases h
                have hmailbox := eq_takeWhile_append_of_drop hbody
                have hhost := eq_takeWhile_append_of_drop hafter
                have hrest := hmailbox.trans (congrArg (_ ++ '@' :: ·) hhost)
                simpa using hrest
              · cases h
          · cases h
      · cases h
  · cases h

/-- An address is shown without its brackets if it becomes a link, and else with them. -/
theorem ownLink?_shows (linksAllowed : Bool) : Reader.Shows (ownLink? linksAllowed) := by
  intro cs i after h
  obtain ⟨⟨scheme, address, after'⟩, hfound, heq⟩ := Option.map_eq_some_iff.mp h
  have hcs : cs = '<' :: (address ++ '>' :: after') := by
    cases hauto : autoAddress? cs with
    | some found =>
        rw [hauto] at hfound
        cases hfound
        exact autoAddress?_eq_some hauto
    | none =>
        rw [hauto] at hfound
        obtain ⟨found, hmail, heq⟩ := Option.map_eq_some_iff.mp hfound
        cases heq
        exact mailAddress?_eq_some hmail
  refine ⟨'<' :: (address ++ ['>']), ?_⟩
  dsimp only at heq
  split at heq
  · cases heq
    refine ⟨by simp [hcs], by simp, rfl, .inr ?_⟩
    simp only [ownLink, Inline.shown, Inline.shownAll, List.length_append, List.length_cons,
      List.length_nil]
    omega
  · cases heq
    exact ⟨by simp [hcs], by simp, rfl, .inl ⟨rfl, rfl⟩⟩

theorem length_afterRawHtml? (h : afterRawHtml? cs = some after) : after.length < cs.length := by
  have hmarker {marker ds : List Char} (h : Html.afterMarker? marker ds = some after) :
      after.length ≤ ds.length := (Html.afterMarker?_suffix h).length_le
  have htag {ds : List Char} {afterTag : List Char → Option (List Char)}
      (hafter : ∀ {es}, afterTag es = some after → after.length ≤ es.length)
      (h : ((Html.tagName? ds).bind fun named => afterTag named.2) = some after) :
      after.length ≤ ds.length := by
    obtain ⟨⟨name, rest⟩, hname, hrest⟩ := Option.bind_eq_some_iff.mp h
    exact Nat.le_trans (hafter hrest) (Html.tagName?_suffix hname).length_le
  unfold afterRawHtml? at h
  split at h
  · next rest =>
      have hcomment : after.length ≤ rest.length := by
        split at h
        · cases h
          simp
        · cases h
          simp only [List.length_cons]
          omega
        · exact hmarker h
      simp only [List.length_cons]
      omega
  · exact Nat.lt_succ_of_le (Nat.le_succ_of_le (hmarker h))
  · next rest =>
      split at h
      · have := hmarker h
        simp only [List.length_drop, List.length_cons] at this ⊢
        omega
      · cases h
  · split at h
    · have := hmarker h
      simp only [List.length_cons]
      omega
    · cases h
  · have := htag (fun h => (Html.afterCloseTag?_suffix h).length_le) h
    simp only [List.length_cons]
    omega
  · have := htag (fun h => (Html.afterOpenTag?_suffix h).length_le) h
    simp only [List.length_cons]
    omega
  · cases h

theorem rawHtml?_shows : Reader.Shows rawHtml? := by
  intro cs i after h
  obtain ⟨after', hhtml, heq⟩ := Option.map_eq_some_iff.mp h
  cases heq
  have hlength := length_afterRawHtml? hhtml
  obtain ⟨part, rfl⟩ := afterRawHtml?_suffix hhtml
  refine ⟨part, rfl, ?_, rfl, .inl ⟨?_, rfl⟩⟩
  · rintro rfl
    simp at hlength
  · show List.take _ _ = part
    simp

theorem SizedImage.takeUntil?_eq_some {stop : Char} {allowed : Char → Bool} {taken : List Char}
    (h : takeUntil? stop allowed cs = some (taken, after)) : cs = taken ++ stop :: after := by
  unfold takeUntil? at h
  dsimp only at h
  split at h
  · next c rest hrest =>
      split at h
      · next hc =>
          cases h
          subst hc
          exact eq_takeWhile_append_of_drop hrest
      · cases h
  · cases h

/-- The measures of an image stand on either side of an asterisk. -/
theorem SizedImage.mem_of_take? {found : SizedImage × List Char} (h : SizedImage.take? cs = some found) :
    '*' ∈ cs := by
  unfold SizedImage.take? at h
  split at h
  · simp only [Option.bind_eq_bind, Option.bind_eq_some_iff] at h
    obtain ⟨⟨width, rest⟩, hwidth, -⟩ := h
    rw [SizedImage.takeUntil?_eq_some hwidth]
    simp
  · cases h

/-- An image with measures shows its description, which stands between brackets. -/
theorem SizedImage.length_alt {image : SizedImage} (h : SizedImage.take? cs = some (image, after)) :
    image.alt.toList.length + after.length < cs.length := by
  unfold SizedImage.take? at h
  split at h
  · simp only [Option.bind_eq_bind, Option.bind_eq_some_iff] at h
    obtain ⟨⟨width, rest⟩, hwidth, ⟨height, rest'⟩, hheight, h⟩ := h
    dsimp only at hheight h
    split at h
    · simp only [Option.bind_eq_some_iff] at h
      obtain ⟨⟨alt, rest''⟩, halt, h⟩ := h
      dsimp only at h
      split at h
      · simp only [Option.bind_eq_some_iff] at h
        obtain ⟨⟨source, title, after'⟩, htarget, h⟩ := h
        cases h
        have hafter := (SizedImage.takeTarget?_suffix htarget).length_le
        rw [SizedImage.takeUntil?_eq_some hwidth, SizedImage.takeUntil?_eq_some hheight,
          SizedImage.takeUntil?_eq_some halt, String.toList_ofList]
        simp only [List.length_append, List.length_cons]
        omega
      · cases h
    · cases h
  · cases h

theorem sizedImage?_shows : Reader.Shows sizedImage? := by
  intro cs i after h
  have hleaves := sizedImage?_leaves h
  obtain ⟨⟨image, after'⟩, himage, heq⟩ := Option.map_eq_some_iff.mp h
  cases heq
  exact exists_readOff hleaves rfl (SizedImage.length_alt himage)

/-! ### All leaves -/

/-- What stands at the start of a text without inner markup shows what it was read off, or less of
it, if it is no call. -/
theorem leaf?_shows {r : LineReading} (hcall : callSpan? r.previous cs = none)
    (h : leaf? r cs = some (i, after)) : ∃ part, cs = part ++ after ∧ i.ReadOff part := by
  unfold leaf? at h
  split at h
  · exact escapes?_shows.orElse lineBreak?_shows h
  · exact formulaSpan?_shows h
  · exact codeSpan?_shows h
  · rw [hcall] at h
    cases h
  · exact sizedImage?_shows h
  · exact Reader.Shows.orElse (ownLink?_shows _) rawHtml?_shows h
  · exact lineBreak?_shows h
  · exact lineBreak?_shows h
  · cases h

end Livedoc.Markdown
