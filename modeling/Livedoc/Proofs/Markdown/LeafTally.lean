import Livedoc.Proofs.Call.Grammar
import Livedoc.Proofs.Markdown.Rest
import Livedoc.Proofs.Text.Tally

/-!
# Brackets in leaves

The weight of a piece is the number of opening brackets in the texts that it shows.  A reader of
pieces without inner markup takes them from the start of a text, so what it gives and what it leaves
have no more brackets than the text (`leaf?_conserves`).  So it is with the head of a call, whose
groups stand one after the other (`tally_groups_headAt?`).
-/

/-! ## The groups of a head -/

namespace Livedoc.Call

open Livedoc.Text

variable {text cs : List Char} {offset last : Nat} {groups : List Group}

/-- The number of opening brackets in the values of groups. -/
def tallyGroups (groups : List Group) : Nat := tallyAll (groups.map (·.value.toList))

theorem unescapeBraces_sublist (cs : List Char) : (unescapeBraces cs).Sublist cs := by
  fun_induction unescapeBraces cs with
  | case1 => exact List.Sublist.slnil
  | case2 rest ih | case3 rest ih => exact (ih.cons_cons _).cons _
  | case4 c rest _ _ ih => exact ih.cons_cons c

/-- The value of a group is taken out of its text. -/
theorem Group.StandsFor.tally_le {g : Group} (h : g.StandsFor text) :
    tally g.value.toList ≤ tally text := by
  obtain ⟨inner, ⟨-, rfl⟩, -, hvalue⟩ := h
  have hinner := tally_le_of_sublist (unescapeBraces_sublist inner)
  rw [hvalue, String.toList_ofList]
  simp only [tally_append, tally_cons_of_ne (show '{' ≠ '[' by decide)]
  omega

/-- **Groups that stand one after the other have no more brackets than the text that they take.** -/
theorem Lists.tally_le (h : Lists text offset groups last) :
    tallyGroups groups + tally (text.drop last) ≤ tally (text.drop offset) := by
  induction h with
  | nil offset => exact Nat.le_of_eq (Nat.zero_add _)
  | @cons offset last g others start_le start_lt stop_le gap own rest ih =>
      have hvalue := own.tally_le
      have hgap : text.drop offset = Call.slice text offset g.start ++ text.drop g.start :=
        drop_eq_slice_append start_le text
      have hown : text.drop g.start = Call.slice text g.start g.stop ++ text.drop g.stop :=
        drop_eq_slice_append start_lt.le text
      have hgroups : tallyGroups (g :: others) = tally g.value.toList + tallyGroups others :=
        tallyAll_cons _ _
      rw [hgap, hown, tally_append, tally_append, hgroups]
      omega

/-- **A head has no more brackets in its groups than in its text.** -/
theorem tally_groups_headAt? {head : Head} (h : headAt? 0 cs = some head)
    (hclosed : head.unterminated = false) :
    tallyGroups head.groups + tally (cs.drop head.stop) ≤ tally cs := by
  obtain ⟨last, hstands, hstop⟩ := scan_eq_some_iff.mp (show scan cs 0 = some head from h)
  rw [hclosed] at hstop
  have hgroups := hstands.groups.tally_le
  have hfront := tally_drop_le head.nameStop cs
  rw [hstop.1]
  omega

/-- The groups without a key and those with one are all groups. -/
theorem tallyGroups_positional_add_keyed (head : Head) :
    tallyGroups head.positional + tallyGroups head.keyed = tallyGroups head.groups := by
  rw [Head.positional, Head.keyed]
  induction head.groups with
  | nil => rfl
  | cons g groups ih =>
      have hgroups (others : List Group) :
          tallyGroups (g :: others) = tally g.value.toList + tallyGroups others :=
        tallyAll_cons _ _
      cases hkey : g.key <;> simp [hkey, hgroups] <;> omega

end Livedoc.Call

namespace Livedoc.Markdown

open Livedoc.Call Livedoc.Text

variable {cs ds after : List Char} {c : Char}

/-! ## The weight of a piece -/

namespace Inline

mutual

/-- The number of opening brackets in the texts that a piece shows. -/
def weight : Inline → Nat
  | text raw | escaped raw | code raw | math raw _ | html raw => tally raw
  | softBreak | hardBreak | sizedImage _ => 0
  | emphasis _ children | link _ _ children | image _ _ children => weightAll children
  | call head raw => if head.unterminated then tally raw else tallyGroups head.groups

/-- The number of opening brackets in the texts that several pieces show. -/
def weightAll : List Inline → Nat
  | [] => 0
  | i :: rest => i.weight + weightAll rest

end

@[simp]
theorem weightAll_append (is js : List Inline) :
    weightAll (is ++ js) = weightAll is + weightAll js := by
  induction is with
  | nil => simp [weightAll]
  | cons i rest ih =>
      rw [List.cons_append, weightAll, weightAll, ih]
      omega

@[simp]
theorem weightAll_reverse (is : List Inline) : weightAll is.reverse = weightAll is := by
  induction is with
  | nil => rfl
  | cons i rest ih =>
      rw [List.reverse_cons, weightAll_append, ih]
      simp only [weightAll]
      omega

end Inline

/-! ## What readers take -/

/-- What a reader gives and what it leaves have no more opening brackets than its text. -/
def Reader.Conserves (read : Reader) : Prop :=
  ∀ {cs i after}, read cs = some (i, after) → i.weight + tally after ≤ tally cs

theorem Reader.Conserves.orElse {first second : Reader} (hfirst : Conserves first)
    (hsecond : Conserves second) : Conserves fun cs => (first cs).orElse fun _ => second cs := by
  intro cs i after h
  dsimp only at h
  cases hread : first cs with
  | none => exact hsecond (by rwa [hread] at h)
  | some found =>
      rw [hread] at h
      cases h
      exact hfirst hread

theorem tally_takeWhile_add_drop (p : Char → Bool) (cs : List Char) :
    tally (cs.takeWhile p) + tally (cs.drop (cs.takeWhile p).length) = tally cs := by
  rw [drop_length_takeWhile, ← tally_append, List.takeWhile_append_dropWhile]

/-- The start of a text and the end that is left are the text. -/
theorem tally_take_of_suffix (h : after <:+ cs) :
    tally (cs.take (cs.length - after.length)) + tally after = tally cs := by
  obtain ⟨part, rfl⟩ := h
  rw [List.length_append, Nat.add_sub_cancel, List.take_left, tally_append]

theorem tally_takeEscapes_le (cs : List Char) :
    tally (takeEscapes cs).1 + tally (takeEscapes cs).2 ≤ tally cs := by
  fun_induction takeEscapes cs with
  | case1 c rest hc taken after hsplit ih =>
      rw [hsplit] at ih
      simp only [tally_cons] at ih ⊢
      omega
  | case2 => simp
  | case3 => simp

theorem escapes?_conserves : Reader.Conserves escapes? := by
  intro cs i after h
  have htally := tally_takeEscapes_le cs
  unfold escapes? at h
  split at h
  · cases h
  · next taken after' hne hsplit =>
      cases h
      rw [hsplit] at htally
      rw [Inline.weight]
      exact htally

theorem lineBreak?_conserves : Reader.Conserves lineBreak? := by
  intro cs i after h
  have hafter := tally_le_of_suffix (lineBreak?_leaves h)
  unfold lineBreak? at h
  split at h
  · cases h
    rw [Inline.weight]
    omega
  · obtain ⟨⟨indent, after'⟩, -, heq⟩ := Option.map_eq_some_iff.mp h
    cases heq
    split <;> rw [Inline.weight] <;> omega

/-! ### Code -/

theorem tally_takeCode?_le {count ticks : Nat} {code : List Char}
    (h : takeCode? count ticks cs = some (code, after)) : tally code + tally after ≤ tally cs := by
  fun_induction takeCode? count ticks cs generalizing code with
    grind [Option.map_eq_some_iff, tally_cons, tally_append, tally_replicate, tally_nil]

theorem tally_trimCode_le (cs : List Char) : tally (trimCode cs) ≤ tally cs := by
  have hspaces : tally (cs.map fun c => if c == '\n' then ' ' else c) = tally cs := by
    induction cs with
    | nil => rfl
    | cons c cs ih =>
        rw [List.map_cons, tally_cons, tally_cons, ih]
        by_cases hc : c = '\n' <;> simp [hc]
  unfold trimCode
  dsimp only
  split
  · rw [← hspaces]
    exact tally_le_of_sublist ((List.dropLast_sublist _).trans (List.tail_sublist _))
  · exact hspaces.le

theorem codeSpan?_conserves : Reader.Conserves codeSpan? := by
  intro cs i after h
  have hrest := tally_drop_le (cs.takeWhile (· == '\x60')).length cs
  unfold codeSpan? at h
  dsimp only at h
  split at h
  · cases h
  · split at h
    · next code after' hcode =>
        cases h
        have htally := tally_takeCode?_le hcode
        have htrim := tally_trimCode_le code
        rw [Inline.weight]
        omega
    · cases h
      rw [Inline.weight, tally_replicate (by decide), Nat.zero_add]
      exact hrest

/-! ### Formulas -/

theorem tally_takeFormula?_le {multiline : Bool} {formula : List Char}
    (h : takeFormula? multiline cs = some (formula, after)) :
    tally formula + tally after ≤ tally cs := by
  fun_induction takeFormula? multiline cs generalizing formula with
    grind [Option.map_eq_some_iff, tally_cons, tally_nil]

theorem tally_splitAtMarker?_le {marker before : List Char}
    (h : splitAtMarker? marker cs = some (before, after)) :
    tally before + tally after ≤ tally cs := by
  fun_induction splitAtMarker? marker cs generalizing before with
    grind [Option.map_eq_some_iff, tally_cons, tally_nil, tally_drop_le]

theorem displayFormula?_conserves : Reader.Conserves displayFormula? := by
  intro cs i after h
  unfold displayFormula? at h
  split at h
  · next rest =>
      split at h
      · next formula after' hformula =>
          cases h
          have htally := tally_takeFormula?_le hformula
          simp only [Inline.weight, tally_cons] at htally ⊢
          omega
      · cases h
  · cases h

theorem tickedFormulaWith?_conserves (count : Nat) :
    Reader.Conserves (tickedFormulaWith? count) := by
  induction count with
  | zero => nofun
  | succ count ih =>
      intro cs i after h
      unfold tickedFormulaWith? at h
      dsimp only at h
      split at h
      · next formula after' hformula =>
          cases h
          have htally := tally_splitAtMarker?_le hformula
          have hrest := tally_drop_le (count + 1) cs
          rw [Inline.weight]
          omega
      · exact ih h

theorem tickedFormula?_conserves : Reader.Conserves tickedFormula? := by
  intro cs i after h
  unfold tickedFormula? at h
  split at h
  · next rest =>
      have htally := tickedFormulaWith?_conserves _ h
      rw [tally_cons]
      omega
  · cases h

theorem plainFormula?_conserves : Reader.Conserves plainFormula? := by
  intro cs i after h
  unfold plainFormula? at h
  split at h
  · next c rest =>
      split at h
      · cases h
      · split at h
        · next formula after' hformula =>
            split at h
            · cases h
            · cases h
              have htally := tally_takeFormula?_le hformula
              rw [Inline.weight, tally_cons '$']
              omega
        · cases h
  · cases h

theorem formulaSpan?_conserves : Reader.Conserves formulaSpan? :=
  displayFormula?_conserves.orElse (tickedFormula?_conserves.orElse plainFormula?_conserves)

/-! ### Angle brackets -/

theorem tally_autoAddress?_le {address : List Char}
    (h : autoAddress? cs = some (address, after)) : tally address + tally after ≤ tally cs := by
  unfold autoAddress? at h
  grind [tally_cons, tally_append, tally_takeWhile_add_drop]

theorem tally_mailAddress?_le {address : List Char}
    (h : mailAddress? cs = some (address, after)) : tally address + tally after ≤ tally cs := by
  unfold mailAddress? at h
  grind [tally_cons, tally_append, tally_takeWhile_add_drop]

theorem ownLink?_conserves (linksAllowed : Bool) : Reader.Conserves (ownLink? linksAllowed) := by
  intro cs i after h
  unfold ownLink? at h
  obtain ⟨⟨scheme, shown, after'⟩, hfound, heq⟩ := Option.map_eq_some_iff.mp h
  have htally : tally shown + tally after' ≤ tally cs := by
    cases hauto : autoAddress? cs with
    | some found =>
        rw [hauto] at hfound
        cases hfound
        exact tally_autoAddress?_le hauto
    | none =>
        rw [hauto] at hfound
        obtain ⟨found, hmail, heq⟩ := Option.map_eq_some_iff.mp hfound
        cases heq
        exact tally_mailAddress?_le hmail
  cases linksAllowed with
  | true =>
      cases heq
      simpa [ownLink, Inline.weight, Inline.weightAll] using htally
  | false =>
      cases heq
      simpa [Inline.weight] using htally

theorem rawHtml?_conserves : Reader.Conserves rawHtml? := by
  intro cs i after h
  unfold rawHtml? at h
  obtain ⟨after', hafter, heq⟩ := Option.map_eq_some_iff.mp h
  cases heq
  rw [Inline.weight]
  exact (tally_take_of_suffix (afterRawHtml?_suffix hafter)).le

/-! ### Calls and images -/

theorem callSpan?_conserves (previous : Option Char) :
    Reader.Conserves (callSpan? previous) := by
  intro cs i after h
  unfold callSpan? at h
  split at h
  · obtain ⟨head, hhead, heq⟩ := Option.map_eq_some_iff.mp h
    cases heq
    rw [Inline.weight]
    cases hclosed : head.unterminated with
    | true => exact (tally_take_add_drop _ _).le
    | false => exact tally_groups_headAt? hhead hclosed
  · cases h

theorem sizedImage?_conserves : Reader.Conserves sizedImage? := by
  intro cs i after h
  have hafter := tally_le_of_suffix (sizedImage?_leaves h)
  unfold sizedImage? at h
  obtain ⟨⟨image, after'⟩, -, heq⟩ := Option.map_eq_some_iff.mp h
  cases heq
  rw [Inline.weight]
  omega

/-- **A piece without inner markup has no brackets but those that it takes.** -/
theorem leaf?_conserves (r : LineReading) : Reader.Conserves (leaf? r) := by
  intro cs i after h
  unfold leaf? at h
  split at h
  · exact escapes?_conserves.orElse lineBreak?_conserves h
  · exact formulaSpan?_conserves h
  · exact codeSpan?_conserves h
  · exact callSpan?_conserves _ h
  · exact sizedImage?_conserves h
  · exact Reader.Conserves.orElse (ownLink?_conserves _) rawHtml?_conserves h
  · exact lineBreak?_conserves h
  · exact lineBreak?_conserves h
  · cases h

end Livedoc.Markdown
