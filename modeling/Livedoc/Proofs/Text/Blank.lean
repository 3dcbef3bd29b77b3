import Livedoc.Text.Blank

/-!
# Trimming

What trimming leaves is a stretch of the text, and trimming stops at the first character
that is to stay.  What follows the characters at the start that satisfy a test is the text
without as many characters.
-/

namespace Livedoc.Text

variable {p : Char → Bool} {cs : List Char}

/-- Spaces and tabs are white space. -/
theorem isBlank_of_isGap {c : Char} (h : isGap c = true) : isBlank c = true := by
  rw [isGap, Bool.or_eq_true, beq_iff_eq, beq_iff_eq] at h
  rcases h with rfl | rfl <;> decide

/-- Dropping as many elements as satisfy a test at the start is dropping these. -/
theorem drop_length_takeWhile {α : Type} (p : α → Bool) (l : List α) :
    l.drop (l.takeWhile p).length = l.dropWhile p := by
  induction l with
  | nil => rfl
  | cons a l ih =>
      by_cases ha : p a = true
      · rw [List.takeWhile_cons_of_pos ha, List.dropWhile_cons_of_pos ha, List.length_cons,
          List.drop_succ_cons, ih]
      · rw [List.takeWhile_cons_of_neg ha, List.dropWhile_cons_of_neg ha]
        rfl

theorem dropEndWhile_cons (p : Char → Bool) (c : Char) (cs : List Char) :
    dropEndWhile p (c :: cs) =
      if (dropEndWhile p cs).isEmpty && p c then [] else c :: dropEndWhile p cs := rfl

/-- The end of a text is dropped and nothing else. -/
theorem prefix_dropEndWhile (p : Char → Bool) (cs : List Char) : dropEndWhile p cs <+: cs := by
  induction cs with
  | nil => exact List.prefix_refl []
  | cons c cs ih =>
      rw [dropEndWhile_cons]
      split
      · exact List.nil_prefix
      · exact (List.prefix_cons_inj c).mpr ih

/-- What is dropped at the end of a text satisfies the test. -/
theorem exists_eq_dropEndWhile_append (p : Char → Bool) (cs : List Char) :
    ∃ after, (∀ c ∈ after, p c = true) ∧ cs = dropEndWhile p cs ++ after := by
  induction cs with
  | nil => exact ⟨[], nofun, rfl⟩
  | cons c cs ih =>
      obtain ⟨after, hafter, hcs⟩ := ih
      rw [dropEndWhile_cons]
      split
      · next hgone =>
          rw [Bool.and_eq_true, List.isEmpty_iff] at hgone
          rw [hgone.1, List.nil_append] at hcs
          refine ⟨c :: after, List.forall_mem_cons.mpr ⟨hgone.2, hafter⟩, ?_⟩
          rw [List.nil_append, ← hcs]
      · exact ⟨after, hafter, by rw [List.cons_append, ← hcs]⟩

/-- Nothing is dropped from a character on that is to stay. -/
theorem dropWhile_append_cons {c : Char} (hc : p c = false) (before after : List Char) :
    (before ++ c :: after).dropWhile p = before.dropWhile p ++ c :: after := by
  induction before with
  | nil => exact List.dropWhile_cons_of_neg (by simp [hc])
  | cons b before ih =>
      rw [List.cons_append, List.dropWhile_cons, List.dropWhile_cons, ih]
      split <;> rfl

/-- Nothing is dropped up to a character that is to stay. -/
theorem dropEndWhile_append_cons {c : Char} (hc : p c = false) (before after : List Char) :
    dropEndWhile p (before ++ c :: after) = before ++ c :: dropEndWhile p after := by
  induction before with
  | nil => rw [List.nil_append, dropEndWhile_cons, hc, Bool.and_false]; rfl
  | cons b before ih =>
      rw [List.cons_append, dropEndWhile_cons, ih, if_neg (by simp)]
      rfl

/-- A character at the end that is to go. -/
theorem dropEndWhile_append_singleton {c : Char} (hc : p c = true) (cs : List Char) :
    dropEndWhile p (cs ++ [c]) = dropEndWhile p cs := by
  induction cs with
  | nil =>
      rw [List.nil_append, dropEndWhile_cons, hc]
      rfl
  | cons first cs ih => rw [List.cons_append, dropEndWhile_cons, dropEndWhile_cons, ih]

theorem dropEndWhile_of_all (h : ∀ c ∈ cs, p c = true) : dropEndWhile p cs = [] := by
  induction cs with
  | nil => rfl
  | cons c cs ih =>
      rw [dropEndWhile_cons, ih fun x hx => h x (by simp [hx]), h c (by simp)]
      rfl

theorem trimWhile_isInfix (p : Char → Bool) (cs : List Char) : trimWhile p cs <:+: cs :=
  (prefix_dropEndWhile p _).isInfix.trans (List.dropWhile_suffix p).isInfix

/-- What is left of a text does not reach to its last character if this is to go. -/
theorem trimWhile_append_isInfix {c : Char} (hc : p c = true) (cs : List Char) :
    trimWhile p (cs ++ [c]) <:+: cs := by
  unfold trimWhile
  rw [List.dropWhile_append]
  split
  · rw [dropEndWhile_of_all fun d hd => ?_]
    · exact List.nil_infix
    · rw [List.mem_singleton.mp ((List.dropWhile_sublist p).subset hd)]
      exact hc
  · rw [dropEndWhile_append_singleton hc]
    exact trimWhile_isInfix p cs

/-- Nothing is trimmed where nothing is to go. -/
theorem trimWhile_of_none (h : ∀ c ∈ cs, p c = false) : trimWhile p cs = cs := by
  have hend : ∀ cs : List Char, (∀ c ∈ cs, p c = false) → dropEndWhile p cs = cs := by
    intro cs h
    induction cs with
    | nil => rfl
    | cons c cs ih =>
        rw [dropEndWhile_cons, ih fun x hx => h x (by simp [hx]), h c (by simp), Bool.and_false]
        rfl
  have hstart : cs.dropWhile p = cs := by
    cases cs with
    | nil => rfl
    | cons c cs => exact List.dropWhile_cons_of_neg (by simp [h c])
  rw [trimWhile, hstart, hend cs h]

/-- **Trimming leaves what is not to be trimmed**: a run of such a character between characters
that are to go. -/
theorem trimWhile_append_replicate {c : Char} (hc : p c = false) {before after : List Char}
    (hbefore : ∀ x ∈ before, p x = true) (hafter : ∀ x ∈ after, p x = true) (n : Nat) :
    trimWhile p (before ++ (List.replicate (n + 1) c ++ after)) = List.replicate (n + 1) c := by
  have hstart : (before ++ (List.replicate (n + 1) c ++ after)).dropWhile p =
      List.replicate (n + 1) c ++ after := by
    rw [List.dropWhile_append_of_pos hbefore, List.replicate_succ, List.cons_append,
      List.dropWhile_cons_of_neg (by simp [hc])]
  rw [trimWhile, hstart, List.replicate_succ', List.append_assoc, List.singleton_append,
    dropEndWhile_append_cons hc, dropEndWhile_of_all hafter]

/-! ## Words -/

section Runs

/-- A break begins no run. -/
theorem runsFrom_gap {gap : List Char} (hgap : ∀ c ∈ gap, p c = true) (rest : List Char) :
    runsFrom (fun c => !p c) (gap ++ rest) [] = runsFrom (fun c => !p c) rest [] := by
  induction gap with
  | nil => rfl
  | cons c gap ih =>
      obtain ⟨hc, hgap⟩ := List.forall_mem_cons.mp hgap
      rw [List.cons_append, runsFrom, hc, if_neg (by simp), List.isEmpty_nil, if_pos rfl]
      exact ih hgap

theorem runsFrom_dropWhile (p : Char → Bool) (cs : List Char) :
    runsFrom (fun c => !p c) (cs.dropWhile p) [] = runsFrom (fun c => !p c) cs [] := by
  calc runsFrom (fun c => !p c) (cs.dropWhile p) []
      = runsFrom (fun c => !p c) (cs.takeWhile p ++ cs.dropWhile p) [] :=
        (runsFrom_gap (List.all_eq_true.mp List.all_takeWhile) _).symm
    _ = runsFrom (fun c => !p c) cs [] := by rw [List.takeWhile_append_dropWhile]

/-- A text has a first word, or nothing but breaks. -/
theorem exists_firstWord (p : Char → Bool) (cs : List Char) :
    (∀ c ∈ cs, p c = true) ∨ ∃ gap word rest, cs = gap ++ (word ++ rest) ∧ (∀ c ∈ gap, p c = true) ∧
      word ≠ [] ∧ (∀ c ∈ word, p c = false) ∧ ∀ c ∈ rest.head?, p c = true := by
  have hgap : ∀ c ∈ cs.takeWhile p, p c = true := List.all_eq_true.mp List.all_takeWhile
  have hcs : cs.takeWhile p ++ cs.dropWhile p = cs := List.takeWhile_append_dropWhile
  cases hwords : cs.dropWhile p with
  | nil =>
      rw [hwords, List.append_nil] at hcs
      exact .inl (hcs ▸ hgap)
  | cons first others =>
      have hfirst : p first = false := by
        have hhead := List.head?_dropWhile_not p cs
        rwa [hwords] at hhead
      refine .inr ⟨cs.takeWhile p, (first :: others).takeWhile (!p ·),
        (first :: others).dropWhile (!p ·), ?_, hgap, by simp [hfirst], fun c hc => ?_,
        fun c hc => ?_⟩
      · rw [List.takeWhile_append_dropWhile, ← hwords, hcs]
      · simpa using List.all_eq_true.mp List.all_takeWhile c hc
      · have hhead := List.head?_dropWhile_not (!p ·) (first :: others)
        rw [Option.mem_def.mp hc] at hhead
        simpa using hhead

/-- A run that was begun goes on up to a break. -/
theorem runsFrom_append {word rest : List Char} (hword : ∀ c ∈ word, p c = false)
    (hrest : ∀ c ∈ rest.head?, p c = true) {begun : List Char} (hne : begun ++ word ≠ []) :
    runsFrom (fun c => !p c) (word ++ rest) begun =
      (begun.reverse ++ word) :: runsFrom (fun c => !p c) rest [] := by
  induction word generalizing begun with
  | nil =>
      rw [List.append_nil] at hne ⊢
      have hbegun : begun.isEmpty = false := by simpa using hne
      cases rest with
      | nil => simp [runsFrom, hbegun]
      | cons c rest => simp [runsFrom, hrest c rfl, hbegun]
  | cons c word ih =>
      obtain ⟨hc, hword⟩ := List.forall_mem_cons.mp hword
      rw [List.cons_append, runsFrom, if_pos (by simp [hc]), ih hword (by simp), List.reverse_cons,
        List.append_assoc, List.singleton_append]

/-- **Runs are split at a break.** -/
theorem runsFrom_word {word rest : List Char} (hne : word ≠ []) (hword : ∀ c ∈ word, p c = false)
    (hrest : ∀ c ∈ rest.head?, p c = true) :
    runsFrom (fun c => !p c) (word ++ rest) [] = word :: runsFrom (fun c => !p c) rest [] :=
  runsFrom_append hword hrest hne

end Runs

/-- What is in a run is kept and comes from the text or from the run that was begun. -/
theorem mem_runsFrom {keep : Char → Bool} {cs word w : List Char} {c : Char}
    (hw : w ∈ runsFrom keep cs word) (hc : c ∈ w) : c ∈ word ∨ (c ∈ cs ∧ keep c = true) := by
  induction cs generalizing word with
  | nil =>
      rw [runsFrom] at hw
      split at hw
      · cases hw
      · rw [List.mem_singleton.mp hw, List.mem_reverse] at hc
        exact .inl hc
  | cons d cs ih =>
      have hlater (hlater : c ∈ cs ∧ keep c = true) : c ∈ d :: cs ∧ keep c = true :=
        ⟨List.mem_cons_of_mem d hlater.1, hlater.2⟩
      rw [runsFrom] at hw
      split at hw
      · next hkeep =>
          rcases ih hw with h | h
          · rcases List.mem_cons.mp h with rfl | h
            · exact .inr ⟨List.mem_cons_self, hkeep⟩
            · exact .inl h
          · exact .inr (hlater h)
      · split at hw
        · exact .inr (hlater ((ih hw).resolve_left (by simp)))
        · rcases List.mem_cons.mp hw with rfl | hw
          · exact .inl (List.mem_reverse.mp hc)
          · exact .inr (hlater ((ih hw).resolve_left (by simp)))

/-- No run is empty. -/
theorem ne_nil_of_mem_runsFrom {keep : Char → Bool} {cs word w : List Char}
    (hw : w ∈ runsFrom keep cs word) : w ≠ [] := by
  induction cs generalizing word with
  | nil =>
      rw [runsFrom] at hw
      split at hw
      · cases hw
      · next hword =>
          rw [List.mem_singleton.mp hw]
          simpa using hword
  | cons d cs ih =>
      rw [runsFrom] at hw
      split at hw
      · exact ih hw
      · split at hw
        · exact ih hw
        · next hword =>
            rcases List.mem_cons.mp hw with rfl | hw
            · simpa using hword
            · exact ih hw

end Livedoc.Text
