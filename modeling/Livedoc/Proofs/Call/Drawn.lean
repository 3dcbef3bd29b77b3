import Livedoc.Proofs.Call.Head
import Livedoc.Proofs.Source.LineIndex

/-!
# Names of a source

A call head starts with a dot and a name.  Reading a document moves texts about: lines lose their
indentation and are joined again, cells are cut out of lines, and the values of arguments lose
backslashes.  None of this puts a name after a dot where the source has none (`DrawnFrom`), because
what is put in or taken out is never within a name.
-/

namespace Livedoc.Call

open Livedoc.Source Livedoc.Text

variable {source cs ds rest : List Char} {ls : List (List Char)} {c : Char}

/-- A dot or a character of a name. -/
def isDotted (c : Char) : Bool := c == '.' || isNameChar c

/-- Every name that stands in the text after a dot stands in the source after a dot. -/
def DrawnFrom (source cs : List Char) : Prop :=
  ∀ name : List Char, (∀ c ∈ name, isNameChar c = true) → '.' :: name <:+: cs →
    '.' :: name <:+: source

namespace DrawnFrom

theorem refl (cs : List Char) : DrawnFrom cs cs := fun _ _ h => h

theorem trans (h : DrawnFrom source cs) (h' : DrawnFrom cs ds) : DrawnFrom source ds :=
  fun name hname hds => h name hname (h' name hname hds)

theorem of_isInfix (h : DrawnFrom source cs) (hds : ds <:+: cs) : DrawnFrom source ds :=
  fun name hname hmem => h name hname (hmem.trans hds)

theorem of_isSuffix (h : DrawnFrom source cs) (hds : ds <:+ cs) : DrawnFrom source ds :=
  h.of_isInfix hds.isInfix

theorem of_isPrefix (h : DrawnFrom source cs) (hds : ds <+: cs) : DrawnFrom source ds :=
  h.of_isInfix hds.isInfix

/-- A text without dots has no names. -/
theorem of_dot_not_mem (h : '.' ∉ cs) : DrawnFrom source cs :=
  fun _ _ hmem => absurd (hmem.subset List.mem_cons_self) h

theorem nil : DrawnFrom source [] := of_dot_not_mem List.not_mem_nil

/-- A character that is neither a dot nor part of a name may be put between two texts. -/
theorem append_cons (hc : isDotted c = false) (hcs : DrawnFrom source cs)
    (hds : DrawnFrom source ds) : DrawnFrom source (cs ++ c :: ds) := by
  intro name hname h
  have hnot : c ∉ '.' :: name := by
    intro hmem
    rcases List.mem_cons.mp hmem with rfl | hmem
    · cases hc
    · rw [isDotted, hname c hmem, Bool.or_true] at hc
      cases hc
  rcases List.infix_append_iff.mp h with h | h | ⟨before, after, hsplit, hbefore, hafter⟩
  · exact hcs name hname h
  · rcases List.infix_cons_iff.mp h with h | h
    · rcases List.prefix_cons_iff.mp h with h | ⟨after, hafter, -⟩
      · cases h
      · exact absurd (hafter ▸ List.mem_cons_self) hnot
    · exact hds name hname h
  · rcases List.prefix_cons_iff.mp hafter with rfl | ⟨after, rfl, -⟩
    · rw [List.append_nil] at hsplit
      exact hcs name hname (hsplit ▸ hbefore.isInfix)
    · exact absurd (by simp [hsplit]) hnot

theorem cons (hc : isDotted c = false) (h : DrawnFrom source cs) : DrawnFrom source (c :: cs) :=
  append_cons hc nil h

/-- Lines may be joined. -/
theorem unlines (h : ∀ line ∈ ls, DrawnFrom source line) : DrawnFrom source (unlines ls) := by
  induction ls with
  | nil => exact nil
  | cons line rest ih =>
      rw [List.forall_mem_cons] at h
      cases rest with
      | nil => exact h.1
      | cons next rest => exact append_cons (by decide) h.1 (ih h.2)

/-- What stands in a line stands in the text. -/
theorem line (h : DrawnFrom source cs) {line : List Char} (hline : line ∈ lines cs) :
    DrawnFrom source line := by
  obtain ⟨i, hi⟩ := List.mem_iff_getElem?.mp hline
  obtain ⟨before, after, rfl, -⟩ := LineIndex.exists_eq_append_line hi
  exact h.of_isInfix ⟨before, after, rfl⟩

end DrawnFrom

/-! ## Arguments -/

private theorem isDotted_of_mem_name {name : List Char} (hname : ∀ c ∈ name, isNameChar c = true) :
    ∀ c ∈ '.' :: name, isDotted c = true := by
  refine List.forall_mem_cons.mpr ⟨rfl, fun c hc => ?_⟩
  rw [isDotted, hname c hc, Bool.or_true]

/-- The names of a value are those of a text, and what stands at its start without braces stands at
the start of the text. -/
private structure Keeps (cs value : List Char) : Prop where
  start : ∀ part : List Char, (∀ c ∈ part, isDotted c = true) → part <+: value → part <+: cs
  drawn : DrawnFrom cs value

private theorem Keeps.nil : Keeps cs [] where
  start _ _ h := List.prefix_nil.mp h ▸ List.nil_prefix
  drawn := .nil

private theorem Keeps.cons {value : List Char} (h : Keeps cs value) :
    Keeps (c :: cs) (c :: value) := by
  have hstart : ∀ part : List Char, (∀ c ∈ part, isDotted c = true) →
      part <+: c :: value → part <+: c :: cs := by
    intro part hpart hvalue
    rcases List.prefix_cons_iff.mp hvalue with rfl | ⟨after, rfl, hafter⟩
    · exact List.nil_prefix
    · refine List.cons_prefix_cons.mpr ⟨rfl, h.start after (fun d hd => hpart d ?_) hafter⟩
      exact List.mem_cons_of_mem c hd
  refine ⟨hstart, fun name hname hvalue => ?_⟩
  rcases List.infix_cons_iff.mp hvalue with hvalue | hvalue
  · exact (hstart _ (isDotted_of_mem_name hname) hvalue).isInfix
  · exact List.infix_cons (h.drawn name hname hvalue)

/-- A brace may lose the backslash before it. -/
private theorem Keeps.escaped {value : List Char} (hc : isDotted c = false) (h : Keeps cs value) :
    Keeps ('\\' :: c :: cs) (c :: value) where
  start part hpart hvalue := by
    rcases List.prefix_cons_iff.mp hvalue with rfl | ⟨after, rfl, -⟩
    · exact List.nil_prefix
    · rw [hpart c List.mem_cons_self] at hc
      cases hc
  drawn := .trans (.of_isSuffix (.refl _) (List.suffix_cons _ _)) h.cons.drawn

/-- **The value of a group has no names but those of its text.** Only backslashes before braces are
taken out, and no name has either. -/
theorem takeBraced?_drawn {depth : Nat} {value : List Char}
    (h : takeBraced? depth cs = some (value, rest)) : DrawnFrom cs value := by
  suffices hkeeps : Keeps cs value from hkeeps.drawn
  replace h := braced_of_takeBraced? h
  induction h with
  | close => exact .nil
  | escaped hc _ ih => exact ih.escaped (by rcases hc with rfl | rfl <;> decide)
  | opening _ ih | closing _ ih | other _ _ _ _ ih => exact ih.cons

/-- Reading in braces takes backslashes out, and nothing else. -/
theorem takeBraced?_sublist {depth : Nat} {value : List Char}
    (h : takeBraced? depth cs = some (value, rest)) : value.Sublist cs := by
  replace h := braced_of_takeBraced? h
  induction h with
  | close => exact List.nil_sublist _
  | escaped _ _ ih => exact (ih.cons_cons _).cons _
  | opening _ ih | closing _ ih | other _ _ _ _ ih => exact ih.cons_cons _

/-- The values of the groups of a head that was read stand in the line, in braces. -/
theorem exists_braced_of_headAt? {line : List Char} {head : Head} (h : headAt? 0 line = some head)
    (hclosed : head.unterminated = false) :
    ∀ g ∈ head.groups, ∃ inside, inside <:+: line ∧
      takeBraced? 0 inside = some (g.value.toList, []) := by
  intro g hg
  obtain ⟨inner, htext, hvalue⟩ := ((headAt?_written h).2.2.2.2 hclosed).text g hg
  refine ⟨_, ?_, hvalue⟩
  have hinner : inner ++ ['}'] <:+ (line.take g.stop).drop g.start := by
    rw [htext]
    exact (List.suffix_cons _ _).trans (List.suffix_append _ _)
  exact (hinner.trans (List.drop_suffix _ _)).isInfix.trans (List.take_prefix _ _).isInfix

/-- The values of the groups of a head that was read have no names but those of the line. -/
theorem headAt?_drawn {line : List Char} {head : Head} (h : headAt? 0 line = some head)
    (hclosed : head.unterminated = false) :
    ∀ g ∈ head.groups, DrawnFrom line g.value.toList := by
  intro g hg
  obtain ⟨inside, hinside, hvalue⟩ := exists_braced_of_headAt? h hclosed g hg
  exact .trans (.of_isInfix (.refl line) hinside) (takeBraced?_drawn hvalue)

/-- The values of the groups of a head that was read have no newlines but those of the line. -/
theorem count_newline_value_le {line : List Char} {head : Head} (h : headAt? 0 line = some head)
    (hclosed : head.unterminated = false) :
    ∀ g ∈ head.groups, g.value.toList.count '\n' ≤ line.count '\n' := by
  intro g hg
  obtain ⟨inside, hinside, hvalue⟩ := exists_braced_of_headAt? h hclosed g hg
  exact ((takeBraced?_sublist hvalue).trans hinside.sublist).count_le '\n'

/-- The name of a head that was read stands in the source after a dot. -/
theorem DrawnFrom.name_isInfix {head : Head} (h : DrawnFrom source cs)
    (hhead : headAt? 0 cs = some head) : '.' :: head.name.toList <:+: source :=
  h _ (fun _ => isNameChar_of_headAt? hhead) (headAt?_written hhead).2.1.isInfix

end Livedoc.Call
