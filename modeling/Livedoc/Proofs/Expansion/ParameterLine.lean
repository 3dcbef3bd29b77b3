import Livedoc.Expansion.ParameterLine
import Livedoc.Proofs.Text.Blank
import Livedoc.Proofs.Text.Lines
import Livedoc.Tree.Walk

/-!
# What a parameter line takes from a body

A parameter line names parameters, with spaces and tabs between them, and ends in a colon
(`ParameterLine`).  Lines that are read as such are these and no others (`ofLine?_eq_some_iff`).
Where a body starts with one, splitting gives the names in the order of the line, and leaves a
body whose text is the text of the whole without the line and its newline; any other body stays
as it is (`split_parameterLine`).
-/

namespace Livedoc.Parameters

open Livedoc.Source Livedoc.Text Livedoc.Tree Livedoc.Tree.Node

variable {cs word line : List Char} {p : List Char × Bool} {ps : List (List Char × Bool)}

/-! ## Lines -/

/-- A name: a letter of ASCII or an underscore, and then letters, numbers and underscores. -/
def IsName (cs : List Char) : Prop :=
  ∃ c rest, cs = c :: rest ∧ Call.isNameStart c = true ∧ ∀ d ∈ rest, isWord d = true

/-- A parameter as it is written. One that takes named arguments only has a question mark. -/
def spell (p : List Char × Bool) : List Char := if p.2 then p.1 ++ ['?'] else p.1

/-- Parameters written one after the other, with gaps between them. -/
inductive Lists : List (List Char × Bool) → List Char → Prop
  | nil {gap : List Char} (hgap : ∀ c ∈ gap, isGap c = true) : Lists [] gap
  | cons {gap rest : List Char} {p : List Char × Bool} {ps : List (List Char × Bool)}
      (hgap : ∀ c ∈ gap, isGap c = true) (hname : IsName p.1)
      (hbreak : ∀ c ∈ rest.head?, isGap c = true) (hrest : Lists ps rest) :
      Lists (p :: ps) (gap ++ (spell p ++ rest))

/-- A line that names parameters. -/
def ParameterLine (ps : List (List Char × Bool)) (line : List Char) : Prop :=
  ∃ written after, Lists ps written ∧ (∀ c ∈ after, isGap c = true) ∧ line = written ++ ':' :: after

/-! ### Names -/

theorem isWord_of_isNameStart {c : Char} (h : Call.isNameStart c = true) : isWord c = true := by
  simp only [Call.isNameStart, Bool.or_eq_true, Bool.and_eq_true, beq_iff_eq, decide_eq_true_eq,
    Char.le_def] at h
  have hletter {low high : Char} (hhigh : high.toNat < 128)
      (hc : low.val ≤ c.val ∧ c.val ≤ high.val) (halpha : c.isAlpha = true) : isWord c = true := by
    have hle : c.toNat ≤ high.toNat := hc.2
    have halphanum : c.isAlphanum = true := Bool.or_eq_true_iff.mpr (.inl halpha)
    rw [isWord, isAlphanumeric, if_pos (by omega), halphanum, Bool.true_or]
  rcases h with (rfl | hlower) | hupper
  · decide
  · have hrange : c.isLower = true :=
      Bool.and_eq_true_iff.mpr ⟨decide_eq_true hlower.1, decide_eq_true hlower.2⟩
    exact hletter (by decide) hlower (Bool.or_eq_true_iff.mpr (.inr hrange))
  · have hrange : c.isUpper = true := decide_eq_true hupper
    exact hletter (by decide) hupper (Bool.or_eq_true_iff.mpr (.inl hrange))

theorem IsName.isWord (h : IsName cs) : ∀ c ∈ cs, isWord c = true := by
  obtain ⟨first, rest, rfl, hfirst, hrest⟩ := h
  exact List.forall_mem_cons.mpr ⟨isWord_of_isNameStart hfirst, hrest⟩

/-- None of the characters around names belongs to a name. -/
theorem isWord_eq_false {c : Char} (h : c ∈ [' ', '\t', '?', '\n']) : isWord c = false := by
  simp only [List.mem_cons, List.not_mem_nil, or_false] at h
  rcases h with rfl | rfl | rfl | rfl <;> decide

theorem mem_spell {c : Char} (hname : IsName p.1) (h : c ∈ spell p) : isWord c = true ∨ c = '?' := by
  rw [spell] at h
  split at h
  · rcases List.mem_append.mp h with h | h
    · exact .inl (hname.isWord c h)
    · exact .inr (List.mem_singleton.mp h)
  · exact .inl (hname.isWord c h)

theorem spell_ne_nil (hname : IsName p.1) : spell p ≠ [] := by
  obtain ⟨first, rest, hp, -, -⟩ := hname
  rw [spell]
  split <;> simp [hp]

/-- There is no gap in a parameter. -/
theorem isGap_of_mem_spell {c : Char} (hname : IsName p.1) (h : c ∈ spell p) : isGap c = false := by
  rw [Bool.eq_false_iff]
  intro hgap
  have hblank : c = ' ' ∨ c = '\t' := by simpa [isGap] using hgap
  rcases mem_spell hname h with hword | rfl
  · rw [isWord_eq_false (by rcases hblank with rfl | rfl <;> simp)] at hword
    cases hword
  · simp at hblank

theorem isName_cons_iff {c : Char} {rest : List Char} :
    IsName (c :: rest) ↔ (Call.isNameStart c && rest.all isWord) = true := by
  rw [Bool.and_eq_true, List.all_eq_true]
  constructor
  · rintro ⟨_, _, ⟨⟩, h⟩
    exact h
  · exact fun h => ⟨c, rest, rfl, h⟩

theorem not_isName_nil : ¬IsName [] := by
  rintro ⟨_, _, hname, -⟩
  cases hname

/-- A word with a question mark at its end is the name before the mark. -/
theorem parameter?_marked {name : List Char} :
    parameter? (name ++ ['?']) = some p ↔ IsName name ∧ p = (name, true) := by
  cases name with
  | nil => exact iff_of_false nofun fun h => not_isName_nil h.1
  | cons c rest =>
      rw [isName_cons_iff]
      simp only [parameter?, List.getLast?_concat, List.dropLast_concat]
      split
      · next hread => simp [hread, eq_comm]
      · next hread => simp [hread]

/-- Any other word is a name as a whole. -/
theorem parameter?_unmarked (h : word.getLast? ≠ some '?') :
    parameter? word = some p ↔ IsName word ∧ p = (word, false) := by
  cases word with
  | nil => exact iff_of_false nofun fun h => not_isName_nil h.1
  | cons c rest =>
      rw [isName_cons_iff]
      simp only [parameter?]
      split
      · next hread => simp [hread, eq_comm]
      · next hread => simp [hread]

/-- **A word is a parameter exactly if it is how the parameter is written.** -/
theorem parameter?_eq_some_iff : parameter? word = some p ↔ IsName p.1 ∧ word = spell p := by
  constructor
  · intro h
    by_cases hlast : word.getLast? = some '?'
    · obtain ⟨name, rfl⟩ := List.getLast?_eq_some_iff.mp hlast
      obtain ⟨hname, rfl⟩ := parameter?_marked.mp h
      exact ⟨hname, rfl⟩
    · obtain ⟨hname, rfl⟩ := (parameter?_unmarked hlast).mp h
      exact ⟨hname, rfl⟩
  · rintro ⟨hname, rfl⟩
    obtain ⟨name, marked⟩ := p
    cases marked with
    | true => exact parameter?_marked.mpr ⟨hname, rfl⟩
    | false =>
        refine (parameter?_unmarked fun hlast => ?_).mpr ⟨hname, rfl⟩
        have hword := hname.isWord '?' (List.mem_of_getLast? hlast)
        rw [isWord_eq_false (by simp)] at hword
        cases hword

/-! ### Lists of names -/

/-- **Names with gaps between them are the words that they are split into.** -/
theorem lists_iff :
    Lists ps cs ↔ (runsFrom (fun c => !isGap c) cs []).mapM parameter? = some ps := by
  constructor
  · intro h
    induction h with
    | @nil gap hgap =>
        rw [← List.append_nil gap, runsFrom_gap hgap]
        rfl
    | cons hgap hname hbreak _ ih =>
        rw [runsFrom_gap hgap, runsFrom_word (spell_ne_nil hname)
          (fun c hc => isGap_of_mem_spell hname hc) hbreak, List.mapM_cons,
          parameter?_eq_some_iff.mpr ⟨hname, rfl⟩, ih]
        rfl
  · intro h
    -- By induction on the length of the text: what comes after the first word is shorter.
    induction hlength : cs.length using Nat.strongRecOn generalizing cs ps with
    | ind length ih =>
      obtain hgap | ⟨gap, word, rest, rfl, hgap, hne, hword, hbreak⟩ := exists_firstWord isGap cs
      · rw [← List.append_nil cs, runsFrom_gap hgap] at h
        cases h
        exact .nil hgap
      · rw [runsFrom_gap hgap, runsFrom_word hne hword hbreak, List.mapM_cons] at h
        obtain ⟨p, hp, h⟩ := Option.bind_eq_some_iff.mp h
        obtain ⟨others, hothers, h⟩ := Option.bind_eq_some_iff.mp h
        cases h
        obtain ⟨hname, rfl⟩ := parameter?_eq_some_iff.mp hp
        have hshorter : rest.length < length := by
          have := List.length_pos_iff.mpr hne
          simp only [List.length_append] at hlength
          omega
        exact .cons hgap hname hbreak (ih _ hshorter hothers rfl)

/-! ### Reading a line -/

/-- **A line names parameters exactly if it is a parameter line.** -/
theorem ofLine?_eq_some_iff : ofLine? line = some ps ↔ ParameterLine ps line := by
  constructor
  · intro h
    unfold ofLine? at h
    dsimp only at h
    split at h
    · next hlast =>
        obtain ⟨written, htrimmed⟩ := List.getLast?_eq_some_iff.mp hlast
        rw [htrimmed, List.dropLast_concat, ← lists_iff] at h
        obtain ⟨after, hafter, hsplit⟩ := exists_eq_dropEndWhile_append isGap (line.dropWhile isGap)
        refine ⟨line.takeWhile isGap ++ written, after, ?_, hafter, ?_⟩
        · rw [lists_iff, runsFrom_gap (List.all_eq_true.mp List.all_takeWhile), ← lists_iff]
          exact h
        · calc line = line.takeWhile isGap ++ line.dropWhile isGap :=
                List.takeWhile_append_dropWhile.symm
            _ = line.takeWhile isGap ++ (trimWhile isGap line ++ after) := by rw [hsplit]; rfl
            _ = line.takeWhile isGap ++ written ++ ':' :: after := by simp [htrimmed]
    · cases h
  · rintro ⟨written, after, hlists, hafter, rfl⟩
    have htrimmed : trimWhile isGap (written ++ ':' :: after) = written.dropWhile isGap ++ [':'] := by
      rw [trimWhile, dropWhile_append_cons (by decide), dropEndWhile_append_cons (by decide),
        dropEndWhile_of_all hafter]
    simp only [ofLine?, htrimmed, List.getLast?_concat, List.dropLast_concat, runsFrom_dropWhile]
    exact lists_iff.mp hlists

/-! ### The end of a line -/

theorem newline_not_mem_of_gap {gap : List Char} (h : ∀ c ∈ gap, isGap c = true) : '\n' ∉ gap :=
  fun hmem => absurd (h _ hmem) (by decide)

theorem newline_not_mem_spell (hname : IsName p.1) : '\n' ∉ spell p := by
  intro hmem
  rcases mem_spell hname hmem with hword | hmark
  · rw [isWord_eq_false (by simp)] at hword
    cases hword
  · cases hmark

theorem Lists.newline_not_mem (h : Lists ps cs) : '\n' ∉ cs := by
  induction h with
  | nil hgap => exact newline_not_mem_of_gap hgap
  | cons hgap hname _ _ ih =>
      simp only [List.mem_append, not_or]
      exact ⟨newline_not_mem_of_gap hgap, newline_not_mem_spell hname, ih⟩

theorem ParameterLine.newline_not_mem (h : ParameterLine ps line) : '\n' ∉ line := by
  obtain ⟨written, after, hlists, hafter, rfl⟩ := h
  simp only [List.mem_append, List.mem_cons, not_or]
  exact ⟨hlists.newline_not_mem, by decide, newline_not_mem_of_gap hafter⟩

/-! ## Bodies -/

/-- A body after its first line: a text and a paragraph of which nothing is left are gone. -/
def afterLine : List Char → Span → List Node → Span → List Node → List Node
  | [], _, [], _, more => more
  | [], _, others, span, more => .paragraph others span :: more
  | remainder, textSpan, others, span, more =>
    .paragraph (.text (String.ofList remainder) textSpan :: others) span :: more

/-- A body starts with a line, which is the first of its first paragraph, or all of it. What is
`taken` with the line is its newline, if there is one. -/
inductive Starts (line : List Char) : List Node → List Char → List Node → Prop
  | newline (remainder : List Char) (textSpan : Span) (others : List Node) (span : Span)
      (more : List Node) :
      Starts line
        (.paragraph (.text (String.ofList (line ++ '\n' :: remainder)) textSpan :: others) span ::
          more)
        (line ++ ['\n']) (afterLine remainder textSpan others span more)
  | alone (textSpan span : Span) (more : List Node) :
      Starts line (.paragraph [.text (String.ofList line) textSpan] span :: more) line more

variable {body rest : List Node} {taken : List Char}

theorem textOf_afterLine (remainder : List Char) (textSpan : Span) (others : List Node) (span : Span)
    (more : List Node) : textOf (afterLine remainder textSpan others span more) =
      String.ofList remainder ++ textOf others ++ textOf more := by
  unfold afterLine
  split <;> simp [textOf, textContent]

/-- **What is left of a body has its text without the line.** -/
theorem Starts.textOf_eq (h : Starts line body taken rest) :
    textOf body = String.ofList taken ++ textOf rest := by
  cases h with
  | newline remainder textSpan others span more =>
      rw [textOf_afterLine, textOf, textContent, textOf, textContent, List.append_cons,
        String.ofList_append]
      simp only [String.append_assoc]
  | alone textSpan span more => simp [textOf, textContent]

theorem withFirst_others (others : List Node) (textSpan span : Span) (more : List Node) :
    withFirst others span more = afterLine [] textSpan others span more := by
  cases others <;> rfl

/-- **A parameter line at the start of a body is split off.** -/
theorem split_of_starts (hline : ParameterLine ps line) (h : Starts line body taken rest) :
    split body = ⟨select false ps, select true ps, rest⟩ := by
  cases h with
  | newline remainder textSpan others span more =>
      have htake : (line ++ '\n' :: remainder).takeWhile (· != '\n') = line := by
        rw [takeWhile_line hline.newline_not_mem]
        exact List.append_nil line
      simp only [split, String.toList_ofList, htake, ofLine?_eq_some_iff.mpr hline, List.drop_left]
      cases remainder with
      | nil => rw [withFirst_others others textSpan]
      | cons c remainder => rfl
  | alone textSpan span more =>
      have htake : line.takeWhile (· != '\n') = line := by
        simpa using takeWhile_line hline.newline_not_mem []
      simp only [split, String.toList_ofList, htake, ofLine?_eq_some_iff.mpr hline, List.drop_length]
      rfl

/-- A body that does not start with a parameter line stays as it is. -/
theorem split_cases (body : List Node) : split body = { rest := body } ∨
    ∃ ps line taken rest, ParameterLine ps line ∧ Starts line body taken rest := by
  unfold Parameters.split
  split
  · next content textSpan others span more =>
      obtain ⟨cs, rfl⟩ : ∃ cs, content = String.ofList cs := ⟨_, String.ofList_toList.symm⟩
      have hcs := List.takeWhile_append_dropWhile (p := (· != '\n')) (l := cs)
      have hbreak := List.head?_dropWhile_not (· != '\n') cs
      dsimp only
      rw [String.toList_ofList, drop_length_takeWhile]
      generalize cs.takeWhile (· != '\n') = line, cs.dropWhile (· != '\n') = after at hcs hbreak ⊢
      subst hcs
      cases hread : ofLine? line with
      | none => exact .inl rfl
      | some ps =>
          have hline := ofLine?_eq_some_iff.mp hread
          cases after with
          | nil =>
              rw [List.append_nil]
              cases others with
              | nil => exact .inr ⟨ps, line, line, more, hline, .alone textSpan span more⟩
              | cons other others => exact .inl rfl
          | cons c remainder =>
              obtain rfl : c = '\n' := by simpa using hbreak
              exact .inr ⟨ps, line, _, _, hline, .newline remainder textSpan others span more⟩
  · exact .inl rfl

/-- The parameters that take the arguments in order, in the order of the line. -/
def unmarked (ps : List (List Char × Bool)) : List String :=
  (ps.filter fun p => !p.2).map fun p => String.ofList p.1

/-- The parameters that take named arguments only, in the order of the line. -/
def marked (ps : List (List Char × Bool)) : List String :=
  (ps.filter fun p => p.2).map fun p => String.ofList p.1

theorem select_eq (ps : List (List Char × Bool)) :
    select false ps = unmarked ps ∧ select true ps = marked ps := by
  simp [select, unmarked, marked]

/-- **Parameter lines are split off exactly.**  Where a body starts with one, with a newline and
anything after it or alone, splitting gives its names, unmarked and marked, and the body without
the line.  Any body is either left as it is, without parameters, or it starts with a parameter line
and is split in this way; then its text is the line, with its newline if it has one, and the text of
what is left. -/
theorem split_parameterLine :
    (∀ ps line body taken rest, ParameterLine ps line → Starts line body taken rest →
      split body = ⟨unmarked ps, marked ps, rest⟩) ∧
    ∀ body, split body = { rest := body } ∨ ∃ ps line taken, ParameterLine ps line ∧
      Starts line body taken (split body).rest ∧ (split body).positional = unmarked ps ∧
      (split body).named = marked ps ∧
      textOf body = String.ofList taken ++ textOf (split body).rest := by
  have hstarts : ∀ ps line body taken rest, ParameterLine ps line → Starts line body taken rest →
      split body = ⟨unmarked ps, marked ps, rest⟩ := by
    intro ps line body taken rest hline h
    rw [split_of_starts hline h, (select_eq ps).1, (select_eq ps).2]
  refine ⟨hstarts, fun body => ?_⟩
  obtain hsame | ⟨ps, line, taken, rest, hline, h⟩ := split_cases body
  · exact .inl hsame
  · have hsplit := hstarts ps line body taken rest hline h
    refine .inr ⟨ps, line, taken, hline, ?_⟩
    rw [hsplit]
    exact ⟨h, rfl, rfl, h.textOf_eq⟩

/-- A line with two parameters. -/
def titleAndLevel : List Char := "title  level?\t:".toList

/-- A body with the line before more text, emphasis and another node. -/
def titledBody : List Node :=
  [.paragraph [.text (String.ofList (titleAndLevel ++ '\n' :: "and ".toList)) .unknown,
    .emphasis [.text "so" .unknown] true .unknown] .unknown, .thematicBreak .unknown]

theorem split_parameterLine_title :
    ParameterLine [("title".toList, false), ("level".toList, true)] titleAndLevel ∧
      ∃ rest, Starts titleAndLevel titledBody (titleAndLevel ++ ['\n']) rest ∧
        split titledBody = ⟨["title"], ["level"], rest⟩ := by
  have hline : ParameterLine [("title".toList, false), ("level".toList, true)] titleAndLevel :=
    ofLine?_eq_some_iff.mp (by decide)
  have hbody : Starts titleAndLevel titledBody (titleAndLevel ++ ['\n']) _ :=
    .newline "and ".toList .unknown _ .unknown _
  exact ⟨hline, _, hbody, split_parameterLine.1 _ _ _ _ _ hline hbody⟩

end Livedoc.Parameters
