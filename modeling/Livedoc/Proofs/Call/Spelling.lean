import Livedoc.Call.Head
import Livedoc.Text.Blank
import Mathlib.Data.List.TakeDrop

/-!
# Spelling a call

How a call can be written: its name, and groups with blanks before them, a backslash
standing before every brace of a value.  Reading such a text as a call head gives back
what was written (`Spelling.headAt?_text`), whatever the values are, as long as none of them ends in a
backslash: that backslash would take the meaning of the closing brace.
-/

namespace Livedoc.Call

open Livedoc.Text

/-! ## Spellings -/

/-- Whether a text can be the name of a call or of an argument. -/
def isName (cs : List Char) : Bool := cs.head?.any isNameStart && cs.all isNameChar

/-- A value with a backslash before every brace. -/
def escapeBraces (value : List Char) : List Char :=
  value.flatMap fun c => if c = '{' ∨ c = '}' then ['\\', c] else [c]

/-- A group as it is to be written. -/
structure GroupSpelling where
  /-- The spaces and tabs before the group. -/
  gap : List Char
  key : Option (List Char)
  value : List Char
  gap_isGap : gap.all isGap = true
  key_isName : key.all isName = true
  value_ends : value.getLast? ≠ some '\\'

namespace GroupSpelling

/-- The group without the blanks before it. -/
def own (g : GroupSpelling) : List Char :=
  (g.key.map (· ++ [':'])).getD [] ++ '{' :: (escapeBraces g.value ++ ['}'])

/-- The group with the blanks before it. -/
def text (g : GroupSpelling) : List Char := g.gap ++ g.own

/-- What reading the group gives, its text with the blanks standing at `offset`. -/
def group (offset : Nat) (g : GroupSpelling) : Group where
  key := g.key.map String.ofList
  value := String.ofList g.value
  start := offset + g.gap.length
  stop := offset + g.text.length

end GroupSpelling

/-- The text of several groups. -/
def groupsText (gs : List GroupSpelling) : List Char := gs.flatMap GroupSpelling.text

/-- What reading several groups gives, their text standing at `offset`. -/
def groupsAt (offset : Nat) : List GroupSpelling → List Group
  | [] => []
  | g :: rest => g.group offset :: groupsAt (offset + g.text.length) rest

/-- A call as it is to be written. A key would run together with the name, so a first
group with a key stands after a blank. -/
structure Spelling where
  name : List Char
  groups : List GroupSpelling
  name_isName : isName name = true
  groups_ne_nil : groups ≠ []
  apart : ∀ g ∈ groups.head?, g.key.isSome = true → g.gap ≠ []

/-- The text of a call. -/
def Spelling.text (c : Spelling) : List Char := '.' :: (c.name ++ groupsText c.groups)

/-! ## Names and braces -/

/-- A name is read up to the first character that cannot belong to it. -/
theorem takeName_append {name rest : List Char} (hname : isName name = true)
    (hrest : ∀ c ∈ rest.head?, isNameChar c = false) : takeName (name ++ rest) = (name, rest) := by
  obtain ⟨hstart, hall⟩ := Bool.and_eq_true_iff.mp hname
  cases name with
  | nil => cases hstart
  | cons c cs =>
      have hc : isNameStart c = true := by simpa using hstart
      have hcs : ∀ d ∈ c :: cs, isNameChar d = true := List.all_eq_true.mp hall
      have hafter : rest.takeWhile isNameChar = [] ∧ rest.dropWhile isNameChar = rest := by
        cases rest with
        | nil => exact ⟨rfl, rfl⟩
        | cons d ds =>
            have hd := hrest d rfl
            exact ⟨List.takeWhile_cons_of_neg (by simp [hd]),
              List.dropWhile_cons_of_neg (by simp [hd])⟩
      rw [List.cons_append, takeName, if_pos hc, ← List.cons_append, List.span_eq_takeWhile_dropWhile,
        List.takeWhile_append_of_pos hcs, List.dropWhile_append_of_pos hcs, hafter.1, hafter.2,
        List.append_nil]

/-- A value with escaped braces does not start with a brace. -/
private theorem escapeBraces_head {value : List Char} (h : value ≠ []) (rest : List Char) :
    ∃ c cs, escapeBraces value ++ rest = c :: cs ∧ c ≠ '{' ∧ c ≠ '}' := by
  cases value with
  | nil => exact absurd rfl h
  | cons c value =>
      by_cases hc : c = '{' ∨ c = '}'
      · exact ⟨'\\', c :: (escapeBraces value ++ rest), by simp [escapeBraces, hc],
          by decide, by decide⟩
      · obtain ⟨hopen, hclose⟩ := not_or.mp hc
        exact ⟨c, escapeBraces value ++ rest, by simp [escapeBraces, hc], hopen, hclose⟩

/-- **Escaped braces are read back as they were, up to the closing brace.** -/
theorem takeBraced?_escapeBraces {value : List Char} (h : value.getLast? ≠ some '\\')
    (rest : List Char) :
    takeBraced? 0 (escapeBraces value ++ '}' :: rest) = some (value, rest) := by
  induction value with
  | nil => rfl
  | cons c value ih =>
      have hvalue : value.getLast? ≠ some '\\' := by
        intro hlast
        exact h (by rw [List.getLast?_cons, hlast]; rfl)
      have ih := ih hvalue
      by_cases hc : c = '{' ∨ c = '}'
      · have hescaped : escapeBraces (c :: value) = '\\' :: c :: escapeBraces value := by
          simp [escapeBraces, hc]
        rcases hc with rfl | rfl <;>
          simp only [hescaped, List.cons_append, takeBraced?, ih, Option.map_some]
      · have hplain : escapeBraces (c :: value) = c :: escapeBraces value := by
          simp [escapeBraces, hc]
        obtain ⟨hopen, hclose⟩ := not_or.mp hc
        -- A backslash is not the last character, and what follows it is no brace.
        have hfollows : c = '\\' → ∀ d ds, escapeBraces value ++ '}' :: rest = d :: ds →
            d ≠ '{' ∧ d ≠ '}' := by
          rintro rfl d ds hd
          have hne : value ≠ [] := by
            rintro rfl
            exact h rfl
          obtain ⟨e, es, hes, he⟩ := escapeBraces_head hne ('}' :: rest)
          rw [hes, List.cons.injEq] at hd
          exact hd.1 ▸ he
        rw [hplain, List.cons_append, takeBraced?, ih, Option.map_some]
        · exact fun ds hc hds => (hfollows hc _ ds hds).1 rfl
        · exact fun ds hc hds => (hfollows hc _ ds hds).2 rfl
        · exact hopen
        · exact hclose

/-! ## Groups -/

namespace GroupSpelling

variable (g : GroupSpelling)

theorem own_of_positional {g : GroupSpelling} (h : g.key = none) :
    g.own = '{' :: (escapeBraces g.value ++ ['}']) := by
  simp [own, h]

theorem own_of_keyed {g : GroupSpelling} {key : List Char} (h : g.key = some key) :
    g.own = key ++ ':' :: '{' :: (escapeBraces g.value ++ ['}']) := by
  simp [own, h]

/-- A group starts with its brace or with its key. -/
theorem own_head : ∃ c cs, g.own = c :: cs ∧ isGap c = false ∧ (g.key = none → c = '{') := by
  cases hkey : g.key with
  | none => exact ⟨_, _, own_of_positional hkey, by decide, fun _ => rfl⟩
  | some key =>
      have hname : isName key = true := by simpa [hkey] using g.key_isName
      cases key with
      | nil => cases hname
      | cons c cs =>
          have hc : isNameStart c = true := by
            simpa using (Bool.and_eq_true_iff.mp hname).1
          refine ⟨c, _, own_of_keyed hkey, ?_, nofun⟩
          -- No blank starts a name.
          rw [Bool.eq_false_iff]
          intro hgap
          have hblank : c = ' ' ∨ c = '\t' := by simpa [isGap] using hgap
          rcases hblank with rfl | rfl <;> cases hc

/-- The opening of a group is read as its key. -/
theorem takeOpening?_own (rest : List Char) :
    takeOpening? (g.own ++ rest) =
      some (g.key.map String.ofList, escapeBraces g.value ++ '}' :: rest) := by
  cases hkey : g.key with
  | none =>
      have hbrace : ∀ cs, takeName ('{' :: cs) = ([], '{' :: cs) := fun _ => rfl
      simp [own_of_positional hkey, takeOpening?, hbrace]
  | some key =>
      have hname : isName key = true := by simpa [hkey] using g.key_isName
      have hkeyed : g.own ++ rest = key ++ ':' :: '{' :: (escapeBraces g.value ++ '}' :: rest) := by
        simp [own_of_keyed hkey]
      rw [hkeyed, takeOpening?, takeName_append hname (by simp; rfl)]
      cases key with
      | nil => cases hname
      | cons c cs => rfl

/-- **A written group is read as its key and its value.** -/
theorem scanGroup_own (rest : List Char) :
    scanGroup (g.own ++ rest) = .complete (g.key.map String.ofList) g.value rest := by
  rw [scanGroup, takeOpening?_own]
  dsimp only
  rw [takeBraced?_escapeBraces g.value_ends]

/-- The blanks before a group are passed over. -/
theorem dropWhile_text (rest : List Char) :
    (g.text ++ rest).dropWhile (fun c => c == ' ' || c == '\t') = g.own ++ rest := by
  obtain ⟨c, cs, hown, hc, -⟩ := g.own_head
  have hgap : ∀ d ∈ g.gap, (d == ' ' || d == '\t') = true := List.all_eq_true.mp g.gap_isGap
  rw [text, List.append_assoc, List.dropWhile_append_of_pos hgap, hown, List.cons_append,
    List.dropWhile_cons_of_neg]
  simpa [isGap] using hc

theorem own_length_pos : 0 < g.own.length := by
  obtain ⟨c, cs, hown, -⟩ := g.own_head
  rw [hown]
  exact Nat.succ_pos _

end GroupSpelling

/-- **Written groups are read one after the other, up to the end of the text.** -/
theorem scanGroups_groupsText (gs : List GroupSpelling) :
    ∀ rounds offset, gs.length ≤ rounds →
      scanGroups rounds offset (groupsText gs) =
        (groupsAt offset gs, offset + (groupsText gs).length, false) := by
  induction gs with
  | nil =>
      intro rounds offset _
      cases rounds with
      | zero => rfl
      | succ rounds => rfl
  | cons g gs ih =>
      intro rounds offset hrounds
      cases rounds with
      | zero => cases hrounds
      | succ rounds =>
          have htext : groupsText (g :: gs) = g.text ++ groupsText gs := rfl
          have hlength : g.text.length = g.gap.length + g.own.length := by
            rw [GroupSpelling.text, List.length_append]
          rw [htext, scanGroups]
          dsimp only
          rw [g.dropWhile_text, g.scanGroup_own]
          dsimp only
          have hstart : offset + ((g.text ++ groupsText gs).length -
              (g.own ++ groupsText gs).length) = offset + g.gap.length := by
            simp only [List.length_append, hlength]
            omega
          have hstop : offset + g.gap.length + ((g.own ++ groupsText gs).length -
              (groupsText gs).length) = offset + g.text.length := by
            simp only [List.length_append, hlength]
            omega
          rw [hstart, hstop, ih rounds _ (Nat.le_of_succ_le_succ hrounds)]
          simp only [groupsAt, GroupSpelling.group, List.length_append, Nat.add_assoc]

/-- A text has room for as many groups as are written in it. -/
theorem length_le_groupsText (gs : List GroupSpelling) : gs.length ≤ (groupsText gs).length := by
  induction gs with
  | nil => exact Nat.le_refl 0
  | cons g gs ih =>
      have hown := g.own_length_pos
      simp only [groupsText, GroupSpelling.text, List.flatMap_cons, List.length_append,
        List.length_cons] at ih ⊢
      omega

/-- The groups of one kind have the keys and the values that were written. -/
theorem groupsAt_filter_map {α : Type} (keep : Option String → Bool)
    (f : Option String → String → α) (gs : List GroupSpelling) (offset : Nat) :
    ((groupsAt offset gs).filter fun g => keep g.key).map (fun g => f g.key g.value) =
      (gs.filter fun g => keep (g.key.map String.ofList)).map
        fun g => f (g.key.map String.ofList) (String.ofList g.value) := by
  induction gs generalizing offset with
  | nil => rfl
  | cons g gs ih =>
      have hkey : (g.group offset).key = g.key.map String.ofList := rfl
      have hvalue : (g.group offset).value = String.ofList g.value := rfl
      rw [groupsAt, List.filter_cons, List.filter_cons, hkey]
      cases keep (g.key.map String.ofList) with
      | false => exact ih _
      | true => simp only [if_true, List.map_cons, hkey, hvalue, ih]

/-- **The offsets of a group cut out what is written of it.** -/
theorem groupsAt_map_slice (gs : List GroupSpelling) (before : List Char) :
    (groupsAt before.length gs).map
        (fun g => ((before ++ groupsText gs).take g.stop).drop g.start) =
      gs.map GroupSpelling.own := by
  induction gs generalizing before with
  | nil => rfl
  | cons g gs ih =>
      have hsplit : before ++ groupsText (g :: gs) = (before ++ g.text) ++ groupsText gs := by
        simp [groupsText]
      have hlast : before.length + g.text.length = (before ++ g.text).length :=
        List.length_append.symm
      rw [groupsAt, List.map_cons, List.map_cons, hsplit, hlast, ih]
      congr 1
      -- The text up to the end of the group is what stands before it, its blanks and itself.
      have hstop : (g.group before.length).stop = (before ++ g.text).length := hlast
      have hstart : (g.group before.length).start = (before ++ g.gap).length :=
        List.length_append.symm
      rw [hstop, hstart, List.take_left, GroupSpelling.text, ← List.append_assoc, List.drop_left]

/-! ## Calls -/

namespace Spelling

variable (c : Spelling)

/-- The head that reading the call gives. -/
def head : Head where
  name := String.ofList c.name
  groups := groupsAt (1 + c.name.length) c.groups
  start := 0
  stop := c.text.length
  unterminated := false

/-- The name ends where the groups start. -/
theorem groupsText_head : ∀ d ∈ (groupsText c.groups).head?, isNameChar d = false := by
  intro d hd
  cases hgroups : c.groups with
  | nil => exact absurd hgroups c.groups_ne_nil
  | cons g gs =>
      have htext : groupsText c.groups = g.gap ++ (g.own ++ groupsText gs) := by
        rw [hgroups]
        exact List.append_assoc ..
      rw [htext] at hd
      cases hgap : g.gap with
      | nil =>
          -- Without a blank before it the first group has no key, so a brace follows the name.
          have hkey : g.key = none := by
            have happart := c.apart g (by rw [hgroups]; rfl)
            by_contra hkey
            exact happart (Option.isSome_iff_ne_none.mpr hkey) hgap
          rw [hgap, GroupSpelling.own_of_positional hkey] at hd
          cases hd
          rfl
      | cons b gap =>
          rw [hgap] at hd
          cases hd
          have hblank : d = ' ' ∨ d = '\t' := by
            simpa [isGap] using List.all_eq_true.mp g.gap_isGap d (by simp [hgap])
          rcases hblank with rfl | rfl <;> rfl

/-- **A written call is read as what was written.** -/
theorem headAt?_text : headAt? 0 c.text = some c.head := by
  have hname := takeName_append c.name_isName c.groupsText_head
  have hgroups := scanGroups_groupsText c.groups (groupsText c.groups).length (0 + 1 + c.name.length)
    (length_le_groupsText c.groups)
  have hlength : 0 + 1 + c.name.length + (groupsText c.groups).length = c.text.length := by
    simp only [text, List.length_cons, List.length_append]
    omega
  rw [text, headAt?, hname]
  cases hn : c.name with
  | nil =>
      have := c.name_isName
      rw [hn] at this
      cases this
  | cons d ds =>
      dsimp only
      rw [← hn, hgroups, hlength, Nat.zero_add]
      rfl

/-- The groups of a written call have the keys and the values that were written. -/
theorem head_map_value :
    c.head.groups.map (fun g => (g.key, g.value)) =
      c.groups.map fun g => (g.key.map String.ofList, String.ofList g.value) := by
  have hall := groupsAt_filter_map (fun _ => true) Prod.mk c.groups (1 + c.name.length)
  rwa [List.filter_eq_self.mpr fun _ _ => rfl, List.filter_eq_self.mpr fun _ _ => rfl] at hall

/-- The head of a written call is that of a call. -/
theorem head_isCall : c.head.isCall = true := by
  cases hgroups : c.groups with
  | nil => exact absurd hgroups c.groups_ne_nil
  | cons g gs => rw [Head.isCall, head, hgroups]; rfl

/-- What stands in the text of a call stands in a name, in blanks or in a value, apart from the
characters of the syntax. -/
theorem not_mem_text {d : Char} (hname : isNameChar d = false) (hgap : isGap d = false)
    (hreserved : d ∉ ['.', ':', '{', '}', '\\']) (hvalues : ∀ g ∈ c.groups, d ∉ g.value) :
    d ∉ c.text := by
  have hnames : ∀ cs, isName cs = true → d ∉ cs := by
    intro cs hcs hd
    have := List.all_eq_true.mp (Bool.and_eq_true_iff.mp hcs).2 d hd
    rw [hname] at this
    cases this
  simp only [List.mem_cons, List.not_mem_nil, or_false, not_or] at hreserved
  obtain ⟨hdot, hcolon, hopen, hclose, hslash⟩ := hreserved
  have hescaped : ∀ g ∈ c.groups, d ∉ escapeBraces g.value := by
    intro g hg hd
    obtain ⟨e, he, hd⟩ := List.mem_flatMap.mp hd
    split at hd
    · rcases List.mem_cons.mp hd with hd | hd
      · exact hslash hd
      · exact hvalues g hg (List.mem_singleton.mp hd ▸ he)
    · exact hvalues g hg (List.mem_singleton.mp hd ▸ he)
  have hgroup : ∀ g ∈ c.groups, d ∉ g.text := by
    intro g hg
    have hgaps : d ∉ g.gap := by
      intro hd
      have := List.all_eq_true.mp g.gap_isGap d hd
      rw [hgap] at this
      cases this
    cases hkey : g.key with
    | none =>
        simp [GroupSpelling.text, GroupSpelling.own_of_positional hkey, hgaps, hopen, hclose,
          hescaped g hg]
    | some key =>
        have hkeyName : isName key = true := by simpa [hkey] using g.key_isName
        simp [GroupSpelling.text, GroupSpelling.own_of_keyed hkey, hgaps, hopen, hclose, hcolon,
          hescaped g hg, hnames key hkeyName]
  have hgroups : d ∉ groupsText c.groups := by
    intro hd
    obtain ⟨g, hg, hd⟩ := List.mem_flatMap.mp hd
    exact hgroup g hg hd
  simp [text, hdot, hnames c.name c.name_isName, hgroups]

/-- The parts of a written call stand where its head says. -/
theorem head_map_slice :
    c.head.groups.map (fun g => (c.text.take g.stop).drop g.start) =
      c.groups.map GroupSpelling.own := by
  have hbefore : 1 + c.name.length = ('.' :: c.name).length := by
    rw [List.length_cons, Nat.add_comm]
  have htext : c.text = '.' :: c.name ++ groupsText c.groups := rfl
  rw [head, htext, hbefore]
  exact groupsAt_map_slice c.groups ('.' :: c.name)

end Spelling

end Livedoc.Call
