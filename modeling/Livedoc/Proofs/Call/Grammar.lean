import Livedoc.Proofs.Call.Braces
import Livedoc.Proofs.Call.Spelling

/-!
# The grammar of call heads

The scanner of call heads accepts exactly what the grammar allows (`scan_grammar`).  A head starts
with a dot and a name, which is followed by groups with nothing but blanks before each of them
(`Lists`).  A group may have a key with a colon, and then braces, which balance for the first time at
the end of the group.  The head ends where no further group is opened.  If one is opened that never
closes, the head is a mistake and ends with its name.
-/

namespace Livedoc.Call

open Livedoc.Text

variable {text cs rest inside : List Char} {key : Option String} {offset start stop last : Nat}

/-- The part of a text between two offsets. -/
def slice (text : List Char) (start stop : Nat) : List Char := (text.take stop).drop start

/-- A text opens a group: a key with a colon, if there is one, and a brace, which are followed by
`inside`. -/
def Opens (key : Option String) (inside cs : List Char) : Prop :=
  (∀ k ∈ key, isName k.toList = true) ∧
    cs = (key.elim [] fun k => k.toList ++ [':']) ++ '{' :: inside

/-- A text is a group: it opens with the key, its braces balance for the first time at its end, and
the value is what stands inside them without the backslashes before braces. -/
def Group.StandsFor (g : Group) (text : List Char) : Prop :=
  ∃ inner, Opens g.key (inner ++ ['}']) text ∧ Encloses ('{' :: (inner ++ ['}'])) ∧
    g.value = String.ofList (unescapeBraces inner)

/-- The groups stand in a text one after the other from an offset up to another one, with blanks
before each of them. -/
inductive Lists (text : List Char) : Nat → List Group → Nat → Prop
  | nil (offset : Nat) : Lists text offset [] offset
  | cons {offset last : Nat} {g : Group} {others : List Group} (start_le : offset ≤ g.start)
      (start_lt : g.start < g.stop) (stop_le : g.stop ≤ text.length)
      (gap : ∀ c ∈ slice text offset g.start, isGap c = true)
      (own : g.StandsFor (slice text g.start g.stop)) (rest : Lists text g.stop others last) :
      Lists text offset (g :: others) last

/-- After the blanks at an offset no group is opened. -/
def NoGroupAt (text : List Char) (offset : Nat) : Prop :=
  ∀ key inside, ¬Opens key inside ((text.drop offset).dropWhile isGap)

/-- After the blanks at an offset a group is opened that never closes. -/
def OpenGroupAt (text : List Char) (offset : Nat) : Prop :=
  ∃ key inside, Opens key inside ((text.drop offset).dropWhile isGap) ∧
    NeverBalances ('{' :: inside)

/-! ## Slices -/

theorem drop_eq_slice_append (h : start ≤ stop) (text : List Char) :
    text.drop start = slice text start stop ++ text.drop stop := by
  have hdrop : text.drop stop = (text.drop start).drop (stop - start) := by
    rw [List.drop_drop, Nat.add_sub_cancel' h]
  rw [slice, List.drop_take, hdrop, List.take_append_drop]

theorem slice_append_slice {i j k : Nat} (hij : i ≤ j) (hjk : j ≤ k) (text : List Char) :
    slice text i k = slice text i j ++ slice text j k := by
  have hsplit := drop_eq_slice_append hij (text.take k)
  rwa [slice, List.take_take, Nat.min_eq_left hjk] at hsplit

theorem slice_eq_of_drop (h : text.drop start = cs ++ rest) :
    slice text start (start + cs.length) = cs := by
  rw [slice, List.drop_take, h, Nat.add_sub_cancel_left, List.take_left]

theorem drop_add_of_drop (h : text.drop start = cs ++ rest) :
    text.drop (start + cs.length) = rest := by
  rw [← List.drop_drop, h, List.drop_left]

/-! ## Names -/

/-- What is read as a name is one, and the next character cannot belong to it. -/
theorem isName_takeName (h : (takeName cs).1 ≠ []) : isName (takeName cs).1 = true ∧
    ∀ c ∈ (takeName cs).2.head?, isNameChar c = false := by
  cases cs with
  | nil => exact absurd rfl h
  | cons c cs =>
      by_cases hc : isNameStart c = true
      · rw [takeName, if_pos hc, List.span_eq_takeWhile_dropWhile]
        have hchar : isNameChar c = true := by rw [isNameChar, hc, Bool.true_or]
        constructor
        · simp [isName, hchar, hc, List.takeWhile_cons_of_pos, List.all_takeWhile]
        · intro d hd
          have hafter := List.head?_dropWhile_not isNameChar (c :: cs)
          rwa [Option.mem_def.mp hd] at hafter
      · rw [takeName, if_neg hc] at h
        exact absurd rfl h

/-- No name is read exactly if none starts there. -/
theorem takeName_eq_nil_iff : (takeName cs).1 = [] ↔ ∀ c ∈ cs.head?, isNameStart c = false := by
  cases cs with
  | nil => simp [takeName]
  | cons c cs =>
      by_cases hc : isNameStart c = true
      · have hchar : isNameChar c = true := by rw [isNameChar, hc, Bool.true_or]
        simp [takeName, hc, hchar, List.span_eq_takeWhile_dropWhile, List.takeWhile_cons_of_pos]
      · simp [takeName, hc]

/-! ## Groups -/

/-- **A group is opened by a key with a colon, if there is one, and a brace.** -/
theorem takeOpening?_eq_some_iff : takeOpening? cs = some (key, inside) ↔ Opens key inside cs := by
  constructor
  · intro h
    refine ⟨?_, takeOpening?_eq_some h⟩
    rintro k hk
    obtain rfl := Option.mem_def.mp hk
    unfold takeOpening? at h
    split at h
    · cases h
    · next c name _ hname =>
        cases h
        have hread : (takeName cs).1 = c :: name := by rw [hname]
        rw [String.toList_ofList, ← hread]
        exact (isName_takeName (by rw [hread]; exact List.cons_ne_nil _ _)).1
    · cases h
  · rintro ⟨hkey, rfl⟩
    cases key with
    | none => rfl
    | some k =>
        have hname := hkey k rfl
        cases hk : k.toList with
        | nil =>
            rw [hk] at hname
            cases hname
        | cons c cs =>
            rw [hk] at hname
            have hcolon : ∀ d ∈ (':' :: '{' :: inside).head?, isNameChar d = false := by
              rintro d ⟨⟩
              rfl
            have hread := takeName_append hname hcolon
            rw [Option.elim_some, hk, List.append_assoc, List.singleton_append, takeOpening?, hread]
            show some (some (String.ofList (c :: cs)), inside) = _
            rw [← hk, String.ofList_toList]

theorem scanGroup_eq_absent_iff : scanGroup cs = .absent ↔ ∀ key inside, ¬Opens key inside cs := by
  unfold scanGroup
  simp only [← takeOpening?_eq_some_iff]
  cases takeOpening? cs with
  | none => simp
  | some opening =>
      refine iff_of_false ?_ fun h => h opening.1 opening.2 rfl
      dsimp only
      split <;> simp

theorem scanGroup_eq_open_iff : scanGroup cs = .open ↔
    ∃ key inside, Opens key inside cs ∧ NeverBalances ('{' :: inside) := by
  unfold scanGroup
  simp only [← takeOpening?_eq_some_iff, ← takeBraced?_eq_none_iff]
  cases takeOpening? cs with
  | none => simp
  | some opening =>
      obtain ⟨key, inside⟩ := opening
      cases hread : takeBraced? 0 inside <;> simp [hread]

theorem scanGroup_eq_complete_iff {value : List Char} : scanGroup cs = .complete key value rest ↔
    ∃ inner, Opens key (inner ++ '}' :: rest) cs ∧ Encloses ('{' :: (inner ++ ['}'])) ∧
      value = unescapeBraces inner := by
  unfold scanGroup
  constructor
  · intro h
    split at h
    · cases h
    · next key' inside hopening =>
        split at h
        · cases h
        · next hread =>
            cases h
            obtain ⟨inner, rfl, hvalue, hencloses⟩ := takeBraced?_eq_some_iff.mp hread
            exact ⟨inner, takeOpening?_eq_some_iff.mp hopening, hencloses, hvalue⟩
  · rintro ⟨inner, hopens, hencloses, rfl⟩
    rw [takeOpening?_eq_some_iff.mpr hopens]
    dsimp only
    rw [takeBraced?_eq_some_iff.mpr ⟨inner, rfl, rfl, hencloses⟩]

/-- A group does not start with a blank. -/
theorem Opens.isGap_eq_false (h : Opens key inside cs) : ∀ c ∈ cs.head?, isGap c = false := by
  obtain ⟨hkey, rfl⟩ := h
  cases key with
  | none =>
      rintro c ⟨⟩
      rfl
  | some k =>
      have hname := hkey k rfl
      intro c hc
      cases hk : k.toList with
      | nil =>
          rw [hk] at hname
          cases hname
      | cons d ds =>
          rw [hk] at hname
          obtain rfl : d = c := by simpa [hk] using hc
          rw [Bool.eq_false_iff]
          intro hgap
          have hblank : d = ' ' ∨ d = '\t' := by simpa [isGap] using hgap
          rcases hblank with rfl | rfl <;> cases hname

namespace Group.StandsFor

variable {g : Group} {own : List Char}

theorem scanGroup_append (h : g.StandsFor own) (rest : List Char) :
    scanGroup (own ++ rest) = .complete g.key g.value.toList rest := by
  obtain ⟨inner, ⟨hkey, rfl⟩, hencloses, hvalue⟩ := h
  rw [hvalue, String.toList_ofList]
  exact scanGroup_eq_complete_iff.mpr ⟨inner, ⟨hkey, by simp⟩, hencloses, rfl⟩

theorem head_not_gap (h : g.StandsFor own) : ∃ c cs, own = c :: cs ∧ isGap c = false := by
  obtain ⟨inner, hopens, -⟩ := h
  cases own with
  | nil => simpa using hopens.2
  | cons c cs => exact ⟨c, cs, rfl, hopens.isGap_eq_false c rfl⟩

end Group.StandsFor

/-- A group that was read is the start of the text. -/
theorem standsFor_of_scanGroup {value : List Char} (h : scanGroup cs = .complete key value rest) :
    ∃ own, cs = own ++ rest ∧ own ≠ [] ∧
      ∀ start stop, (Group.mk key (String.ofList value) start stop).StandsFor own := by
  obtain ⟨inner, ⟨hkey, rfl⟩, hencloses, rfl⟩ := scanGroup_eq_complete_iff.mp h
  exact ⟨(key.elim [] fun k => k.toList ++ [':']) ++ '{' :: (inner ++ ['}']), by simp, by simp,
    fun start stop => ⟨inner, ⟨hkey, rfl⟩, hencloses, rfl⟩⟩

/-! ## Lists of groups -/

section Rounds

variable {rounds : Nat} {gap body own : List Char}

/-- What stands after the blanks decides whether there is a further group. -/
private theorem scanGroups_succ (hbody : cs.dropWhile isGap = body) :
    scanGroups (rounds + 1) offset cs =
      match scanGroup body with
      | .absent => ([], offset, false)
      | .open => ([], offset, true)
      | .complete key value rest =>
        let start := offset + (cs.length - body.length)
        let stop := start + (body.length - rest.length)
        let scanned := scanGroups rounds stop rest
        (⟨key, String.ofList value, start, stop⟩ :: scanned.1, scanned.2.1, scanned.2.2) := by
  subst hbody
  rfl

theorem scanGroups_of_absent (h : scanGroup (cs.dropWhile isGap) = .absent) :
    scanGroups (rounds + 1) offset cs = ([], offset, false) := by
  rw [scanGroups_succ rfl, h]

theorem scanGroups_of_open (h : scanGroup (cs.dropWhile isGap) = .open) :
    scanGroups (rounds + 1) offset cs = ([], offset, true) := by
  rw [scanGroups_succ rfl, h]

theorem scanGroups_of_complete {value : List Char} (hcs : cs = gap ++ (own ++ rest))
    (hbody : cs.dropWhile isGap = own ++ rest)
    (h : scanGroup (own ++ rest) = .complete key value rest) :
    let stop := offset + gap.length + own.length
    scanGroups (rounds + 1) offset cs =
      (⟨key, String.ofList value, offset + gap.length, stop⟩ :: (scanGroups rounds stop rest).1,
        (scanGroups rounds stop rest).2) := by
  have hstart : cs.length - (own ++ rest).length = gap.length := by
    rw [hcs, List.length_append, Nat.add_sub_cancel]
  have hstop : (own ++ rest).length - rest.length = own.length := by
    rw [List.length_append, Nat.add_sub_cancel]
  rw [scanGroups_succ hbody, h]
  dsimp only
  rw [hstart, hstop]

/-- What is read as groups are groups, and what follows them is none or never closes. -/
theorem scanGroups_lists (hoffset : offset ≤ text.length) (hrounds : text.length - offset ≤ rounds) :
    let scanned := scanGroups rounds offset (text.drop offset)
    Lists text offset scanned.1 scanned.2.1 ∧
      if scanned.2.2 then OpenGroupAt text scanned.2.1 else NoGroupAt text scanned.2.1 := by
  induction rounds generalizing offset with
  | zero =>
      have hnil : text.drop offset = [] := List.drop_eq_nil_of_le (by omega)
      refine ⟨.nil offset, fun key inside hopens => ?_⟩
      have htext : text.drop (scanGroups 0 offset (text.drop offset)).2.1 = [] := hnil
      rw [htext] at hopens
      simpa using hopens.2
  | succ rounds ih =>
      let gap := (text.drop offset).takeWhile isGap
      let body := (text.drop offset).dropWhile isGap
      have hsplit : text.drop offset = gap ++ body := List.takeWhile_append_dropWhile.symm
      cases h : scanGroup body with
      | absent =>
          rw [scanGroups_of_absent h]
          exact ⟨.nil offset, scanGroup_eq_absent_iff.mp h⟩
      | «open» =>
          rw [scanGroups_of_open h]
          exact ⟨.nil offset, scanGroup_eq_open_iff.mp h⟩
      | complete key value rest =>
          obtain ⟨own, hown, hne, hstands⟩ := standsFor_of_scanGroup h
          rw [hown] at hsplit h
          rw [scanGroups_of_complete hsplit hown h]
          have hbody : text.drop (offset + gap.length) = own ++ rest := drop_add_of_drop hsplit
          have hrest : text.drop (offset + gap.length + own.length) = rest := drop_add_of_drop hbody
          have hlength : offset + gap.length + own.length ≤ text.length := by
            have := congrArg List.length hsplit
            simp only [List.length_drop, List.length_append] at this
            omega
          have hown : 0 < own.length := List.length_pos_iff.mpr hne
          obtain ⟨hlists, hend⟩ := ih hlength (by omega)
          rw [hrest] at hlists hend
          refine ⟨.cons (by simp) (by simpa using hown) hlength ?_ ?_ hlists, hend⟩
          · intro c hc
            have hgap : slice text offset (offset + gap.length) = gap := slice_eq_of_drop hsplit
            exact List.mem_takeWhile_imp (hgap ▸ hc : c ∈ gap)
          · have hslice : slice text (offset + gap.length) (offset + gap.length + own.length) = own :=
              slice_eq_of_drop hbody
            show Group.StandsFor _ (slice text (offset + gap.length) _)
            rw [hslice]
            exact hstands _ _

/-- Groups are read as they stand, up to where none follows or one that never closes. -/
theorem scanGroups_of_lists {groups : List Group} {isOpen : Bool}
    (h : Lists text offset groups last) (hoffset : offset ≤ text.length)
    (hend : if isOpen then OpenGroupAt text last else NoGroupAt text last)
    (hrounds : text.length - offset ≤ rounds) :
    scanGroups rounds offset (text.drop offset) = (groups, last, isOpen) := by
  induction h generalizing rounds with
  | nil offset =>
      cases rounds with
      | zero =>
          have hnil : text.drop offset = [] := List.drop_eq_nil_of_le (by omega)
          cases isOpen with
          | false => rfl
          | true =>
              obtain ⟨key, inside, hopens, -⟩ := hend
              rw [hnil] at hopens
              simpa using hopens.2
      | succ rounds =>
          cases isOpen with
          | false => exact scanGroups_of_absent (scanGroup_eq_absent_iff.mpr hend)
          | true => exact scanGroups_of_open (scanGroup_eq_open_iff.mpr hend)
  | @cons offset last g others start_le start_lt stop_le gap own rest ih =>
      cases rounds with
      | zero => omega
      | succ rounds =>
          let blanks := slice text offset g.start
          let written := slice text g.start g.stop
          have hbody : text.drop g.start = written ++ text.drop g.stop :=
            drop_eq_slice_append start_lt.le text
          have hsplit : text.drop offset = blanks ++ (written ++ text.drop g.stop) := by
            rw [← hbody]
            exact drop_eq_slice_append start_le text
          obtain ⟨c, cs, hwritten, hc⟩ := own.head_not_gap
          have hdrop : (text.drop offset).dropWhile isGap = written ++ text.drop g.stop := by
            rw [hsplit, List.dropWhile_append_of_pos gap, show written = c :: cs from hwritten,
              List.cons_append, List.dropWhile_cons_of_neg (by simp [hc])]
          have hstart : offset + blanks.length = g.start := by
            simp only [blanks, slice, List.length_drop, List.length_take]
            omega
          have hstop : g.start + written.length = g.stop := by
            simp only [written, slice, List.length_drop, List.length_take]
            omega
          rw [scanGroups_of_complete hsplit hdrop (own.scanGroup_append _)]
          rw [hstart, hstop, ih (by omega) hend (by omega), String.ofList_toList]

end Rounds

namespace Lists

variable {groups : List Group}

/-- The groups end behind where they start, and within the text. -/
theorem le (h : Lists text offset groups last) : offset ≤ last := by
  induction h with
  | nil => exact Nat.le_refl _
  | cons => omega

theorem bounds (h : Lists text offset groups last) :
    ∀ g ∈ groups, offset ≤ g.start ∧ g.start < g.stop ∧ g.stop ≤ last ∧ g.stop ≤ text.length := by
  induction h with
  | nil => nofun
  | cons start_le start_lt stop_le gap own rest ih =>
      have hlast := rest.le
      refine List.forall_mem_cons.mpr ⟨by omega, fun g hg => ?_⟩
      have := ih g hg
      omega

theorem le_length (h : Lists text offset groups last) (hoffset : offset ≤ text.length) :
    last ≤ text.length := by
  induction h with
  | nil => exact hoffset
  | cons start_le start_lt stop_le gap own rest ih => exact ih stop_le

/-- The groups do not overlap. -/
theorem pairwise (h : Lists text offset groups last) :
    groups.Pairwise fun g g' => g.stop ≤ g'.start := by
  induction h with
  | nil => exact .nil
  | cons start_le start_lt stop_le gap own rest ih =>
      exact List.pairwise_cons.mpr ⟨fun g hg => (rest.bounds g hg).1, ih⟩

end Lists

/-! ## Heads -/

namespace Head

/-- Where the name of a head ends. -/
def nameStop (h : Head) : Nat := h.start + 1 + h.name.toList.length

/-- A head stands at an offset of a text: a dot, a name that is as long as it can be, and its groups,
which end at `last`. -/
structure StandsAt (h : Head) (text : List Char) (start last : Nat) : Prop where
  start_eq : h.start = start
  isName_name : isName h.name.toList = true
  dot_name : slice text start h.nameStop = '.' :: h.name.toList
  name_ends : ∀ c ∈ (text.drop h.nameStop).head?, isNameChar c = false
  groups : Lists text h.nameStop h.groups last

end Head

variable {h : Head}

/-- The name of a head, and so all of it, stands within the text. -/
theorem Head.StandsAt.last_le (hstands : h.StandsAt text start last) : last ≤ text.length := by
  refine hstands.groups.le_length ?_
  have hlength := congrArg List.length hstands.dot_name
  simp only [slice, List.length_drop, List.length_take, List.length_cons] at hlength
  rw [Head.nameStop, hstands.start_eq] at hlength ⊢
  omega

/-- Where a name starts after a dot, it is read, and groups after it. -/
theorem headAt?_dot_cons {name after : List Char} (hname : isName name = true)
    (hafter : ∀ c ∈ after.head?, isNameChar c = false) :
    let nameStop := offset + 1 + name.length
    let scanned := scanGroups after.length nameStop after
    headAt? offset ('.' :: (name ++ after)) = some
      { name := String.ofList name, groups := scanned.1, start := offset
        stop := if scanned.2.2 then nameStop else scanned.2.1, unterminated := scanned.2.2 } := by
  rw [headAt?, takeName_append hname hafter]
  cases name with
  | nil => cases hname
  | cons c cs => rfl

/-- What stands at an offset where a head is read. -/
theorem exists_of_scan_eq_some (hscan : scan text start = some h) : ∃ name after,
    text.drop start = '.' :: (name ++ after) ∧ isName name = true ∧
      ∀ c ∈ after.head?, isNameChar c = false := by
  unfold scan headAt? at hscan
  split at hscan
  · next rest hrest =>
      split at hscan
      · cases hscan
      · next name after hne hname =>
          have hread : isName (takeName rest).1 = true ∧
              ∀ c ∈ (takeName rest).2.head?, isNameChar c = false :=
            isName_takeName (by rw [hname]; exact hne)
          have hsplit := takeName_append_rest rest
          rw [hname] at hread hsplit
          exact ⟨name, after, by rw [hrest, hsplit], hread⟩
  · cases hscan

theorem exists_cons_of_isName {name : List Char} (h : isName name = true) :
    ∃ c cs, name = c :: cs ∧ isNameStart c = true := by
  cases name with
  | nil => cases h
  | cons c cs => exact ⟨c, cs, rfl, by simpa using (Bool.and_eq_true_iff.mp h).1⟩

/-- **Nothing is read exactly where no dot with a name stands.** -/
theorem scan_eq_none_iff : scan text start = none ↔
    ¬∃ c rest, text.drop start = '.' :: c :: rest ∧ isNameStart c = true := by
  constructor
  · rintro hnone ⟨c, rest, hdrop, hc⟩
    have hne : (takeName (c :: rest)).1 ≠ [] := fun hnil => by
      rw [takeName_eq_nil_iff.mp hnil c rfl] at hc
      cases hc
    obtain ⟨hname, hafter⟩ := isName_takeName hne
    rw [scan, hdrop, ← takeName_append_rest (c :: rest), headAt?_dot_cons hname hafter] at hnone
    cases hnone
  · intro hno
    rw [Option.eq_none_iff_forall_ne_some]
    intro h hscan
    obtain ⟨name, after, hdrop, hname, -⟩ := exists_of_scan_eq_some hscan
    obtain ⟨c, cs, rfl, hc⟩ := exists_cons_of_isName hname
    exact hno ⟨c, cs ++ after, hdrop, hc⟩

/-- A head that is read stands where it is read. -/
theorem exists_standsAt_of_scan (hscan : scan text start = some h) :
    ∃ last, h.StandsAt text start last ∧
      if h.unterminated then h.stop = h.nameStop ∧ OpenGroupAt text last
      else h.stop = last ∧ NoGroupAt text last := by
  obtain ⟨name, after, hdrop, hname, hafter⟩ := exists_of_scan_eq_some hscan
  have hfront : text.drop start = ('.' :: name) ++ after := hdrop
  have hnameEnd : start + ('.' :: name).length = start + 1 + name.length := by
    rw [List.length_cons]
    omega
  have hrest : text.drop (start + 1 + name.length) = after := hnameEnd ▸ drop_add_of_drop hfront
  have hlength : start + 1 + name.length ≤ text.length := by
    have := congrArg List.length hfront
    simp only [List.length_drop, List.length_append, List.length_cons] at this
    omega
  have hrounds : text.length - (start + 1 + name.length) ≤ after.length := by
    rw [← hrest, List.length_drop]
  rw [scan, hdrop, headAt?_dot_cons hname hafter] at hscan
  obtain ⟨hlists, hend⟩ := scanGroups_lists hlength hrounds
  rw [hrest] at hlists hend
  have hhead := (Option.some.inj hscan).symm
  have hnameList : h.name.toList = name := by rw [hhead, String.toList_ofList]
  have hnameStop : h.nameStop = start + 1 + name.length := by
    rw [Head.nameStop, hnameList, hhead]
  refine ⟨(scanGroups after.length (start + 1 + name.length) after).2.1,
    ⟨by rw [hhead], by rwa [hnameList], ?_, ?_, ?_⟩, ?_⟩
  · rw [hnameStop, hnameList, ← hnameEnd]
    exact slice_eq_of_drop hfront
  · rw [hnameStop, hrest]
    exact hafter
  · rw [hnameStop, hhead]
    exact hlists
  · rw [hnameStop, hhead]
    dsimp only
    split at hend
    · next hopen => simp [hopen, hend]
    · next hopen => simp [hopen, hend]

/-- A head that stands at a place is read there. -/
theorem Head.StandsAt.scan_eq_some (hstands : h.StandsAt text start last)
    (hend : if h.unterminated then h.stop = h.nameStop ∧ OpenGroupAt text last
      else h.stop = last ∧ NoGroupAt text last) : scan text start = some h := by
  obtain ⟨hstart, hname, hdot, hends, hgroups⟩ := hstands
  have hle : start ≤ h.nameStop := by
    rw [Head.nameStop]
    omega
  have hdrop : text.drop start = '.' :: (h.name.toList ++ text.drop h.nameStop) := by
    rw [drop_eq_slice_append hle, hdot]
    rfl
  have hlength : h.nameStop ≤ text.length := by
    have := congrArg List.length hdrop
    simp only [Head.nameStop, List.length_drop, List.length_append, List.length_cons] at this ⊢
    omega
  have hrounds : text.length - h.nameStop ≤ (text.drop h.nameStop).length := by
    rw [List.length_drop]
  obtain ⟨hstop, hafter⟩ : (h.stop = if h.unterminated then h.nameStop else last) ∧
      if h.unterminated then OpenGroupAt text last else NoGroupAt text last := by
    split at hend
    · next hopen => rwa [if_pos hopen, if_pos hopen]
    · next hclosed => rwa [if_neg hclosed, if_neg hclosed]
  have hread := scanGroups_of_lists hgroups hlength hafter hrounds
  rw [scan, hdrop, headAt?_dot_cons hname hends, ← hstart]
  show some (Head.mk _ _ _ _ _) = some h
  rw [show h.start + 1 + h.name.toList.length = h.nameStop from rfl, hread, String.ofList_toList,
    ← hstop]

/-- **A head is read exactly where it stands**, up to where no further group is opened. If one is
left open, the head is a mistake and ends with its name. -/
theorem scan_eq_some_iff : scan text start = some h ↔ ∃ last, h.StandsAt text start last ∧
    if h.unterminated then h.stop = h.nameStop ∧ OpenGroupAt text last
    else h.stop = last ∧ NoGroupAt text last :=
  ⟨exists_standsAt_of_scan, fun ⟨_, hstands, hend⟩ => hstands.scan_eq_some hend⟩

/-! ## The text of a head alone -/

/-- A group that stands `n` characters later. -/
def Group.shift (n : Nat) (g : Group) : Group := { g with start := g.start + n, stop := g.stop + n }

/-- A head that stands `n` characters later. -/
def Head.shift (n : Nat) (h : Head) : Head :=
  { h with groups := h.groups.map (·.shift n), start := h.start + n, stop := h.stop + n }

theorem slice_eq_take_drop (text : List Char) (start stop : Nat) :
    slice text start stop = (text.drop start).take (stop - start) := List.drop_take

/-- A part of a part, counted in the whole. -/
theorem slice_slice {i j : Nat} (hj : start + j ≤ stop) :
    slice (slice text start stop) i j = slice text (start + i) (start + j) := by
  rw [slice_eq_take_drop, slice_eq_take_drop text start, slice_eq_take_drop text (start + i),
    List.drop_take, List.drop_drop, List.take_take]
  congr 1
  omega

theorem length_slice (hstop : stop ≤ text.length) : (slice text start stop).length = stop - start := by
  rw [slice, List.length_drop, List.length_take, Nat.min_eq_left hstop]

/-- Groups of a text are those of a part of it that holds them. -/
theorem Lists.slice {groups : List Group} (h : Lists text offset groups last) (hstart : start ≤ offset)
    (hlast : last ≤ stop) (hstop : stop ≤ text.length) : ∃ groups' : List Group,
      groups'.map (·.shift start) = groups ∧
      Lists (Call.slice text start stop) (offset - start) groups' (last - start) := by
  induction h with
  | nil offset => exact ⟨[], rfl, .nil _⟩
  | @cons offset last g others start_le start_lt stop_le gap own rest ih =>
      have hrest := rest.le
      obtain ⟨groups', hgroups, hlists⟩ := ih (by omega) hlast
      let g' : Group := { g with start := g.start - start, stop := g.stop - start }
      have hg : g'.shift start = g := by
        show Group.mk _ _ _ _ = g
        rw [Nat.sub_add_cancel (by omega), Nat.sub_add_cancel (by omega)]
      refine ⟨g' :: groups', by rw [List.map_cons, hg, hgroups], .cons ?_ ?_ ?_ ?_ ?_ hlists⟩
      · show offset - start ≤ g.start - start
        omega
      · show g.start - start < g.stop - start
        omega
      · show g.stop - start ≤ _
        rw [length_slice hstop]
        omega
      · show ∀ c ∈ Call.slice _ (offset - start) (g.start - start), _
        rw [slice_slice (by omega), Nat.add_sub_cancel' hstart, Nat.add_sub_cancel' (by omega)]
        exact gap
      · show Group.StandsFor _ (Call.slice _ (g.start - start) (g.stop - start))
        rw [slice_slice (by omega), Nat.add_sub_cancel' (by omega), Nat.add_sub_cancel' (by omega)]
        exact own

theorem Head.problem?_eq_none_iff : h.problem? = none ↔ h.unterminated = false := by
  unfold Head.problem?
  cases h.unterminated <;> simp

/-- **A head without a mistake is read from its own text as from the whole.** -/
theorem scan_slice (hscan : scan text start = some h) (hproblem : h.problem? = none) :
    (scan (slice text start h.stop) 0).map (·.shift start) = some h := by
  obtain ⟨last, hstands, hend⟩ := scan_eq_some_iff.mp hscan
  rw [Head.problem?_eq_none_iff.mp hproblem, if_neg Bool.false_ne_true] at hend
  obtain ⟨rfl, -⟩ := hend
  have hname := hstands.groups.le
  have hnameStop : h.nameStop = start + 1 + h.name.toList.length := by
    rw [Head.nameStop, hstands.start_eq]
  have hstop := hstands.last_le
  have hstart : start ≤ h.nameStop := by omega
  obtain ⟨groups', hgroups, hlists⟩ := hstands.groups.slice hstart (Nat.le_refl _) hstop
  let alone : Head := { h with groups := groups', start := 0, stop := h.stop - start }
  have haloneStop : alone.nameStop = h.nameStop - start := by
    rw [hnameStop]
    show 0 + 1 + h.name.toList.length = _
    omega
  have hread : scan (slice text start h.stop) 0 = some alone := by
    refine scan_eq_some_iff.mpr ⟨h.stop - start, ⟨rfl, hstands.isName_name, ?_, ?_, ?_⟩, ?_⟩
    · rw [haloneStop, slice_slice (by omega), Nat.add_zero, Nat.add_sub_cancel' (by omega)]
      exact hstands.dot_name
    · intro c hc
      rw [haloneStop, slice, List.drop_drop, Nat.add_sub_cancel' (by omega), List.drop_take] at hc
      refine hstands.name_ends c ?_
      rw [List.head?_take] at hc
      split at hc
      · cases hc
      · exact hc
    · rw [haloneStop]
      exact hlists
    · show if h.unterminated then _ else _
      rw [Head.problem?_eq_none_iff.mp hproblem, if_neg Bool.false_ne_true]
      refine ⟨rfl, fun key inside hopens => ?_⟩
      rw [List.drop_eq_nil_of_le (by rw [length_slice hstop])] at hopens
      simpa using hopens.2
  rw [hread]
  show some (Head.mk h.name (groups'.map _) (0 + start) (h.stop - start + start) _) = some h
  rw [hgroups, Nat.zero_add, Nat.sub_add_cancel (by omega), ← hstands.start_eq]

/-- **The scanner accepts exactly the grammar of call heads.** Nothing is read exactly where no dot
with a name stands. A head without a mistake is read exactly if it stands there with all of its
groups and no further group is opened after it. A head with a mistake is read exactly if it stands
there with groups after which another one is opened that never closes, and it ends with its name.
The groups of a head follow one another, and a head without a mistake is read from its own text as it
is from the whole. -/
theorem scan_grammar (text : List Char) (start : Nat) :
    (scan text start = none ↔
      ¬∃ c rest, text.drop start = '.' :: c :: rest ∧ isNameStart c = true) ∧
    (∀ h : Head, scan text start = some h ∧ h.problem? = none ↔
      h.unterminated = false ∧ h.StandsAt text start h.stop ∧ NoGroupAt text h.stop) ∧
    (∀ h : Head, scan text start = some h ∧
        h.problem? = some ("unterminated argument group in call to ." ++ h.name) ↔
      h.unterminated = true ∧
        ∃ last, h.StandsAt text start last ∧ h.stop = h.nameStop ∧ OpenGroupAt text last) ∧
    (∀ h : Head, scan text start = some h →
      (∀ g ∈ h.groups, h.nameStop ≤ g.start ∧ g.start < g.stop ∧ g.stop ≤ text.length) ∧
      (h.groups.Pairwise fun g g' => g.stop ≤ g'.start) ∧
      (h.problem? = none →
        (scan (slice text start h.stop) 0).map (·.shift start) = some h)) := by
  refine ⟨scan_eq_none_iff, fun h => ?_, fun h => ?_, fun h hscan => ?_⟩
  · rw [Head.problem?_eq_none_iff, scan_eq_some_iff]
    cases hclosed : h.unterminated with
    | true => simp
    | false => simp
  · have hproblem : h.problem? = some ("unterminated argument group in call to ." ++ h.name) ↔
        h.unterminated = true := by
      unfold Head.problem?
      cases h.unterminated <;> simp
    rw [hproblem, scan_eq_some_iff]
    cases hopen : h.unterminated with
    | true => simp
    | false => simp
  · obtain ⟨last, hstands, -⟩ := scan_eq_some_iff.mp hscan
    refine ⟨fun g hg => ?_, hstands.groups.pairwise, scan_slice hscan⟩
    have := hstands.groups.bounds g hg
    omega

end Livedoc.Call
