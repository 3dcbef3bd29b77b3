import Livedoc.Call.Head
import Livedoc.Proofs.Text.Blank
import Mathlib.Data.List.TakeDrop
import Mathlib.Data.List.TakeWhile

/-!
# What reading a head takes off a text

A head that was read is the start of its text.  Every group of it is a stretch of the text: a
key with its colon, if it has one, and a text in braces that reads as the value of the group
(`Group.WrittenAs`).  The head ends with the last group, or with its name if there is none
(`headAt?_written`).  What is read in braces is a relation between a text and its value (`Braced`),
by which inductions on reading braces go.
-/

namespace Livedoc.Call

open Livedoc.Text

variable {cs rest : List Char}

/-! ## Names and braces -/

/-- A name is the start of the text that it is read off. -/
theorem takeName_append_rest (cs : List Char) : (takeName cs).1 ++ (takeName cs).2 = cs := by
  cases cs with
  | nil => rfl
  | cons c cs =>
      by_cases hc : isNameStart c = true
      · rw [takeName, if_pos hc, List.span_eq_takeWhile_dropWhile, List.takeWhile_append_dropWhile]
      · rw [takeName, if_neg hc, List.nil_append]

/-- A name consists of characters that names may have. -/
theorem isNameChar_of_mem_takeName {c : Char} (h : c ∈ (takeName cs).1) : isNameChar c = true := by
  cases cs with
  | nil => cases h
  | cons first cs =>
      by_cases hfirst : isNameStart first = true
      · rw [takeName, if_pos hfirst, List.span_eq_takeWhile_dropWhile] at h
        exact List.mem_takeWhile_imp h
      · rw [takeName, if_neg hfirst] at h
        cases h

/-- A character escapes no brace after it. -/
def EscapesNone (c : Char) (text : List Char) : Prop :=
  c = '\\' → ∀ d ∈ text.head?, d ≠ '{' ∧ d ≠ '}'

namespace EscapesNone

variable {c : Char}

theorem of_forall (hopen : ∀ rest, c = '\\' → cs = '{' :: rest → False)
    (hclose : ∀ rest, c = '\\' → cs = '}' :: rest → False) : EscapesNone c cs := by
  intro hc d hd
  obtain ⟨rest, rfl⟩ := List.head?_eq_some_iff.mp hd
  exact ⟨fun h => hopen rest hc (h ▸ rfl), fun h => hclose rest hc (h ▸ rfl)⟩

theorem of_prefix {part : List Char} (h : EscapesNone c cs) (hpart : part <+: cs) :
    EscapesNone c part := by
  intro hc d hd
  obtain ⟨rest, rfl⟩ := List.head?_eq_some_iff.mp hd
  obtain ⟨after, rfl⟩ := hpart
  exact h hc d rfl

end EscapesNone

/-- What is read in braces, `depth` groups being open inside them: a text up to the closing brace,
before `rest`, and its value, which is the text without the backslashes before braces. -/
inductive Braced (rest : List Char) : (depth : Nat) → (cs value : List Char) → Prop
  | close : Braced rest 0 ('}' :: rest) []
  | escaped {depth : Nat} {c : Char} {cs value : List Char} (hc : c = '{' ∨ c = '}')
      (h : Braced rest depth cs value) : Braced rest depth ('\\' :: c :: cs) (c :: value)
  | opening {depth : Nat} {cs value : List Char} (h : Braced rest (depth + 1) cs value) :
      Braced rest depth ('{' :: cs) ('{' :: value)
  | closing {depth : Nat} {cs value : List Char} (h : Braced rest depth cs value) :
      Braced rest (depth + 1) ('}' :: cs) ('}' :: value)
  | other {depth : Nat} {c : Char} {cs value : List Char} (hopen : c ≠ '{') (hclose : c ≠ '}')
      (hescape : EscapesNone c cs) (h : Braced rest depth cs value) :
      Braced rest depth (c :: cs) (c :: value)

section Braced

variable {depth : Nat} {value : List Char}

/-- A character in front of what is read. -/
theorem exists_of_map_cons {read : Option (List Char × List Char)} {c : Char}
    (h : (read.map fun (v, r) => (c :: v, r)) = some (value, rest)) :
    ∃ v, read = some (v, rest) ∧ value = c :: v := by
  obtain ⟨⟨v, r⟩, hread, heq⟩ := Option.map_eq_some_iff.mp h
  cases heq
  exact ⟨v, hread, rfl⟩

theorem braced_of_takeBraced? (h : takeBraced? depth cs = some (value, rest)) :
    Braced rest depth cs value := by
  fun_induction takeBraced? depth cs generalizing value with
  | case1 => cases h
  | case2 depth cs ih =>
      obtain ⟨v, hinner, rfl⟩ := exists_of_map_cons h
      exact .escaped (.inl rfl) (ih hinner)
  | case3 depth cs ih =>
      obtain ⟨v, hinner, rfl⟩ := exists_of_map_cons h
      exact .escaped (.inr rfl) (ih hinner)
  | case4 depth cs ih =>
      obtain ⟨v, hinner, rfl⟩ := exists_of_map_cons h
      exact .opening (ih hinner)
  | case5 cs =>
      cases h
      exact .close
  | case6 cs depth ih =>
      obtain ⟨v, hinner, rfl⟩ := exists_of_map_cons h
      exact .closing (ih hinner)
  | case7 depth c cs hopenEscaped hcloseEscaped hopen hclose ih =>
      obtain ⟨v, hinner, rfl⟩ := exists_of_map_cons h
      exact .other hopen hclose (.of_forall hopenEscaped hcloseEscaped) (ih hinner)

theorem Braced.takeBraced?_eq_some (h : Braced rest depth cs value) :
    takeBraced? depth cs = some (value, rest) := by
  induction h with
  | close => rfl
  | escaped hc _ ih => rcases hc with rfl | rfl <;> rw [takeBraced?, ih, Option.map_some]
  | opening _ ih => rw [takeBraced?, ih, Option.map_some]
  | closing _ ih => rw [takeBraced?, ih, Option.map_some]
  | other hopen hclose hescape _ ih =>
      rw [takeBraced?, ih, Option.map_some]
      · rintro ds rfl rfl
        exact (hescape rfl '{' rfl).1 rfl
      · rintro ds rfl rfl
        exact (hescape rfl '}' rfl).2 rfl
      · exact hopen
      · exact hclose

theorem Braced.exists_inner (h : Braced rest depth cs value) : ∃ inner, cs = inner ++ '}' :: rest ∧
    ∀ after, Braced after depth (inner ++ '}' :: after) value := by
  induction h with
  | close => exact ⟨[], rfl, fun after => .close⟩
  | @escaped depth c cs value hc _ ih =>
      obtain ⟨inner, rfl, hafter⟩ := ih
      exact ⟨'\\' :: c :: inner, rfl, fun after => .escaped hc (hafter after)⟩
  | opening _ ih =>
      obtain ⟨inner, rfl, hafter⟩ := ih
      exact ⟨'{' :: inner, rfl, fun after => .opening (hafter after)⟩
  | closing _ ih =>
      obtain ⟨inner, rfl, hafter⟩ := ih
      exact ⟨'}' :: inner, rfl, fun after => .closing (hafter after)⟩
  | @other depth c cs value hopen hclose hescape _ ih =>
      obtain ⟨inner, rfl, hafter⟩ := ih
      refine ⟨c :: inner, rfl, fun after => .other hopen hclose (fun hc d hd => ?_) (hafter after)⟩
      -- a backslash is followed by the same character as before
      refine hescape hc d ?_
      cases inner <;> exact hd

/-- **What is read in braces ends with a brace**, and reads the same whatever follows it. -/
theorem takeBraced?_eq_some (h : takeBraced? depth cs = some (value, rest)) :
    ∃ inner, cs = inner ++ '}' :: rest ∧
      ∀ after, takeBraced? depth (inner ++ '}' :: after) = some (value, after) := by
  obtain ⟨inner, hcs, hafter⟩ := (braced_of_takeBraced? h).exists_inner
  exact ⟨inner, hcs, fun after => (hafter after).takeBraced?_eq_some⟩

end Braced

/-! ## Groups -/

/-- The text of a group: its key with a colon, if it has one, and in braces a text that reads as
its value. -/
def Group.WrittenAs (g : Group) (text : List Char) : Prop :=
  ∃ inner, text = (g.key.elim [] fun key => key.toList ++ [':']) ++ '{' :: (inner ++ ['}']) ∧
    takeBraced? 0 (inner ++ ['}']) = some (g.value.toList, [])

/-- What opens a group is its key, with a colon, and a brace. -/
theorem takeOpening?_eq_some {key : Option String}
    (h : takeOpening? cs = some (key, rest)) :
    cs = (key.elim [] fun key => key.toList ++ [':']) ++ '{' :: rest := by
  have hname := takeName_append_rest cs
  unfold takeOpening? at h
  split at h
  · next hsplit =>
      cases h
      rw [← hname, hsplit]
      rfl
  · next hsplit =>
      cases h
      rw [← hname, hsplit]
      simp
  · cases h

/-- A group that was read is the start of its text. -/
private theorem scanGroup_complete {key : Option String} {value : List Char}
    (h : scanGroup cs = .complete key value rest) :
    ∃ text, cs = text ++ rest ∧
      ∀ start stop, (Group.mk key (String.ofList value) start stop).WrittenAs text := by
  unfold scanGroup at h
  split at h
  · cases h
  · next key' inside hopening =>
      split at h
      · cases h
      · next value' rest' hbraced =>
          cases h
          obtain ⟨inner, rfl, hafter⟩ := takeBraced?_eq_some hbraced
          refine ⟨(key.elim [] fun key => key.toList ++ [':']) ++ '{' :: (inner ++ ['}']), ?_,
            fun start stop => ⟨inner, rfl, ?_⟩⟩
          · rw [takeOpening?_eq_some hopening]
            simp
          · rw [hafter, String.toList_ofList]

/-- Groups of a line: each is the text between its offsets, and they lie between two places, the
second of which is the end of the last one. -/
structure Written (line : List Char) (first last : Nat) (groups : List Group) : Prop where
  text : ∀ g ∈ groups, g.WrittenAs ((line.take g.stop).drop g.start)
  bounds : ∀ g ∈ groups, first ≤ g.start ∧ g.stop ≤ last
  last_eq : last = (groups.getLast?.map (·.stop)).getD first
  first_le : first ≤ last
  last_le : last ≤ line.length

namespace Written

variable {line : List Char} {first last : Nat} {groups : List Group}

/-- One more group before the others, with a gap before it. -/
theorem cons {g : Group} (h : Written line g.stop last groups) (hfirst : first ≤ g.start)
    (hstop : g.start ≤ g.stop) (htext : g.WrittenAs ((line.take g.stop).drop g.start)) :
    Written line first last (g :: groups) where
  text := by
    intro g' hg'
    rcases List.mem_cons.mp hg' with rfl | hg'
    · exact htext
    · exact h.text g' hg'
  bounds := by
    intro g' hg'
    rcases List.mem_cons.mp hg' with rfl | hg'
    · exact ⟨hfirst, h.first_le⟩
    · have := h.bounds g' hg'
      exact ⟨by omega, this.2⟩
  last_eq := by
    rw [h.last_eq, List.getLast?_cons]
    cases groups.getLast? <;> rfl
  first_le := by
    have := h.first_le
    omega
  last_le := h.last_le

/-- A group has at least its braces, so it ends behind its start. -/
theorem start_lt_stop {g : Group} (h : Written line first last groups) (hg : g ∈ groups) :
    g.start < g.stop := by
  obtain ⟨inner, htext, -⟩ := h.text g hg
  by_contra hle
  have hnil : (line.take g.stop).drop g.start = [] := by
    refine List.drop_eq_nil_of_le (Nat.le_trans (List.length_take_le _ _) (by omega))
  rw [hnil] at htext
  simp at htext

end Written

/-- **Groups that were read are stretches of their text**, which stands in the line at
`offset`. -/
theorem scanGroups_written {line : List Char} (rounds : Nat) {offset : Nat}
    (hoffset : offset ≤ line.length) :
    Written line offset (scanGroups rounds offset (line.drop offset)).2.1
      (scanGroups rounds offset (line.drop offset)).1 := by
  have hnone : ∀ {offset : Nat}, offset ≤ line.length → Written line offset offset [] :=
    fun h => ⟨by simp, by simp, rfl, Nat.le_refl _, h⟩
  induction rounds generalizing offset with
  | zero => exact hnone hoffset
  | succ rounds ih =>
      -- the group stands behind the gap, at `start`
      let gap := (line.drop offset).takeWhile fun c => c == ' ' || c == '\t'
      let start := offset + gap.length
      have hbody :
          ((line.drop offset).dropWhile fun c => c == ' ' || c == '\t') = line.drop start := by
        rw [← drop_length_takeWhile, List.drop_drop]
      have hgap : gap.length ≤ (line.drop offset).length :=
        (List.takeWhile_prefix _).length_le
      have hstart : offset + ((line.drop offset).length - (line.drop start).length) = start := by
        simp only [List.length_drop] at hgap ⊢
        omega
      unfold scanGroups
      simp only [hbody, hstart]
      split
      · exact hnone hoffset
      · exact hnone hoffset
      · next key value rest hscan =>
          obtain ⟨text, htext, hwritten⟩ := scanGroup_complete hscan
          have hstop : start + ((line.drop start).length - rest.length) = start + text.length := by
            rw [htext, List.length_append]
            omega
          have hrest : rest = line.drop (start + text.length) := by
            rw [← List.drop_drop, htext, List.drop_left]
          have hlength : start + text.length ≤ line.length := by
            have := congrArg List.length htext
            simp only [List.length_append, List.length_drop] at this hgap
            omega
          have hslice : (line.take (start + text.length)).drop start = text := by
            rw [List.drop_take, htext, Nat.add_sub_cancel_left, List.take_left]
          simp only [hstop]
          subst hrest
          refine (ih hlength).cons (Nat.le_add_right offset _) (Nat.le_add_right start _) ?_
          rw [hslice]
          exact hwritten _ _

/-! ## Heads -/

/-- The name of a head consists of characters that names may have. -/
theorem isNameChar_of_headAt? {offset : Nat} {head : Head} {c : Char}
    (h : headAt? offset cs = some head) (hc : c ∈ head.name.toList) : isNameChar c = true := by
  unfold headAt? at h
  split at h
  · next rest =>
      split at h
      · cases h
      · next name after _ hname =>
          cases h
          rw [String.toList_ofList] at hc
          have hmem : c ∈ (takeName rest).1 := by rwa [hname]
          exact isNameChar_of_mem_takeName hmem
  · cases h

/-- **A head that was read off a line is the start of it.** It starts with a dot and its name,
its groups are stretches of the line, and it ends with the last of them or with the name. If a
further group is left open, the head ends with the name as well. -/
theorem headAt?_written {line : List Char} {head : Head} (h : headAt? 0 line = some head) :
    head.start = 0 ∧ '.' :: head.name.toList <+: line ∧
      head.name.toList.length + 1 ≤ head.stop ∧ head.stop ≤ line.length ∧
      (head.unterminated = false →
        Written line (head.name.toList.length + 1) head.stop head.groups) := by
  unfold headAt? at h
  split at h
  · next rest =>
      split at h
      · cases h
      · next name after _ hname =>
          have hrest : name ++ after = rest := by
            have := takeName_append_rest rest
            rwa [hname] at this
          have hafter : after = ('.' :: rest).drop (0 + 1 + name.length) := by
            rw [Nat.zero_add, ← List.drop_drop, ← hrest]
            exact (List.drop_left).symm
          have hlength : 0 + 1 + name.length ≤ ('.' :: rest).length := by
            rw [← hrest, List.length_cons, List.length_append]
            omega
          have hgroups := scanGroups_written after.length hlength
          rw [← hafter] at hgroups
          have hfront : '.' :: name <+: '.' :: rest := ⟨after, by rw [← hrest]; rfl⟩
          rcases hscan : scanGroups after.length (0 + 1 + name.length) after with
            ⟨groups, last, isOpen⟩
          simp only [hscan] at h hgroups
          have hfirst := hgroups.first_le
          have hlast := hgroups.last_le
          cases h
          simp only [String.toList_ofList]
          refine ⟨trivial, hfront, ?_, ?_, fun hclosed => ?_⟩
          · split <;> omega
          · split <;> omega
          · rw [hclosed, Nat.add_comm name.length 1, ← Nat.zero_add 1]
            exact hgroups
  · cases h

/-- A head starts with a dot and its name. -/
theorem dot_name_prefix_take {line : List Char} {head : Head} (h : headAt? 0 line = some head) :
    '.' :: head.name.toList <+: line.take head.stop := by
  obtain ⟨-, hdot, hname, hstop, -⟩ := headAt?_written h
  refine List.prefix_of_prefix_length_le hdot (List.take_prefix _ _) ?_
  rw [List.length_take, List.length_cons]
  omega

/-- There is no newline in a name, and none in the dot before it. -/
theorem newline_not_mem_dot_name {offset : Nat} {line : List Char} {head : Head}
    (h : headAt? offset line = some head) : '\n' ∉ '.' :: head.name.toList := by
  intro hmem
  rcases List.mem_cons.mp hmem with hdot | hname
  · cases hdot
  · have hnewline : isNameChar '\n' = false := by decide
    rw [isNameChar_of_headAt? h hname] at hnewline
    cases hnewline

end Livedoc.Call
