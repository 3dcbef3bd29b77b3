import Livedoc.Proofs.Call.Grammar

/-!
# Texts that may stand between braces

A text whose braces balance, and that does not end with a backslash, may stand between braces: it is
the whole of what they enclose (`Balanced.scan_around`).  The text of a call is of this kind
(`Balanced.of_scan`).
-/

namespace Livedoc.Call

open Livedoc.Text

variable {cs ds text : List Char}

/-- A text opens as many braces as it closes, closes none that it did not open, and does not end
within an escape. -/
structure Balanced (cs : List Char) : Prop where
  staysOpen : StaysOpen 0 cs
  balance_eq : balance cs = 0
  ends : cs.getLast? ≠ some '\\'

namespace Balanced

theorem nil : Balanced [] where
  staysOpen := .nil (Int.le_refl 0)
  balance_eq := rfl
  ends := by simp

/-- A character that is neither a brace nor a backslash may stand before such a text. -/
theorem cons {c : Char} (hc : c ∉ ['{', '}', '\\']) (h : Balanced cs) : Balanced (c :: cs) := by
  simp only [List.mem_cons, List.not_mem_nil, or_false, not_or] at hc
  obtain ⟨hopen, hclose, hslash⟩ := hc
  have hescape : EscapesNone c cs := fun h => absurd h hslash
  refine ⟨h.staysOpen.other hopen hclose hescape (Int.le_refl 0), ?_, ?_⟩
  · rw [balance_cons hopen hclose hescape, h.balance_eq]
  · rw [List.getLast?_cons]
    cases hlast : cs.getLast? with
    | none => simpa using hslash
    | some d => simpa [hlast] using h.ends

theorem append (hcs : Balanced cs) (hds : Balanced ds) : Balanced (cs ++ ds) where
  staysOpen := by
    intro part hpart
    rcases List.prefix_or_prefix_of_prefix hpart (List.prefix_append cs ds) with h | ⟨tail, rfl⟩
    · exact hcs.staysOpen part h
    · rw [balance_append hcs.ends, hcs.balance_eq, Int.zero_add]
      exact hds.staysOpen tail ((List.prefix_append_right_inj cs).mp hpart)
  balance_eq := by rw [balance_append hcs.ends, hcs.balance_eq, hds.balance_eq, Int.add_zero]
  ends := by
    rw [List.getLast?_append]
    cases hlast : ds.getLast? with
    | none => simpa using hcs.ends
    | some d => simpa [hlast] using hds.ends

/-- A text without braces and backslashes. -/
theorem of_forall (h : ∀ c ∈ cs, c ∉ ['{', '}', '\\']) : Balanced cs := by
  induction cs with
  | nil => exact .nil
  | cons c cs ih =>
      rw [List.forall_mem_cons] at h
      exact (ih h.2).cons h.1

theorem of_isName (h : isName cs = true) : Balanced cs := by
  refine of_forall fun c hc hmem => ?_
  have hchar := List.all_eq_true.mp (Bool.and_eq_true_iff.mp h).2 c hc
  simp only [List.mem_cons, List.not_mem_nil, or_false] at hmem
  rcases hmem with rfl | rfl | rfl <;> cases hchar

end Balanced

/-- The inside of what braces enclose closes nothing that it did not open. -/
theorem staysOpen_of_encloses {inner : List Char} (h : Encloses ('{' :: (inner ++ ['}']))) :
    StaysOpen 0 inner ∧ balance (inner ++ ['}']) = -1 := by
  have hread : takeBraced? 0 (inner ++ ['}']) = some (unescapeBraces inner, []) :=
    takeBraced?_eq_some_iff.mpr ⟨inner, rfl, rfl, h⟩
  obtain ⟨inner', hinner, -, hopen, hbalance⟩ := exists_of_takeBraced?_eq_some hread
  obtain rfl : inner = inner' := List.append_cancel_right hinner
  exact ⟨hopen, by simpa using hbalance⟩

/-- What is enclosed in braces may itself stand between braces. -/
theorem Balanced.of_encloses {inner : List Char} (h : Encloses ('{' :: (inner ++ ['}']))) :
    Balanced ('{' :: (inner ++ ['}'])) where
  staysOpen := by
    obtain ⟨hopen, hbalance⟩ := staysOpen_of_encloses h
    refine .opening (Int.le_refl 0) fun part hpart => ?_
    rcases List.prefix_concat_iff.mp hpart with rfl | hpart
    · rw [hbalance]
      decide
    · have := hopen part hpart
      omega
  balance_eq := h.1
  ends := by simp [List.getLast?_cons]

theorem Balanced.of_standsFor {g : Group} (h : g.StandsFor cs) : Balanced cs := by
  obtain ⟨inner, ⟨hkey, rfl⟩, hencloses, -⟩ := h
  have hbraces := Balanced.of_encloses hencloses
  cases hg : g.key with
  | none => exact hbraces
  | some key =>
      have hcolon : Balanced [':'] := Balanced.nil.cons (by decide)
      exact ((Balanced.of_isName (hkey key hg)).append hcolon).append hbraces

/-- Groups with blanks before them may stand between braces. -/
theorem Balanced.of_lists {offset last : Nat} {groups : List Group}
    (h : Lists text offset groups last) : Balanced (slice text offset last) := by
  induction h with
  | nil offset =>
      rw [slice_eq_take_drop, Nat.sub_self, List.take_zero]
      exact .nil
  | @cons offset last g others start_le start_lt stop_le gap own rest ih =>
      have hgap : Balanced (slice text offset g.start) := by
        refine Balanced.of_forall fun c hc hmem => ?_
        have hblank := gap c hc
        simp only [List.mem_cons, List.not_mem_nil, or_false] at hmem
        rcases hmem with rfl | rfl | rfl <;> cases hblank
      rw [slice_append_slice start_le (by have := rest.le; omega),
        slice_append_slice (Nat.le_of_lt start_lt) rest.le]
      exact hgap.append ((Balanced.of_standsFor own).append ih)

/-- The text of a head without a mistake may stand between braces. -/
theorem Balanced.of_scan {head : Head} (hscan : scan text 0 = some head)
    (hproblem : head.problem? = none) (hstop : head.stop = text.length) : Balanced text := by
  obtain ⟨last, hstands, hend⟩ := scan_eq_some_iff.mp hscan
  rw [Head.problem?_eq_none_iff.mp hproblem, if_neg Bool.false_ne_true] at hend
  obtain ⟨rfl, -⟩ := hend
  have hwhole : slice text 0 head.stop = text := by
    rw [hstop, slice, List.take_length, List.drop_zero]
  rw [← hwhole, slice_append_slice (Nat.zero_le _) hstands.groups.le, hstands.dot_name]
  exact ((Balanced.of_isName hstands.isName_name).cons (by decide)).append
    (Balanced.of_lists hstands.groups)

/-! ## The call around a text -/

/-- A call whose only argument holds a text. -/
def around (name inner : List Char) : List Char := '.' :: (name ++ ' ' :: '{' :: (inner ++ ['}']))

theorem length_around (name inner : List Char) :
    (around name inner).length = name.length + inner.length + 4 := by
  simp only [around, List.length_cons, List.length_append, List.length_nil]
  omega

/-- **A text that may stand between braces is the whole argument**, without the backslashes before
its braces, and the call ends after it. -/
theorem Balanced.scan_around {name inner : List Char} (hname : isName name = true)
    (h : Balanced inner) : scan (around name inner) 0 = some
      { name := String.ofList name
        groups := [⟨none, String.ofList (unescapeBraces inner), name.length + 2,
          (around name inner).length⟩]
        start := 0, stop := (around name inner).length, unterminated := false } := by
  have hbalance : balance (inner ++ ['}']) = -1 := by
    rw [balance_append h.ends, h.balance_eq]
    rfl
  have hread : scanGroup (('{' :: (inner ++ ['}'])) ++ []) =
      .complete none (unescapeBraces inner) [] :=
    scanGroup_eq_complete_iff.mpr
      ⟨inner, ⟨by simp, by simp⟩, encloses_of_staysOpen h.staysOpen hbalance, rfl⟩
  have hend (rounds offset : Nat) : scanGroups rounds offset [] = ([], offset, false) := by
    cases rounds <;> rfl
  have hgroups (rounds : Nat) : scanGroups (rounds + 1) (0 + 1 + name.length)
        (' ' :: '{' :: (inner ++ ['}'])) =
      ([⟨none, String.ofList (unescapeBraces inner), name.length + 2,
        (around name inner).length⟩], (around name inner).length, false) := by
    have hstart : 0 + 1 + name.length + [' '].length = name.length + 2 := by
      rw [List.length_singleton]
      omega
    have hstop :
        name.length + 2 + ('{' :: (inner ++ ['}'])).length = (around name inner).length := by
      simp only [length_around, List.length_cons, List.length_append, List.length_nil]
      omega
    have hsplit : ' ' :: '{' :: (inner ++ ['}']) = [' '] ++ (('{' :: (inner ++ ['}'])) ++ []) := by
      simp
    rw [scanGroups_of_complete hsplit (by simp [isGap]) hread, hend, hstart, hstop]
  have hafter : ∀ c ∈ (' ' :: '{' :: (inner ++ ['}'])).head?, isNameChar c = false := by
    rintro c ⟨⟩
    rfl
  show headAt? 0 ('.' :: (name ++ ' ' :: '{' :: (inner ++ ['}']))) = _
  rw [headAt?_dot_cons hname hafter, List.length_cons, hgroups]
  rfl

end Livedoc.Call
