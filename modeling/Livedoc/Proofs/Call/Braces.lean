import Livedoc.Proofs.Call.Head

/-!
# Braces

What a group holds is decided by counting braces.  The balance of a text is the number of braces that
it opens less the number of those that it closes, and a brace after a backslash is not counted.  A
group is read up to the first place where its braces balance, and its value is what stands inside
them without the backslashes before braces (`takeBraced?_eq_some_iff`).  If its braces never balance,
nothing is read (`takeBraced?_eq_none_iff`).
-/

namespace Livedoc.Call

variable {cs rest value : List Char} {c : Char}

/-- The braces that a text opens less those that it closes. -/
def balance : List Char → Int
  | [] => 0
  | '\\' :: '{' :: rest => balance rest
  | '\\' :: '}' :: rest => balance rest
  | '{' :: rest => balance rest + 1
  | '}' :: rest => balance rest - 1
  | _ :: rest => balance rest

/-- A text without the backslashes before braces. -/
def unescapeBraces : List Char → List Char
  | [] => []
  | '\\' :: '{' :: rest => '{' :: unescapeBraces rest
  | '\\' :: '}' :: rest => '}' :: unescapeBraces rest
  | c :: rest => c :: unescapeBraces rest

-- A brace after a backslash is not counted, and the backslash goes.
example : balance ['{', '\\', '{', 'a', '}'] = 0 := by cbv

example : unescapeBraces ['{', '\\', '{', 'a', '}'] = ['{', '{', 'a', '}'] := by cbv

/-- The braces of a text balance at its end and at no place before. -/
def Encloses (text : List Char) : Prop :=
  balance text = 0 ∧ ∀ part, part <+: text → part ≠ [] → balance part = 0 → part = text

/-- The braces of a text balance nowhere. -/
def NeverBalances (text : List Char) : Prop :=
  ∀ part, part <+: text → part ≠ [] → balance part ≠ 0

/-- No start of a text closes more braces than are open, `depth` being open before it. -/
def StaysOpen (depth : Int) (text : List Char) : Prop :=
  ∀ part, part <+: text → 0 ≤ depth + balance part

/-! ## Counting braces -/

/-- A character that is no brace and escapes none does not count. -/
theorem balance_cons (hopen : c ≠ '{') (hclose : c ≠ '}') (hescape : EscapesNone c cs) :
    balance (c :: cs) = balance cs := by
  rw [balance]
  · rintro rest rfl rfl
    exact (hescape rfl '{' rfl).1 rfl
  · rintro rest rfl rfl
    exact (hescape rfl '}' rfl).2 rfl
  · exact hopen
  · exact hclose

/-- A character that escapes no brace stands in the value as it is. -/
theorem unescapeBraces_cons (hescape : EscapesNone c cs) :
    unescapeBraces (c :: cs) = c :: unescapeBraces cs := by
  rw [unescapeBraces]
  · rintro rest rfl rfl
    exact (hescape rfl '{' rfl).1 rfl
  · rintro rest rfl rfl
    exact (hescape rfl '}' rfl).2 rfl

/-- Two texts count one after the other, unless the first one ends within an escape. -/
theorem balance_append (h : cs.getLast? ≠ some '\\') (ds : List Char) :
    balance (cs ++ ds) = balance cs + balance ds := by
  fun_induction balance cs with
  | case1 => simp
  | case2 rest ih | case3 rest ih =>
      rw [List.cons_append, List.cons_append, balance, ih]
      intro hlast
      exact h (by simp [List.getLast?_cons, hlast])
  | case4 rest ih | case5 rest ih =>
      rw [List.cons_append, balance, ih]
      · omega
      · intro hlast
        exact h (by simp [List.getLast?_cons, hlast])
  | case6 c rest hopenEscaped hcloseEscaped hopen hclose ih =>
      rw [List.cons_append, balance_cons hopen hclose, ih]
      · intro hlast
        exact h (by simp [List.getLast?_cons, hlast])
      · rintro rfl d hd
        cases rest with
        | nil => exact absurd rfl h
        | cons e rest => exact EscapesNone.of_forall hopenEscaped hcloseEscaped rfl d hd

/-- A text loses nothing exactly if it has no escaped braces. -/
theorem unescapeBraces_eq_self_iff :
    unescapeBraces cs = cs ↔ ∀ brace ∈ ['{', '}'], ¬['\\', brace] <:+: cs := by
  have hlength (ds : List Char) : (unescapeBraces ds).length ≤ ds.length := by
    fun_induction unescapeBraces ds with
    | case1 => exact Nat.le_refl 0
    | case2 ds ih | case3 ds ih | case4 c ds _ _ ih =>
        simp only [List.length_cons]
        omega
  fun_induction unescapeBraces cs with
  | case1 => simp
  | case2 cs ih | case3 cs ih =>
      refine iff_of_false (fun h => ?_) fun h => ?_
      · have := congrArg List.length h
        have := hlength cs
        simp only [List.length_cons] at *
        omega
      · exact h _ (by simp) (List.prefix_append ['\\', _] cs).isInfix
  | case4 c cs hopen hclose ih =>
      have hnot : ∀ brace ∈ ['{', '}'], ¬['\\', brace] <+: c :: cs := by
        rintro brace hbrace hpart
        obtain ⟨rfl, htail⟩ := List.cons_prefix_cons.mp hpart
        obtain ⟨rest, rfl⟩ := htail
        simp only [List.mem_cons, List.not_mem_nil, or_false] at hbrace
        rcases hbrace with rfl | rfl
        · exact hopen rest rfl rfl
        · exact hclose rest rfl rfl
      refine (List.cons_inj_right c).trans (ih.trans ?_)
      refine forall₂_congr fun brace hbrace => not_congr ?_
      rw [List.infix_cons_iff, or_iff_right (hnot brace hbrace)]

namespace StaysOpen

variable {depth : Int}

theorem nil (h : 0 ≤ depth) : StaysOpen depth [] := by
  rintro part hpart
  obtain rfl := List.prefix_nil.mp hpart
  simpa [balance] using h

theorem cons (hdepth : 0 ≤ depth) (h : ∀ part, part <+: cs → 0 ≤ depth + balance (c :: part)) :
    StaysOpen depth (c :: cs) := by
  intro part hpart
  rcases List.prefix_cons_iff.mp hpart with rfl | ⟨tail, rfl, htail⟩
  · simpa [balance] using hdepth
  · exact h tail htail

/-- An escaped brace leaves as many open as before. -/
theorem escaped (hc : c = '{' ∨ c = '}') (hdepth : 0 ≤ depth) (h : StaysOpen depth cs) :
    StaysOpen depth ('\\' :: c :: cs) := by
  refine cons hdepth fun part hpart => ?_
  rcases List.prefix_cons_iff.mp hpart with rfl | ⟨tail, rfl, htail⟩
  · simpa [balance] using hdepth
  · rcases hc with rfl | rfl <;> exact h tail htail

theorem opening (hdepth : 0 ≤ depth) (h : StaysOpen (depth + 1) cs) :
    StaysOpen depth ('{' :: cs) := by
  refine cons hdepth fun part hpart => ?_
  have := h part hpart
  rw [balance]
  omega

theorem closing (hdepth : 0 ≤ depth) (h : StaysOpen (depth - 1) cs) :
    StaysOpen depth ('}' :: cs) := by
  refine cons hdepth fun part hpart => ?_
  have := h part hpart
  rw [balance]
  omega

theorem other (hopen : c ≠ '{') (hclose : c ≠ '}') (hescape : EscapesNone c cs)
    (hdepth : 0 ≤ depth) (h : StaysOpen depth cs) : StaysOpen depth (c :: cs) := by
  refine cons hdepth fun part hpart => ?_
  rw [balance_cons hopen hclose (hescape.of_prefix hpart)]
  exact h part hpart

end StaysOpen

/-! ## Reading up to the closing brace -/

/-- If the group never closes, at least its own brace stays open throughout. -/
theorem staysOpen_of_takeBraced?_eq_none {depth : Nat} (h : takeBraced? depth cs = none) :
    StaysOpen depth cs := by
  have hdepth (n : Nat) : (0 : Int) ≤ n := Int.natCast_nonneg n
  fun_induction takeBraced? depth cs with
  | case1 => exact .nil (hdepth _)
  | case2 depth cs ih => exact .escaped (.inl rfl) (hdepth _) (ih (Option.map_eq_none_iff.mp h))
  | case3 depth cs ih => exact .escaped (.inr rfl) (hdepth _) (ih (Option.map_eq_none_iff.mp h))
  | case4 depth cs ih => exact .opening (hdepth _) (ih (Option.map_eq_none_iff.mp h))
  | case5 => cases h
  | case6 cs depth ih =>
      have hinside := ih (Option.map_eq_none_iff.mp h)
      refine .closing (hdepth _) ?_
      simpa using hinside
  | case7 depth c cs hopenEscaped hcloseEscaped hopen hclose ih =>
      have hescape := EscapesNone.of_forall hopenEscaped hcloseEscaped
      exact .other hopen hclose hescape (hdepth _) (ih (Option.map_eq_none_iff.mp h))

/-- What is read of a group ends with the first brace that closes more than is open, and the value
is what stands before it without the backslashes before braces. -/
theorem exists_of_takeBraced?_eq_some {depth : Nat} (h : takeBraced? depth cs = some (value, rest)) :
    ∃ inner, cs = inner ++ '}' :: rest ∧ value = unescapeBraces inner ∧ StaysOpen depth inner ∧
      depth + balance (inner ++ ['}']) = -1 := by
  have hdepth (n : Nat) : (0 : Int) ≤ n := Int.natCast_nonneg n
  replace h := braced_of_takeBraced? h
  induction h with
  | close => exact ⟨[], rfl, rfl, .nil (hdepth _), rfl⟩
  | @escaped depth c cs value hc _ ih =>
      obtain ⟨inner, rfl, rfl, hopen, hbalance⟩ := ih
      refine ⟨'\\' :: c :: inner, rfl, ?_, .escaped hc (hdepth _) hopen, ?_⟩
      · rcases hc with rfl | rfl <;> rfl
      · rcases hc with rfl | rfl <;> exact hbalance
  | opening _ ih =>
      obtain ⟨inner, rfl, rfl, hopen, hbalance⟩ := ih
      refine ⟨'{' :: inner, rfl, rfl, .opening (hdepth _) hopen, ?_⟩
      rw [List.cons_append, balance]
      omega
  | closing _ ih =>
      obtain ⟨inner, rfl, rfl, hopen, hbalance⟩ := ih
      refine ⟨'}' :: inner, rfl, rfl, .closing (hdepth _) ?_, ?_⟩
      · simpa using hopen
      · rw [List.cons_append, balance]
        omega
  | @other depth c cs value hopen hclose hescape _ ih =>
      obtain ⟨inner, rfl, rfl, hstays, hbalance⟩ := ih
      have hinner : inner <+: inner ++ '}' :: rest := List.prefix_append _ _
      have hclosed : inner ++ ['}'] <+: inner ++ '}' :: rest :=
        (List.prefix_append_right_inj _).mpr (List.cons_prefix_cons.mpr ⟨rfl, List.nil_prefix⟩)
      refine ⟨c :: inner, rfl, (unescapeBraces_cons (hescape.of_prefix hinner)).symm,
        .other hopen hclose (hescape.of_prefix hinner) (hdepth _) hstays, ?_⟩
      rw [List.cons_append, balance_cons hopen hclose (hescape.of_prefix hclosed)]
      exact hbalance

/-! ## What braces enclose -/

/-- The text in braces that a group reads encloses its inside. -/
theorem encloses_of_staysOpen {inner : List Char} (hopen : StaysOpen 0 inner)
    (hbalance : balance (inner ++ ['}']) = -1) : Encloses ('{' :: (inner ++ ['}'])) := by
  constructor
  · rw [balance, hbalance]
    rfl
  · intro part hpart hne hzero
    rcases List.prefix_cons_iff.mp hpart with rfl | ⟨tail, rfl, htail⟩
    · exact absurd rfl hne
    rcases List.prefix_concat_iff.mp htail with rfl | htail
    · rfl
    · have := hopen tail htail
      rw [balance] at hzero
      omega

/-- A text starts with one enclosed text at most. -/
theorem Encloses.eq_of_prefix {text text' : List Char} (h : Encloses text) (h' : Encloses text')
    (hne : text ≠ []) (hne' : text' ≠ []) (htext : text <+: cs) (htext' : text' <+: cs) :
    text = text' := by
  rcases List.prefix_or_prefix_of_prefix htext htext' with hpart | hpart
  · exact h'.2 text hpart hne h.1
  · exact (h.2 text' hpart hne' h'.1).symm

/-- **A group is read up to the first place where its braces balance.** -/
theorem takeBraced?_eq_some_iff : takeBraced? 0 cs = some (value, rest) ↔
    ∃ inner, cs = inner ++ '}' :: rest ∧ value = unescapeBraces inner ∧
      Encloses ('{' :: (inner ++ ['}'])) := by
  constructor
  · intro h
    obtain ⟨inner, hcs, hvalue, hopen, hbalance⟩ := exists_of_takeBraced?_eq_some h
    exact ⟨inner, hcs, hvalue, encloses_of_staysOpen hopen (by simpa using hbalance)⟩
  · rintro ⟨inner, rfl, rfl, hencloses⟩
    have hpart (inner rest : List Char) :
        '{' :: (inner ++ ['}']) <+: '{' :: (inner ++ '}' :: rest) := ⟨rest, by simp⟩
    rcases hread : takeBraced? 0 (inner ++ '}' :: rest) with _ | ⟨value, after⟩
    · have hopen := staysOpen_of_takeBraced?_eq_none hread _
        (List.cons_prefix_cons.mp (hpart inner rest)).2
      have hzero := hencloses.1
      rw [balance] at hzero
      omega
    · obtain ⟨inner', hcs, hvalue, hopen, hbalance⟩ := exists_of_takeBraced?_eq_some hread
      have hencloses' := encloses_of_staysOpen hopen (by simpa using hbalance)
      have hsame := hencloses.eq_of_prefix hencloses' (by simp) (by simp) (hpart inner rest)
        (hcs ▸ hpart inner' after)
      obtain rfl : inner = inner' := by simpa using hsame
      obtain rfl : rest = after := by simpa using hcs
      rw [hvalue]

/-- **A group is left open if its braces never balance.** -/
theorem takeBraced?_eq_none_iff : takeBraced? 0 cs = none ↔ NeverBalances ('{' :: cs) := by
  constructor
  · intro h part hpart hne hzero
    rcases List.prefix_cons_iff.mp hpart with rfl | ⟨tail, rfl, htail⟩
    · exact hne rfl
    · have := staysOpen_of_takeBraced?_eq_none h tail htail
      rw [balance] at hzero
      omega
  · intro h
    rw [Option.eq_none_iff_forall_ne_some]
    rintro ⟨value, rest⟩ hread
    obtain ⟨inner, rfl, -, hencloses⟩ := takeBraced?_eq_some_iff.mp hread
    exact h _ ⟨rest, by simp⟩ (List.cons_ne_nil _ _) hencloses.1

end Livedoc.Call
