import Livedoc.Dictionary

/-!
# Dictionaries over each other

A dictionary in which no key occurs twice is determined by what its keys stand for. Setting a
key keeps it so, and then setting all entries of one dictionary in another one, or keeping some
of the entries only, is a matter of looking up: an entry of the upper one goes before
(`get?_setAll`), and an entry that is not kept is not there (`Distinct.get?_filter`).
-/

namespace Livedoc.Dictionary

variable {α : Type}

/-- No key occurs twice. -/
def Distinct (d : Dictionary α) : Prop := (d.map fun entry => entry.1).Nodup

theorem distinct_cons {key : String} {value : α} {rest : Dictionary α} :
    Distinct ((key, value) :: rest) ↔ key ∉ rest.map (fun entry => entry.1) ∧ Distinct rest :=
  List.nodup_cons

theorem get?_cons (key other : String) (value : α) (rest : Dictionary α) :
    get? ((key, value) :: rest) other = if other = key then some value else get? rest other := by
  by_cases h : other = key
  · simp [get?, h]
  · have hb : (other == key) = false := by simpa using h
    simp [get?, List.lookup_cons, h, hb]

/-- A key that does not occur stands for nothing. -/
theorem get?_eq_none_of_notMem {d : Dictionary α} {key : String}
    (h : key ∉ d.map fun entry => entry.1) : d.get? key = none := by
  rw [get?, List.lookup_eq_none_iff]
  intro entry hentry
  rw [bne_iff_ne]
  rintro rfl
  exact h (List.mem_map_of_mem hentry)

theorem mem_keys_set {d : Dictionary α} {key other : String} {value : α}
    (h : other ∈ (d.set key value).map fun entry => entry.1) :
    other = key ∨ other ∈ d.map fun entry => entry.1 := by
  induction d with
  | nil => exact .inl (by simpa [set] using h)
  | cons entry rest ih =>
      rw [set] at h
      split at h
      · exact .inr (by simpa using h)
      · rcases List.mem_cons.mp h with hfirst | hrest
        · exact .inr (by simp [hfirst])
        · exact (ih hrest).imp_right fun hmem => List.mem_cons_of_mem _ hmem

/-- Setting a key keeps keys distinct. -/
theorem Distinct.set {d : Dictionary α} (h : d.Distinct) (key : String) (value : α) :
    Distinct (d.set key value) := by
  induction d with
  | nil => exact List.pairwise_singleton _ key
  | cons entry rest ih =>
      obtain ⟨hnew, hrest⟩ := distinct_cons.mp h
      rw [Dictionary.set]
      split
      · exact distinct_cons.mpr ⟨hnew, hrest⟩
      · rename_i hne
        refine distinct_cons.mpr ⟨fun hmem => ?_, ih hrest⟩
        rcases mem_keys_set hmem with heq | hmem
        · exact hne (beq_iff_eq.mpr heq)
        · exact hnew hmem

/-- Setting all entries of another dictionary keeps keys distinct. -/
theorem Distinct.setAll {d : Dictionary α} (h : d.Distinct) (other : Dictionary α) :
    Distinct (d.setAll other) := by
  induction other generalizing d with
  | nil => exact h
  | cons entry rest ih => exact ih (h.set entry.1 entry.2)

/-- After all entries of another dictionary were set they go before those that were there. -/
theorem get?_setAll {other : Dictionary α} (h : other.Distinct) :
    ∀ (d : Dictionary α) (key : String),
      (d.setAll other).get? key = (other.get? key).or (d.get? key) := by
  induction other with
  | nil => exact fun d key => rfl
  | cons entry rest ih =>
      intro d key
      obtain ⟨hnew, hrest⟩ := distinct_cons.mp h
      have hstep : d.setAll (entry :: rest) = (d.set entry.1 entry.2).setAll rest := rfl
      rw [hstep, ih hrest, get?_set, get?_cons]
      split
      · rename_i hkey
        rw [hkey, get?_eq_none_of_notMem hnew]
        rfl
      · rfl

/-- Of the entries that are kept, a key finds the one that it found before, or none. -/
theorem Distinct.get?_filter {d : Dictionary α} (h : d.Distinct) (p : String × α → Bool)
    (key : String) :
    get? (d.filter p) key = (d.get? key).filter fun value => p (key, value) := by
  induction d with
  | nil => rfl
  | cons entry rest ih =>
      obtain ⟨k, v⟩ := entry
      obtain ⟨hnew, hrest⟩ := distinct_cons.mp h
      by_cases hkey : key = k
      · subst hkey
        have hnone : get? (rest.filter p) key = none := by
          rw [ih hrest, get?_eq_none_of_notMem hnew]
          rfl
        by_cases hp : p (key, v) <;> simp [get?_cons, Option.filter_some, hp, hnone]
      · have hskip : get? (List.filter p ((k, v) :: rest)) key = get? (rest.filter p) key := by
          by_cases hp : p (k, v) <;> simp [get?_cons, hp, hkey]
        rw [hskip, ih hrest, get?_cons, if_neg hkey]

end Livedoc.Dictionary
