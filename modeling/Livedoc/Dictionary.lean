/-!
# Dictionaries

A dictionary keeps its keys in the order in which they were first set. Setting a
key again changes its value and not its place.
-/

namespace Livedoc

/-- Values by key, in the order of the keys. -/
abbrev Dictionary (α : Type) := List (String × α)

namespace Dictionary

variable {α : Type}

/-- The value of a key. -/
def get? (d : Dictionary α) (key : String) : Option α := d.lookup key

/-- The dictionary with a key set to a value. -/
def set (d : Dictionary α) (key : String) (value : α) : Dictionary α :=
  match d with
  | [] => [(key, value)]
  | (k, v) :: rest => if k == key then (k, value) :: rest else (k, v) :: set rest key value

/-- The dictionary with all entries of another one set. -/
def setAll (d : Dictionary α) (other : Dictionary α) : Dictionary α :=
  other.foldl (fun d (key, value) => d.set key value) d

/-- The entries in the order of their keys. -/
def sorted (d : Dictionary α) : Dictionary α := d.mergeSort fun a b => decide (a.1 ≤ b.1)

/-- A key that was set has its value, and the others keep theirs. -/
theorem get?_set (d : Dictionary α) (key other : String) (value : α) :
    (d.set key value).get? other = if other = key then some value else d.get? other := by
  induction d with
  | nil =>
    by_cases h : other = key
    · simp [set, get?, h]
    · have hb : (other == key) = false := by simpa using h
      simp [set, get?, List.lookup_cons, h, hb]
  | cons entry rest ih =>
    obtain ⟨k, v⟩ := entry
    simp only [get?] at ih ⊢
    by_cases hk : k = key
    · subst hk
      by_cases h : other = k
      · simp [set, h]
      · have hb : (other == k) = false := by simpa using h
        simp [set, List.lookup_cons, h, hb]
    · by_cases h : other = k
      · subst h
        simp [set, hk]
      · have hb : (other == k) = false := by simpa using h
        simp [set, List.lookup_cons, hk, hb, ih]

end Dictionary

end Livedoc
