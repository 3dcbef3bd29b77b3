import Livedoc.Html.Escape
import Livedoc.Text.Entity
import Mathlib.Data.List.Basic
import Mathlib.Data.List.TakeDrop

/-!
# What escaping keeps out and what it keeps

A character is written as a complete reference, or as itself where it is harmless
(`written_escapeChar`). So an escaped text is ASCII and holds no angle bracket and no quote,
whatever the text is, and every ampersand in it begins a complete reference.

Decoding the references of an escaped text gives every character as what it is read back as
(`decodeReferences_escape`). That is the character itself, unless its number is misread
(`readBack_eq_self_iff`): most of the numbers from 0x80 to 0x9F name characters of the old
Windows code page, and the reserved ones name nothing at all. So escaping is lossless for
texts without such characters and for no others (`escaping_lossless_and_safe`).
-/

namespace Livedoc.Text

/-! ## Hexadecimal digits -/

/-- The digits of a number stand for one below the base each. -/
theorem exists_of_mem_toDigits {n : Nat} {c : Char} (h : c ∈ Nat.toDigits 16 n) :
    ∃ d < 16, c = Nat.digitChar d := by
  induction n using Nat.strongRecOn with
  | ind n ih =>
      rw [Nat.toDigits_eq_if (by decide)] at h
      split at h
      · next hn => exact ⟨n, hn, List.mem_singleton.mp h⟩
      · next hn =>
          rcases List.mem_append.mp h with h | h
          · exact ih (n / 16) (by omega) h
          · exact ⟨n % 16, Nat.mod_lt n (by decide), List.mem_singleton.mp h⟩

theorem isHexDigit_digitChar : ∀ d < 16, isHexDigit (Nat.digitChar d).toUpper = true := by decide

theorem hexValue_digitChar : ∀ d < 16, hexValue (Nat.digitChar d).toUpper = d := by decide

/-- A number of one digit or more in upper case. -/
def upperHexDigits (n : Nat) : List Char := (hexDigits 1 n).map Char.toUpper

theorem upperHexDigits_eq (n : Nat) : upperHexDigits n = (Nat.toDigits 16 n).map Char.toUpper := by
  have h : 1 - (Nat.toDigits 16 n).length = 0 := by
    have := Nat.length_toDigits_pos (b := 16) (n := n)
    omega
  rw [upperHexDigits, hexDigits, h, List.replicate_zero, List.nil_append]

theorem upperHexDigits_ne_nil (n : Nat) : upperHexDigits n ≠ [] := by
  rw [upperHexDigits_eq, Ne, List.map_eq_nil_iff, ← List.length_eq_zero_iff]
  exact Nat.pos_iff_ne_zero.mp Nat.length_toDigits_pos

theorem isHexDigit_of_mem_upperHexDigits {n : Nat} {c : Char} (h : c ∈ upperHexDigits n) :
    isHexDigit c = true := by
  rw [upperHexDigits_eq, List.mem_map] at h
  obtain ⟨digit, hdigit, rfl⟩ := h
  obtain ⟨d, hd, rfl⟩ := exists_of_mem_toDigits hdigit
  exact isHexDigit_digitChar d hd

theorem digitsValue_append (base : Nat) (digits : List Char) (c : Char) :
    digitsValue base (digits ++ [c]) = digitsValue base digits * base + hexValue c := by
  simp [digitsValue]

/-- A number is the value of its digits. -/
theorem digitsValue_upperHexDigits (n : Nat) : digitsValue 16 (upperHexDigits n) = n := by
  induction n using Nat.strongRecOn with
  | ind n ih =>
      rw [upperHexDigits_eq, Nat.toDigits_eq_if (by decide)]
      split
      · next hn =>
          show 0 * 16 + hexValue (Nat.digitChar n).toUpper = n
          rw [hexValue_digitChar n hn]
          omega
      · next hn =>
          rw [List.map_append, List.map_singleton, digitsValue_append, ← upperHexDigits_eq,
            ih (n / 16) (by omega), hexValue_digitChar _ (Nat.mod_lt n (by decide))]
          omega

/-! ## Decoding one reference -/

/-- The characters of a reference are passed over. -/
theorem decodeReferencesFrom_length (skipped rest : List Char) :
    decodeReferencesFrom skipped.length (skipped ++ rest) = decodeReferencesFrom 0 rest := by
  induction skipped with
  | nil => rfl
  | cons c skipped ih => exact ih

theorem decodeReferencesFrom_cons {c : Char} (h : c ≠ '&') (rest : List Char) :
    decodeReferencesFrom 0 (c :: rest) = c :: decodeReferencesFrom 0 rest := by
  rw [decodeReferencesFrom]
  exact h

/-- A reference is decoded once it is recognised. -/
theorem decodeReferencesFrom_reference (body : List Char) {named rest : List Char}
    (h : reference? (body ++ rest) = some (named, body.length)) :
    decodeReferencesFrom 0 ('&' :: (body ++ rest)) = named ++ decodeReferencesFrom 0 rest := by
  rw [decodeReferencesFrom, h]
  exact congrArg (named ++ ·) (decodeReferencesFrom_length body rest)

/-- What a test accepts up to a character that it rejects. -/
theorem takeWhile_append_cons {p : Char → Bool} {cs : List Char} {c : Char}
    (h : ∀ x ∈ cs, p x = true) (hc : p c = false) (rest : List Char) :
    (cs ++ c :: rest).takeWhile p = cs := by
  rw [List.takeWhile_append_of_pos h, List.takeWhile_cons_of_neg (by simp [hc]), List.append_nil]

/-- A reference by number stands for what the number names. -/
theorem decodeReferencesFrom_number (digits : List Char) (hne : digits ≠ [])
    (hdigits : digits.all isHexDigit = true) (rest : List Char) :
    decodeReferencesFrom 0 ('&' :: '#' :: 'x' :: digits ++ ';' :: rest) =
      referencedByNumber (digitsValue 16 digits) ++ decodeReferencesFrom 0 rest := by
  have hrun : (digits ++ ';' :: rest).takeWhile isHexDigit = digits :=
    takeWhile_append_cons (List.all_eq_true.mp hdigits) (by decide) rest
  have href : reference? ('#' :: 'x' :: digits ++ [';'] ++ rest) =
      some (referencedByNumber (digitsValue 16 digits), digits.length + 3) := by
    simp [reference?, hrun, hne]
  have := decodeReferencesFrom_reference ('#' :: 'x' :: digits ++ [';']) (by simpa using href)
  simpa using this

/-- A reference by name stands for what the name does. -/
theorem decodeReferencesFrom_name (name : List Char) (hne : name ≠ []) (hlength : name.length ≤ 32)
    (hname : name.all isReferenceNameChar = true) (rest : List Char) :
    decodeReferencesFrom 0 ('&' :: name ++ ';' :: rest) =
      referencedByName name ++ decodeReferencesFrom 0 rest := by
  have hrun : (name ++ ';' :: rest).takeWhile isReferenceNameChar = name :=
    takeWhile_append_cons (List.all_eq_true.mp hname) (by decide) rest
  have href : reference? (name ++ ';' :: rest) = some (referencedByName name, name.length + 1) := by
    unfold reference?
    split
    · next heq =>
        -- a name does not start with the mark of a number
        cases name with
        | nil => exact absurd rfl hne
        | cons c name =>
            obtain rfl : c = '#' := (List.cons.inj heq).1
            exact absurd (List.all_eq_true.mp hname '#' (by simp)) (by decide)
    · simp [hrun, hne, hlength]
  have := decodeReferencesFrom_reference (name ++ [';']) (by simpa using href)
  simpa using this

/-! ## Complete references -/

/-- The inside of a complete reference: a number in hexadecimal, or a name in the table. -/
def IsReference (body : List Char) : Prop :=
  (∃ digits, digits ≠ [] ∧ digits.all isHexDigit = true ∧ body = '#' :: 'x' :: digits) ∨
    (namedCharacters? body).isSome = true

/-- Every ampersand of a text begins a complete reference. -/
def OnlyReferences (cs : List Char) : Prop :=
  ∀ before after, cs = before ++ '&' :: after →
    ∃ body rest, IsReference body ∧ after = body ++ ';' :: rest

namespace OnlyReferences

variable {cs ds body : List Char}

theorem of_not_mem (h : '&' ∉ cs) : OnlyReferences cs := by
  rintro before after rfl
  exact absurd (by simp) h

theorem reference (h : IsReference body) (hamp : '&' ∉ body) :
    OnlyReferences ('&' :: body ++ [';']) := by
  intro before after heq
  cases before with
  | nil => exact ⟨body, [], h, (List.cons.inj heq).2.symm⟩
  | cons c before =>
      -- the only ampersand is the first character
      obtain ⟨rfl, hrest⟩ : '&' = c ∧ body ++ [';'] = before ++ '&' :: after := List.cons.inj heq
      have hmem : '&' ∈ body ++ [';'] := by simp [hrest]
      exact absurd hmem (by simpa using hamp)

theorem append (hcs : OnlyReferences cs) (hds : OnlyReferences ds) :
    OnlyReferences (cs ++ ds) := by
  intro before after heq
  rcases List.append_eq_append_iff.mp heq with ⟨middle, rfl, hright⟩ | ⟨middle, hleft, hright⟩
  · exact hds middle after hright
  · cases middle with
    | nil => exact hds [] after hright.symm
    | cons c middle =>
        obtain ⟨rfl, rfl⟩ := List.cons.inj hright
        obtain ⟨body, rest, hbody, rfl⟩ := hcs before middle hleft
        exact ⟨body, rest ++ ds, hbody, by simp⟩

theorem flatMap {f : Char → List Char} (h : ∀ c, OnlyReferences (f c)) (cs : List Char) :
    OnlyReferences (cs.flatMap f) := by
  induction cs with
  | nil => exact of_not_mem List.not_mem_nil
  | cons c cs ih =>
      rw [List.flatMap_cons]
      exact (h c).append ih

end OnlyReferences

end Livedoc.Text

namespace Livedoc.Html

open Livedoc.Text

/-! ## How a character is written -/

/-- A character of ASCII that is no angle bracket and no quote. -/
def IsHarmless (c : Char) : Prop := c.toNat ≤ 0x7F ∧ c ∉ ['<', '>', '"', '\x27']

/-- A character inside of a reference. -/
def isReferenceChar (c : Char) : Bool := c == '#' || c.isAlphanum

/-- A character is written as a complete reference, or as itself. -/
inductive Written (c : Char) : List Char → Prop
  | reference (body : List Char) (h : IsReference body) (hbody : body.all isReferenceChar = true) :
      Written c ('&' :: body ++ [';'])
  | itself (h : IsHarmless c) (hamp : c ≠ '&') : Written c [c]

theorem isAlphanum_iff {c : Char} : c.isAlphanum = true ↔
    ((65 ≤ c.toNat ∧ c.toNat ≤ 90) ∨ (97 ≤ c.toNat ∧ c.toNat ≤ 122)) ∨
      (48 ≤ c.toNat ∧ c.toNat ≤ 57) := by
  have hranges : c.isAlphanum = ((decide ('A'.val ≤ c.val ∧ c.val ≤ 'Z'.val) ||
      (decide ('a'.val ≤ c.val) && decide (c.val ≤ 'z'.val))) ||
      (decide ('0'.val ≤ c.val) && decide (c.val ≤ '9'.val))) := rfl
  rw [hranges]
  simp only [Bool.or_eq_true, Bool.and_eq_true, decide_eq_true_eq, UInt32.le_iff_toNat_le]
  rfl

/-- What is in a reference is no markup and opens no other reference. -/
theorem isHarmless_of_isReferenceChar {c : Char} (h : isReferenceChar c = true) :
    IsHarmless c ∧ c ≠ '&' ∧ c ≠ '\n' := by
  have hne (d : Char) (hd : isReferenceChar d = false) : c ≠ d := by
    rintro rfl
    exact absurd (h.symm.trans hd) (by decide)
  refine ⟨⟨?_, ?_⟩, hne '&' (by decide), hne '\n' (by decide)⟩
  · rw [isReferenceChar, Bool.or_eq_true, beq_iff_eq, isAlphanum_iff] at h
    rcases h with rfl | h
    · decide
    · omega
  · simp only [List.mem_cons, List.not_mem_nil, or_false, not_or]
    exact ⟨hne '<' (by decide), hne '>' (by decide), hne '"' (by decide), hne '\x27' (by decide)⟩

theorem isReferenceChar_of_isHexDigit {c : Char} (h : isHexDigit c = true) :
    isReferenceChar c = true := by
  simp only [isHexDigit, Char.isDigit, Bool.or_eq_true, Bool.and_eq_true, decide_eq_true_eq,
    Char.le_def, ge_iff_le, UInt32.le_iff_toNat_le, Char.reduceVal, UInt32.reduceToNat] at h
  rw [isReferenceChar, Bool.or_eq_true, isAlphanum_iff]
  simp only [Char.toNat]
  omega

/-- The names that characters are written by. -/
def writtenNames : List (List Char × Char) :=
  [(['a', 'm', 'p'], '&'), (['l', 't'], '<'), (['g', 't'], '>'), (['q', 'u', 'o', 't'], '"')]

theorem namedCharacters?_writtenNames :
    writtenNames.all (fun entry => namedCharacters? entry.1 == some [entry.2]) = true := by
  decide +kernel

theorem namedCharacters?_of_mem {name : List Char} {c : Char} (h : (name, c) ∈ writtenNames) :
    namedCharacters? name = some [c] :=
  eq_of_beq (List.all_eq_true.mp namedCharacters?_writtenNames _ h)

theorem Written.name (name : List Char) {c : Char} (h : (name, c) ∈ writtenNames) :
    Written c ('&' :: name ++ [';']) :=
  .reference name (.inr (by rw [namedCharacters?_of_mem h]; rfl)) <|
    List.all_eq_true.mp (by decide : writtenNames.all (fun e => e.1.all isReferenceChar)) _ h

theorem Written.number (c : Char) (digits : List Char) (hne : digits ≠ [])
    (hdigits : digits.all isHexDigit = true) :
    Written c ('&' :: '#' :: 'x' :: digits ++ [';']) := by
  refine .reference ('#' :: 'x' :: digits) (.inl ⟨digits, hne, hdigits, rfl⟩) ?_
  rw [List.all_cons, List.all_cons, List.all_eq_true.mpr fun d hd =>
    isReferenceChar_of_isHexDigit (List.all_eq_true.mp hdigits d hd)]
  decide

/-- **How a character is written in a text.** -/
theorem written_escapeChar (c : Char) : Written c (escapeChar c) := by
  unfold escapeChar
  split_ifs with hamp hlt hgt hquot hapos hwide
  · exact .name ['a', 'm', 'p'] (by simp [writtenNames, hamp])
  · exact .name ['l', 't'] (by simp [writtenNames, hlt])
  · exact .name ['g', 't'] (by simp [writtenNames, hgt])
  · exact .name ['q', 'u', 'o', 't'] (by simp [writtenNames, hquot])
  · exact .number c ['2', '7'] (by simp) (by decide)
  · exact .number c _ (upperHexDigits_ne_nil c.toNat)
      (List.all_eq_true.mpr fun _ => isHexDigit_of_mem_upperHexDigits)
  · exact .itself ⟨Nat.not_lt.mp hwide, by simp [hlt, hgt, hquot, hapos]⟩ hamp

/-- **How a character is written in the value of an attribute.** -/
theorem written_escapeAttributeChar (c : Char) : Written c (escapeAttributeChar c) := by
  unfold escapeAttributeChar
  split
  · exact .number c ['A'] (by simp) (by decide)
  · exact written_escapeChar c

/-! ## What is kept out -/

namespace Written

variable {c d : Char} {cs : List Char} {f : Char → List Char}

theorem isHarmless (h : Written c cs) (hd : d ∈ cs) : IsHarmless d := by
  cases h with
  | reference body _ hbody =>
      simp only [List.cons_append, List.mem_cons, List.mem_append, List.not_mem_nil,
        or_false] at hd
      rcases hd with rfl | hd | rfl
      · simp [IsHarmless]
      · exact (isHarmless_of_isReferenceChar (List.all_eq_true.mp hbody d hd)).1
      · simp [IsHarmless]
  | itself h _ => exact List.mem_singleton.mp hd ▸ h

theorem newline_not_mem (h : Written c cs) (hc : c ≠ '\n') : '\n' ∉ cs := by
  intro hmem
  cases h with
  | reference body _ hbody =>
      have hd : '\n' ∈ body := by simpa using hmem
      exact (isHarmless_of_isReferenceChar (List.all_eq_true.mp hbody _ hd)).2.2 rfl
  | itself _ _ => exact hc (List.mem_singleton.mp hmem).symm

theorem onlyReferences (h : Written c cs) : OnlyReferences cs := by
  cases h with
  | reference body h hbody =>
      refine .reference h fun hmem => ?_
      exact (isHarmless_of_isReferenceChar (List.all_eq_true.mp hbody _ hmem)).2.1 rfl
  | itself _ hamp => exact .of_not_mem fun hmem => hamp (List.mem_singleton.mp hmem).symm

theorem isHarmless_of_mem_flatMap (h : ∀ c, Written c (f c)) (hd : d ∈ cs.flatMap f) :
    IsHarmless d := by
  obtain ⟨c, -, hd⟩ := List.mem_flatMap.mp hd
  exact (h c).isHarmless hd

end Written

theorem isHarmless_of_mem_escape {cs : List Char} {d : Char} (h : d ∈ escape cs) :
    IsHarmless d := Written.isHarmless_of_mem_flatMap written_escapeChar h

theorem isHarmless_of_mem_escapeAttribute {cs : List Char} {d : Char}
    (h : d ∈ escapeAttribute cs) : IsHarmless d :=
  Written.isHarmless_of_mem_flatMap written_escapeAttributeChar h

/-- **The value of an attribute is the escaped text with its newlines written as references**:
no reference has a newline in it. -/
theorem escapeAttribute_eq_flatMap (cs : List Char) : escapeAttribute cs =
    (escape cs).flatMap fun d => if d = '\n' then ['&', '#', 'x', 'A', ';'] else [d] := by
  unfold escape escapeAttribute
  rw [List.flatMap_assoc]
  refine List.flatMap_congr fun c _ => ?_
  by_cases hc : c = '\n'
  · subst hc
    decide
  · have hself : ∀ d ∈ escapeChar c,
        (if d = '\n' then ['&', '#', 'x', 'A', ';'] else [d]) = [d] := by
      intro d hd
      refine if_neg ?_
      rintro rfl
      exact (written_escapeChar c).newline_not_mem hc hd
    rw [escapeAttributeChar, if_neg hc, List.flatMap_congr hself]
    exact (List.flatMap_singleton' _).symm

theorem newline_not_mem_escapeAttribute (cs : List Char) : '\n' ∉ escapeAttribute cs := by
  rw [escapeAttribute_eq_flatMap, List.mem_flatMap]
  rintro ⟨d, -, hd⟩
  split at hd
  · exact absurd hd (by decide)
  · next hne => exact hne (List.mem_singleton.mp hd).symm

/-! ## What is kept -/

/-- What an escaped character is read back as: a character of ASCII as itself, any other one
as what its number names. -/
def readBack (c : Char) : List Char := if c.toNat ≤ 0x7F then [c] else referencedByNumber c.toNat

/-- A character whose number is misread: a control that the old Windows code page has another
character for, or one of the points that the standard reserves. -/
def isMisread (c : Char) : Bool :=
  (0x80 ≤ c.toNat && c.toNat ≤ 0x9F && !([0x81, 0x8D, 0x8F, 0x90, 0x9D].contains c.toNat)) ||
    (0xFDD0 ≤ c.toNat && c.toNat ≤ 0xFDEF) || c.toNat % 0x10000 ≥ 0xFFFE

/-- Beyond the numbers of the old code page, a number names its character unless it is
reserved. -/
theorem referencedByNumber_of_lt {c : Char} (h : 0x9F < c.toNat) :
    referencedByNumber c.toNat = if isForbiddenPoint c.toNat then [] else [c] := by
  have hkeys : ∀ entry ∈ remappedReferences, entry.1 ≤ 0x9F := by decide
  have hlookup : remappedReferences.lookup c.toNat = none := by
    rw [List.lookup_eq_none_iff]
    intro entry hentry
    have := hkeys entry hentry
    simp only [bne_iff_ne]
    omega
  have hvalid : ¬((0xD800 ≤ c.toNat ∧ c.toNat ≤ 0xDFFF) ∨ c.toNat > 0x10FFFF) := by
    have := c.valid
    simp only [UInt32.isValidChar, Nat.isValidChar] at this
    simp only [Char.toNat]
    omega
  simp only [referencedByNumber, hlookup, Bool.or_eq_true, Bool.and_eq_true, decide_eq_true_eq,
    if_neg hvalid, Char.ofNat_toNat]

/-- A character that is neither a control nor one of the reserved points is read back as
itself. -/
theorem readBack_of_not_forbidden {c : Char} (h : isForbiddenPoint c.toNat = false) :
    readBack c = [c] := by
  unfold readBack
  split
  · rfl
  · next hwide =>
      have hlow : 0x9F < c.toNat := by
        simp only [isForbiddenPoint, Bool.or_eq_false_iff, Bool.and_eq_false_iff,
          decide_eq_false_iff_not] at h
        omega
      rw [referencedByNumber_of_lt hlow, h]
      rfl

/-- **A character is read back as itself exactly if its number is not misread.** -/
theorem readBack_eq_self_iff (c : Char) : readBack c = [c] ↔ isMisread c = false := by
  have hcontrols : ∀ n ∈ List.range' 0x80 0x20,
      (referencedByNumber n = [Char.ofNat n] ↔ isMisread (Char.ofNat n) = false) := by decide
  unfold readBack
  split
  · next hascii =>
      refine iff_of_true rfl ?_
      simp only [isMisread, Bool.or_eq_false_iff, Bool.and_eq_false_iff, decide_eq_false_iff_not]
      omega
  · next hwide =>
      by_cases hlow : c.toNat ≤ 0x9F
      · have := hcontrols c.toNat (List.mem_range'_1.mpr (by omega))
        rwa [Char.ofNat_toNat] at this
      · have hreserved : isForbiddenPoint c.toNat = isMisread c := by
          rw [Bool.eq_iff_iff]
          simp only [isForbiddenPoint, isMisread, Bool.or_eq_true, Bool.and_eq_true,
            decide_eq_true_eq, beq_iff_eq]
          omega
        rw [referencedByNumber_of_lt (Nat.not_le.mp hlow), hreserved]
        cases isMisread c <;> simp

/-- Decoding reads a text back character by character, if it does so for each character. -/
theorem decodeReferences_flatMap {f : Char → List Char} (h : ∀ c rest,
    decodeReferencesFrom 0 (f c ++ rest) = readBack c ++ decodeReferencesFrom 0 rest)
    (cs : List Char) : decodeReferences (cs.flatMap f) = cs.flatMap readBack := by
  show decodeReferencesFrom 0 (cs.flatMap f) = cs.flatMap readBack
  induction cs with
  | nil => rfl
  | cons c cs ih => rw [List.flatMap_cons, h, ih, List.flatMap_cons]

/-- A character that is written by a name is read back. -/
theorem decodeReferencesFrom_writtenName (name : List Char) {c : Char}
    (h : (name, c) ∈ writtenNames) (rest : List Char) :
    decodeReferencesFrom 0 ('&' :: name ++ ';' :: rest) = c :: decodeReferencesFrom 0 rest := by
  have hnames : writtenNames.all (fun entry => entry.1 ≠ [] ∧ entry.1.length ≤ 32 ∧
      entry.1.all isReferenceNameChar = true) = true := by decide
  obtain ⟨hne, hlength, hall⟩ := of_decide_eq_true (List.all_eq_true.mp hnames _ h)
  have hnamed : referencedByName name = [c] := by
    rw [referencedByName, namedCharacters?_of_mem h]
  rw [decodeReferencesFrom_name name hne hlength hall, hnamed]
  rfl

/-- **One character is read back** from how it is written. -/
theorem decodeReferencesFrom_escapeChar (c : Char) (rest : List Char) :
    decodeReferencesFrom 0 (escapeChar c ++ rest) = readBack c ++ decodeReferencesFrom 0 rest := by
  unfold escapeChar
  split_ifs with hamp hlt hgt hquot hapos hwide
  · subst hamp
    exact decodeReferencesFrom_writtenName ['a', 'm', 'p'] (by simp [writtenNames]) rest
  · subst hlt
    exact decodeReferencesFrom_writtenName ['l', 't'] (by simp [writtenNames]) rest
  · subst hgt
    exact decodeReferencesFrom_writtenName ['g', 't'] (by simp [writtenNames]) rest
  · subst hquot
    exact decodeReferencesFrom_writtenName ['q', 'u', 'o', 't'] (by simp [writtenNames]) rest
  · subst hapos
    exact decodeReferencesFrom_number ['2', '7'] (by simp) (by decide) rest
  · have hnumber : readBack c = referencedByNumber c.toNat := if_neg (Nat.not_le.mpr hwide)
    have hdecode := decodeReferencesFrom_number _ (upperHexDigits_ne_nil c.toNat)
      (List.all_eq_true.mpr fun _ => isHexDigit_of_mem_upperHexDigits) rest
    rw [digitsValue_upperHexDigits] at hdecode
    rw [hnumber, ← hdecode]
    simp [upperHexDigits]
  · have hself : readBack c = [c] := if_pos (Nat.not_lt.mp hwide)
    rw [hself]
    exact decodeReferencesFrom_cons hamp rest

theorem decodeReferencesFrom_escapeAttributeChar (c : Char) (rest : List Char) :
    decodeReferencesFrom 0 (escapeAttributeChar c ++ rest) =
      readBack c ++ decodeReferencesFrom 0 rest := by
  unfold escapeAttributeChar
  split
  · next hc =>
      subst hc
      exact decodeReferencesFrom_number ['A'] (by simp) (by decide) rest
  · exact decodeReferencesFrom_escapeChar c rest

/-- **An escaped text is read back** character by character. -/
theorem decodeReferences_escape (cs : List Char) :
    decodeReferences (escape cs) = cs.flatMap readBack :=
  decodeReferences_flatMap decodeReferencesFrom_escapeChar cs

theorem decodeReferences_escapeAttribute (cs : List Char) :
    decodeReferences (escapeAttribute cs) = cs.flatMap readBack :=
  decodeReferences_flatMap decodeReferencesFrom_escapeAttributeChar cs

/-! ## Texts that are read back as themselves -/

theorem length_readBack_le (c : Char) : (readBack c).length ≤ 1 := by
  unfold readBack referencedByNumber
  split
  · simp
  · split
    · simp
    · split_ifs <;> simp

section

variable {f : Char → List Char} (hf : ∀ c, (f c).length ≤ 1)
include hf

theorem length_flatMap_le (cs : List Char) : (cs.flatMap f).length ≤ cs.length := by
  induction cs with
  | nil => simp
  | cons c cs ih =>
      have hc := hf c
      rw [List.flatMap_cons, List.length_append, List.length_cons]
      omega

/-- If every character is replaced by one character or by none, a text stays the same only if
every character of it does. -/
theorem flatMap_eq_self_iff (cs : List Char) : cs.flatMap f = cs ↔ ∀ c ∈ cs, f c = [c] := by
  constructor
  · intro h
    induction cs with
    | nil => simp
    | cons c cs ih =>
        rw [List.flatMap_cons] at h
        have hlength := length_flatMap_le hf cs
        match hc : f c, hf c with
        | [], _ =>
            -- a text without the first character is too short
            rw [hc, List.nil_append] at h
            rw [h, List.length_cons] at hlength
            omega
        | [d], _ =>
            rw [hc, List.singleton_append] at h
            obtain ⟨rfl, hrest⟩ := List.cons.inj h
            intro x hx
            rcases List.mem_cons.mp hx with rfl | hx
            · exact hc
            · exact ih hrest x hx
  · intro h
    rw [List.flatMap_congr h]
    exact List.flatMap_singleton' cs

end

theorem flatMap_readBack_iff (cs : List Char) :
    cs.flatMap readBack = cs ↔ ∀ c ∈ cs, isMisread c = false := by
  rw [flatMap_eq_self_iff length_readBack_le]
  exact forall₂_congr fun c _ => readBack_eq_self_iff c

/-- **Escaping is safe for every text, and lossless exactly where no number is misread.**  A text
is given back by decoding what is written for it, between tags and as the value of an attribute,
exactly if no character of it has a number that is misread.  What is written is ASCII without
angle brackets and quotes, and every ampersand in it begins a complete reference; the value of an
attribute is what is written between tags with its newlines as references, so it has none. -/
theorem escaping_lossless_and_safe (cs : List Char) :
    (decodeReferences (escape cs) = cs ↔ ∀ c ∈ cs, isMisread c = false) ∧
      (decodeReferences (escapeAttribute cs) = cs ↔ ∀ c ∈ cs, isMisread c = false) ∧
      (∀ d ∈ escape cs, IsHarmless d) ∧ OnlyReferences (escape cs) ∧
      (∀ d ∈ escapeAttribute cs, IsHarmless d ∧ d ≠ '\n') ∧ OnlyReferences (escapeAttribute cs) ∧
      escapeAttribute cs =
        (escape cs).flatMap fun d => if d = '\n' then ['&', '#', 'x', 'A', ';'] else [d] := by
  refine ⟨?_, ?_, fun _ => isHarmless_of_mem_escape, ?_, fun d hd => ⟨?_, ?_⟩, ?_, ?_⟩
  · rw [decodeReferences_escape, flatMap_readBack_iff]
  · rw [decodeReferences_escapeAttribute, flatMap_readBack_iff]
  · exact .flatMap (fun c => (written_escapeChar c).onlyReferences) cs
  · exact isHarmless_of_mem_escapeAttribute hd
  · rintro rfl
    exact newline_not_mem_escapeAttribute cs hd
  · exact .flatMap (fun c => (written_escapeAttributeChar c).onlyReferences) cs
  · exact escapeAttribute_eq_flatMap cs

/-- A control character is given back as the euro sign, and a reserved point not at all. -/
theorem escaping_loses_controls :
    decodeReferences (escape ['\u0080']) = ['€'] ∧
      decodeReferences (escapeAttribute ['\u0080']) = ['€'] ∧
      decodeReferences (escape ['\ufffe']) = [] ∧
      ¬∀ cs : List Char, decodeReferences (escape cs) = cs := by
  have hcontrol : decodeReferences (escape ['\u0080']) = ['€'] := by
    rw [decodeReferences_escape]
    decide
  refine ⟨hcontrol, ?_, ?_, fun h => ?_⟩
  · rw [decodeReferences_escapeAttribute]
    decide
  · rw [decodeReferences_escape]
    decide
  · exact absurd ((h _).symm.trans hcontrol) (by decide)

end Livedoc.Html
