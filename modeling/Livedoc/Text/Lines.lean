/-!
# Lines

A line ends at a newline. Splitting at newlines and joining with newlines are
inverse: a text always has one line more than it has newlines, and a text that
ends in a newline has an empty last line.

Some other characters also break a line on screen. The second section splits a
text the way a reader sees it.
-/

namespace Livedoc.Text

/-- The stretches of a text between occurrences of `d`. -/
def splitAt (d : Char) : List Char → List (List Char)
  | [] => [[]]
  | c :: rest =>
    if c = d then [] :: splitAt d rest
    else
      match splitAt d rest with
      | [] => [[c]]
      | first :: others => (c :: first) :: others

/-- The lines of a text, without their newlines. -/
def lines (cs : List Char) : List (List Char) := splitAt '\n' cs

/-- The lines, with a newline between two of them. -/
def unlines : List (List Char) → List Char
  | [] => []
  | [line] => line
  | line :: rest => line ++ '\n' :: unlines rest

/-- A text has a line. -/
theorem lines_ne_nil (cs : List Char) : lines cs ≠ [] := by
  unfold lines
  cases cs with
  | nil => simp [splitAt]
  | cons c rest =>
    simp only [splitAt]
    split
    · simp
    · split <;> simp

/-- Joining the lines of a text gives the text back. -/
theorem unlines_lines (cs : List Char) : unlines (lines cs) = cs := by
  induction cs with
  | nil => rfl
  | cons c rest ih =>
    have hne := lines_ne_nil rest
    unfold lines at hne ih ⊢
    simp only [splitAt]
    split
    · next h =>
      subst h
      match hs : splitAt '\n' rest with
      | [] => exact absurd hs hne
      | first :: others => simp [unlines, ← hs, ih]
    · match hs : splitAt '\n' rest with
      | [] => exact absurd hs hne
      | [first] => rw [hs] at ih; simpa [unlines] using ih
      | first :: second :: others => rw [hs] at ih; simpa [unlines] using ih

/-- Every line break as a newline: a carriage return, and a carriage return with a
newline after it, count as one newline. -/
def normalizeBreaks : List Char → List Char
  | [] => []
  | '\r' :: '\n' :: rest => '\n' :: normalizeBreaks rest
  | c :: rest => (if c = '\r' then '\n' else c) :: normalizeBreaks rest

/-- Texts with a separator between two of them. -/
def intercalate (separator : String) : List String → String
  | [] => ""
  | [s] => s
  | s :: rest => s ++ separator ++ intercalate separator rest

/-! ## Breaks as shown -/

/-- A character that breaks a line on screen. -/
def isVisualBreak (c : Char) : Bool :=
  c == '\n' || c == '\r' || c == '\x0b' || c == '\x0c' || c == '\x1c' || c == '\x1d' ||
    c == '\x1e' || c == '\x85' || c == '\u2028' || c == '\u2029'

/-- The lines of a text as shown, each with its break. `line` holds the characters
of the current line, last one first. A break at the very end opens no line. -/
def visualLinesFrom : List Char → List Char → List (List Char)
  | [], line => if line.isEmpty then [] else [line.reverse]
  | '\r' :: '\n' :: rest, line => ('\n' :: '\r' :: line).reverse :: visualLinesFrom rest []
  | c :: rest, line =>
    if isVisualBreak c then (c :: line).reverse :: visualLinesFrom rest []
    else visualLinesFrom rest (c :: line)

/-- The lines of a text as shown, each with its break. -/
def visualLines (cs : List Char) : List (List Char) := visualLinesFrom cs []

end Livedoc.Text
