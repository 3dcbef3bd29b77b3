import Livedoc.Markdown.Inline.Basic
import Livedoc.Text.Alphanumeric
import Livedoc.Text.Blank

/-!
# Emphasis

Runs of asterisks and of underscores mark emphasis. Whether a run can open or
close emphasis depends on its neighbours: a run that something follows directly
can open, one that directly follows something can close, and an underscore within
a word can do neither.

A closing run takes its marks from the nearest run that can open: two marks where
both runs have two, for strong emphasis, and else one. What lies between becomes
the content; runs in between that found no partner are text. A run may be used up
piece by piece, and what is left of it at the end is text.
-/

namespace Livedoc.Markdown

open Livedoc.Text

/-- A run of emphasis marks. -/
structure Run where
  /-- The mark. -/
  mark : Char
  /-- How many marks were written. -/
  written : Nat
  /-- How many of them are not used. -/
  left : Nat
  /-- Whether the run can open emphasis. -/
  opens : Bool
  /-- Whether the run can close emphasis. -/
  closes : Bool

/-- A piece of one level: finished markup, or a run of marks. -/
inductive Piece where
  | done (inline : Inline)
  | marks (mark : Char) (count : Nat)

namespace Piece

/-- The first character that a neighbour sees. -/
def firstChar : Piece → Option Char
  | done i => i.firstChar
  | marks mark _ => some mark

/-- The last character that a neighbour sees. -/
def lastChar : Piece → Option Char
  | done i => i.lastChar
  | marks mark _ => some mark

/-- Whether the piece is a run of marks. -/
def isMarks : Piece → Bool
  | marks .. => true
  | done _ => false

/-- The piece without regard to emphasis. -/
def plain : Piece → Inline
  | done i => i
  | marks mark count => .text (List.replicate count mark)

/-- Neighbouring texts as one text, apart from escaped ones. -/
def joinTexts : List Piece → List Piece
  | [] => []
  | .done (.text raw) :: rest =>
    match joinTexts rest with
    | .done (.text next) :: others => .done (.text (raw ++ next)) :: others
    | others => .done (.text raw) :: others
  | p :: rest => p :: joinTexts rest

end Piece

namespace Run

/-- The marks that are left, as text. -/
def rest (r : Run) : Inline := .text (List.replicate r.left r.mark)

/-- The run between two neighbours. The ends of a level count as white space; what
is neither white space nor alphanumeric counts as punctuation. -/
def between (before after : Option Char) (mark : Char) (count : Nat) : Run :=
  let before := before.getD ' '
  let after := after.getD ' '
  let punctuation (c : Char) : Bool := !isBlank c && !isAlphanumeric c
  let leans (near far : Char) : Bool :=
    !isBlank near && (!punctuation near || isBlank far || punctuation far)
  let atLeft := leans after before
  let atRight := leans before after
  if mark = '_' then
    ⟨mark, count, count, atLeft && (!atRight || punctuation before),
      atRight && (!atLeft || punctuation after)⟩
  else ⟨mark, count, count, atLeft, atRight⟩

/-- Whether a closing run may take marks from an opening one. Where one of the two
could be either, their lengths must not add up to a multiple of three, unless both
are multiples of three. -/
def matchesOpening (closing opening : Run) : Bool :=
  opening.mark == closing.mark &&
    !((opening.closes || closing.opens) && (opening.written + closing.written) % 3 == 0 &&
      !(opening.written % 3 == 0 && closing.written % 3 == 0))

end Run

/-- An opening run with what follows it so far, last piece first. -/
structure Opening where
  run : Run
  content : List Inline

/-- A level whose runs are being paired: the content before the first opening run,
last piece first, and the opening runs, innermost first. -/
structure Pairing where
  content : List Inline
  openings : List Opening

/-- The most emphases that contain one another. -/
def maxEmphasisDepth : Nat := 20

namespace Pairing

/-- One more piece at the end. -/
def push (p : Pairing) (i : Inline) : Pairing :=
  match p.openings with
  | [] => { p with content := i :: p.content }
  | o :: outer => { p with openings := { o with content := i :: o.content } :: outer }

/-- Several more pieces, given last one first. -/
def pushAll (p : Pairing) (is : List Inline) : Pairing :=
  match p.openings with
  | [] => { p with content := is ++ p.content }
  | o :: outer => { p with openings := { o with content := is ++ o.content } :: outer }

/-- The nearest run that a closing run may take marks from, with what lies after
it, last piece first, and the runs that contain it. -/
def findOpening (closing : Run) : List Opening → Option (Opening × List Opening)
  | [] => none
  | o :: outer =>
    if closing.matchesOpening o.run then some (o, outer)
    else
      (findOpening closing outer).map fun (found, rest) =>
        ({ found with content := o.content ++ o.run.rest :: found.content }, rest)

/-- Pairs a closing run as often as it finds a partner. Each time takes at least
one of its marks, so as many rounds as it has marks suffice. -/
def close : Nat → Run → Pairing → Pairing
  | 0, run, p => p.push run.rest
  | rounds + 1, run, p =>
    let unpaired : Pairing :=
      if run.opens && run.left > 0 then { p with openings := ⟨run, []⟩ :: p.openings }
      else p.push run.rest
    if run.closes && run.left > 0 then
      match findOpening run p.openings with
      | some (o, outer) =>
        if Inline.depthOfAll o.content ≥ maxEmphasisDepth then unpaired
        else
          let strong := run.left ≥ 2 && o.run.left ≥ 2
          let used := if strong then 2 else 1
          let emphasis := Inline.emphasis strong o.content.reverse
          let opening : Run := { o.run with left := o.run.left - used }
          let paired : Pairing :=
            if opening.left = 0 then
              { p with openings := outer }.pushAll [emphasis, opening.rest]
            else { p with openings := ⟨opening, [emphasis]⟩ :: outer }
          close rounds { run with left := run.left - used } paired
      | none => unpaired
    else unpaired

/-- All pieces, first one first; the runs without a partner are text. -/
def finish (p : Pairing) : List Inline :=
  (p.openings.foldr (fun o before => o.content ++ o.run.rest :: before) p.content).reverse

end Pairing

/-- Pairs the runs of a level; `before` is the character before the first piece. -/
def pairFrom (before : Option Char) : List Piece → Pairing → Pairing
  | [], p => p
  | piece :: rest, p =>
    let after := rest.head?.bind Piece.firstChar
    let p := match piece with
      | .done i => p.push i
      | .marks mark count =>
        let run := Run.between before after mark count
        p.close (count + 1) run
    pairFrom piece.lastChar rest p

/-- The markup of one level, its emphasis resolved. Where runs of marks stood,
escaped text is joined with the text beside it. -/
def resolveEmphasis (pieces : List Piece) : List Inline :=
  let pieces := Piece.joinTexts pieces
  if pieces.any Piece.isMarks then Inline.joinTexts (pairFrom none pieces ⟨[], []⟩).finish
  else pieces.map Piece.plain

end Livedoc.Markdown
