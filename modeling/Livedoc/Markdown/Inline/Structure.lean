import Livedoc.Markdown.Inline.Emphasis
import Livedoc.Markdown.Inline.Leaf
import Livedoc.Markdown.Inline.SizedImage
import Livedoc.Markdown.Reference

/-!
# The structure of a line

The pieces of a text. At each place the first kind of markup that stands there
wins; a character that starts none is text.

An opening bracket may turn out to open a link. It suspends the level that it
stands in, and what follows is read on a level of its own. The closing bracket
decides: with a target, written in parentheses or known as a reference, the level
becomes the content of a link or of the description of an image; otherwise both
brackets are text and the level goes on. Links do not contain links, so a link
makes the brackets around it text.
-/

namespace Livedoc.Markdown

open Livedoc.Call Livedoc.Text

/-- An opening bracket that waits for its closing one. -/
structure Bracket where
  /-- Whether an exclamation mark stands before it. -/
  forImage : Bool
  /-- Whether it may still open a link. -/
  active : Bool
  /-- The pieces before the bracket, last one first. -/
  before : List Piece
  /-- The source from the bracket on. -/
  source : List Char

/-- The bracket as text. -/
def Bracket.text (b : Bracket) : Piece := .done (.text (if b.forImage then ['!', '['] else ['[']))

/-- A line that is being read. -/
structure LineReading where
  /-- The pieces of the level being read, last one first. -/
  pieces : List Piece
  /-- Text that is not a piece yet, last character first. -/
  pending : List Char
  /-- The open brackets, innermost first. -/
  brackets : List Bracket
  /-- The character before the place being read. -/
  previous : Option Char
  /-- Whether the place is within an anchor of raw HTML, where links are not wanted. -/
  inAnchor : Bool

namespace LineReading

/-- Nothing read yet. -/
def empty : LineReading := ⟨[], [], [], none, false⟩

/-- The text read so far as a piece. -/
def flush (r : LineReading) : LineReading :=
  if r.pending.isEmpty then r
  else { r with pieces := .done (.text r.pending.reverse) :: r.pieces, pending := [] }

/-- One more character of text. -/
def addChar (r : LineReading) (c : Char) : LineReading :=
  { r with pending := c :: r.pending, previous := some c }

/-- The reading after a single character that is no text. -/
def passedChar (r : LineReading) (c : Char) : LineReading := { r with previous := some c }

/-- The reading after a stretch of a source, given the source that is left. -/
def passed (r : LineReading) (source after : List Char) : LineReading :=
  { r with previous := (source.take (source.length - after.length)).getLast? }

/-- One more piece. -/
def addPiece (r : LineReading) (p : Piece) : LineReading :=
  let r := r.flush
  { r with pieces := p :: r.pieces }

/-- An opening bracket with the source after it. Within an anchor it opens no link. -/
def openBracket (r : LineReading) (forImage : Bool) (source : List Char) : LineReading :=
  let r := r.flush
  { r with
    pieces := []
    brackets := ⟨forImage, forImage || !r.inAnchor, r.pieces, source⟩ :: r.brackets }

/-- The innermost bracket is text. -/
def dropBracket (r : LineReading) : LineReading :=
  match r.brackets with
  | [] => r
  | b :: outer => { r with pieces := r.pieces ++ b.text :: b.before, brackets := outer }

/-- All open brackets are text. -/
def dropBrackets (r : LineReading) : LineReading :=
  { r with
    pieces := r.brackets.foldl (fun pieces b => pieces ++ b.text :: b.before) r.pieces
    brackets := [] }

/-- A link or an image takes the level since the innermost bracket. -/
def closeLink (r : LineReading) (b : Bracket) (outer : List Bracket) (target : Target) :
    LineReading :=
  let children := resolveEmphasis r.pieces.reverse
  if b.forImage then
    { r with
      pieces := .done (.image target.url target.title children) :: b.before
      brackets := outer }
  else
    { r with
      pieces := .done (.link target.url target.title children) :: b.before
      brackets := outer.map fun o => if o.forImage then o else { o with active := false } }

/-- The pieces of the whole line. -/
def finish (r : LineReading) : List Inline :=
  resolveEmphasis r.flush.dropBrackets.pieces.reverse

end LineReading

/-- The target that is known for the label of a link. The label follows in brackets
of its own, unless these are empty or missing and the text itself is the label. -/
def referenceTarget? (refs : References) (text after : List Char) :
    Option (Target × List Char) :=
  let ofText (rest : List Char) := (refs.lookup (labelKey text)).map fun t => (t, rest)
  match after with
  | '[' :: more =>
    match takeLabel? more with
    | some ([], rest) => ofText rest
    | some (label, rest) => (refs.lookup (labelKey label)).map fun t => (t, rest)
    | none => ofText after
  | _ => ofText after

/-- The target after the closing bracket of a link with the given text. -/
def linkTarget? (refs : References) (text after : List Char) : Option (Target × List Char) :=
  let inLine := match after with
    | '(' :: rest => takeTarget? rest
    | _ => none
  inLine.orElse fun _ => referenceTarget? refs text after

/-- A closing bracket with the source after it: the reading and the source that is
left. -/
def closeBracket (refs : References) (r : LineReading) (after : List Char) :
    LineReading × List Char :=
  let r := r.flush
  let r := r.passedChar ']'
  match r.brackets with
  | [] => (r.addPiece (.done (.text [']'])), after)
  | b :: outer =>
    let text := b.source.take (b.source.length - after.length - 1)
    match if b.active then linkTarget? refs text after else none with
    | some (target, rest) => ((r.closeLink b outer target).passed (']' :: after) rest, rest)
    | none => (r.dropBracket.addPiece (.done (.text [']'])), after)

/-- Whether a dot after such a character can start a call. -/
def allowsCall (previous : Option Char) : Bool := !previous.any fun c => isWord c || c == '.'

/-- A call or a reference. -/
def callSpan? (previous : Option Char) : Reader := fun cs =>
  if allowsCall previous then
    (headAt? 0 cs).map fun head => (.call head (cs.take head.stop), cs.drop head.stop)
  else none

/-- An image with measures. -/
def sizedImage? : Reader := fun cs =>
  (SizedImage.take? cs).map fun (image, after) => (.sizedImage image, after)

/-- The piece without inner markup at the start of a text, if one stands there. -/
def leaf? (r : LineReading) : Reader := fun cs =>
  match cs with
  | '\\' :: _ => (escapes? cs).orElse fun _ => lineBreak? cs
  | '$' :: _ => formulaSpan? cs
  | '\x60' :: _ => codeSpan? cs
  | '.' :: _ => callSpan? r.previous cs
  | '!' :: _ => sizedImage? cs
  | '<' :: _ => (ownLink? (!r.inAnchor) cs).orElse fun _ => rawHtml? cs
  | ' ' :: _ => lineBreak? cs
  | '\n' :: _ => lineBreak? cs
  | _ => none

/-- Whether a construct of raw HTML opens or closes an anchor. -/
def anchorState (raw : List Char) : Option Bool :=
  let starts (head : String) : Bool := head.toList.isPrefixOf raw
  if ["<a ", "<a>", "<A ", "<A>"].any starts then some true
  else if ["</a ", "</a>", "</A ", "</A>"].any starts then some false
  else none

/-- The reading after a leaf. -/
def LineReading.addLeaf (r : LineReading) (i : Inline) : LineReading :=
  let r := r.addPiece (.done i)
  match i with
  | .html raw => { r with inAnchor := (anchorState raw).getD r.inAnchor }
  | _ => r

/-- Reads what stands at the start of a source that begins with `c`: the reading
after it and the source that is left. -/
def stepInline (refs : References) (r : LineReading) (c : Char) (rest : List Char) :
    LineReading × List Char :=
  match leaf? r (c :: rest) with
  | some (i, after) => ((r.addLeaf i).passed (c :: rest) after, after)
  | none =>
    if c = '*' || c = '_' then
      let count := (rest.takeWhile (· == c)).length
      ((r.addPiece (.marks c (count + 1))).passedChar c, rest.drop count)
    else if c = '[' then ((r.openBracket false rest).passedChar c, rest)
    else if c = ']' then closeBracket refs r rest
    else
      match c, rest with
      | '!', '[' :: more => ((r.openBracket true more).passedChar '[', more)
      | _, _ => (r.addChar c, rest)

/-- Reads a source. Each step takes at least one character, so as many rounds as it
has characters suffice. -/
def readFrom (refs : References) : Nat → LineReading → List Char → LineReading
  | _, r, [] => r
  | 0, r, _ => r
  | rounds + 1, r, c :: rest =>
    let (r, after) := stepInline refs r c rest
    readFrom refs rounds r after

/-- The markup of a line, given the references that it may use. A line without any
characters is an empty text. -/
def readInline (refs : References) (cs : List Char) : List Inline :=
  if cs.isEmpty then [.text []] else (readFrom refs cs.length .empty cs).finish

end Livedoc.Markdown
