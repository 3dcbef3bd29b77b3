import Livedoc.Markdown.Block.Fence
import Livedoc.Markdown.Block.Heading
import Livedoc.Markdown.Block.HtmlBlock
import Livedoc.Markdown.Block.Marker

/-!
# Quotations

A quotation is made of lines marked by `>`. A line without the mark continues a
paragraph of the quotation lazily, unless it starts a block of another kind or the
quotation's last line was blank. Where the quotation starts with code or with a
blank line there is no paragraph to continue, so every line needs its mark.
-/

namespace Livedoc.Markdown

open Livedoc.Text

/-- What follows the mark of a quotation. -/
def afterQuoteMark? (cs : List Char) : Option (List Char) :=
  match dropIndent? 3 cs with
  | some (_, '>' :: rest) => some rest
  | _ => none

/-- The content of a line after its mark: one space belongs to the mark, and a tab
counts from the column after it. -/
def quotedContent (cs : List Char) : List Char := dropSpaces 1 (expandLeadingTab 3 cs)

/-- Whether a line ends a quotation that it does not belong to. -/
def endsQuote (cs : List Char) : Bool :=
  isBlankLine cs || isThematicBreak 3 cs || (fence? 3 cs).any Fence.opens ||
    (marker? 3 cs).isSome || interruptsAsHtml 3 cs

/-- The lines of a quotation after its first: those with a mark, and lazy ones as
long as `lazyAllowed` holds and no blank line preceded. -/
def quoteLines (lazyAllowed afterBlank : Bool) : List Line → List Line
  | [] => []
  | l :: rest =>
    match afterQuoteMark? l.chars with
    | some cs =>
      let content := quotedContent cs
      { l with chars := expandSecondTab content } ::
        quoteLines lazyAllowed (isBlankLine content) rest
    | none =>
      if !lazyAllowed || afterBlank || endsQuote l.chars then []
      else
        { chars := expandSecondTab (expandLeadingTab 3 l.chars), isLazy := true } ::
          quoteLines lazyAllowed false rest

/-- Whether a quotation whose first line has this content can be continued lazily. -/
def allowsLazy (first : List Char) : Bool :=
  !(isBlankLine first || isIndentedCode first || (fence? 3 first).isSome)

/-- The lines of a quotation, from its first one on, without their marks. -/
def quote? : List Line → Option (List Line)
  | [] => none
  | l :: rest =>
    match afterQuoteMark? l.chars with
    | none => none
    | some cs =>
      let content := quotedContent cs
      some ({ l with chars := expandSecondTab content } ::
        quoteLines (allowsLazy content) false rest)

end Livedoc.Markdown
