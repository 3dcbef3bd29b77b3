import Livedoc.Markdown.Html
import Livedoc.Markdown.Inline.Basic
import Livedoc.Markdown.Line
import Livedoc.Markdown.Url
import Livedoc.Text.Digit

/-!
# Markup without inner markup

Code spans, formulas, escapes, addresses in angle brackets, tags of raw HTML and
line breaks. Each reader takes the text from where the markup is expected and
gives the piece with what follows it; nothing if the markup does not stand there.
-/

namespace Livedoc.Markdown

open Livedoc.Text

/-- Reads the piece at the start of a text. -/
abbrev Reader := List Char → Option (Inline × List Char)

/-- What comes before and after the first occurrence of `marker`. -/
def splitAtMarker? (marker : List Char) : List Char → Option (List Char × List Char)
  | [] => if marker.isEmpty then some ([], []) else none
  | c :: rest =>
    if marker.isPrefixOf (c :: rest) then some ([], (c :: rest).drop marker.length)
    else (splitAtMarker? marker rest).map fun (a, b) => (c :: a, b)

/-! ## Escapes -/

/-- The characters that a row of escapes stands for, and what follows. -/
def takeEscapes : List Char → List Char × List Char
  | '\\' :: c :: rest =>
    if isPunctuation c then
      let (taken, after) := takeEscapes rest
      (c :: taken, after)
    else ([], '\\' :: c :: rest)
  | cs => ([], cs)

/-- A row of escapes. -/
def escapes? : Reader := fun cs =>
  match takeEscapes cs with
  | ([], _) => none
  | (taken, after) => some (.escaped taken, after)

/-! ## Code -/

/-- The text before the next run of exactly `count` backticks, and what follows the
run. `open` backticks in a row have just been read. -/
def takeCode? (count : Nat) : Nat → List Char → Option (List Char × List Char)
  | ticks, [] => if ticks = count then some ([], []) else none
  | ticks, c :: rest =>
    if c = '\x60' then takeCode? count (ticks + 1) rest
    else if ticks = count then some ([], c :: rest)
    else
      (takeCode? count 0 rest).map fun (code, after) =>
        (List.replicate ticks '\x60' ++ c :: code, after)

/-- Code without one space at each end, unless it is all white space. -/
def trimCode (cs : List Char) : List Char :=
  let cs := cs.map fun c => if c == '\n' then ' ' else c
  if !allBlank cs && cs.head? == some ' ' && cs.getLast? == some ' ' then cs.tail.dropLast
  else cs

/-- A code span; backticks that open none are text. -/
def codeSpan? : Reader := fun cs =>
  let count := (cs.takeWhile (· == '\x60')).length
  if count = 0 then none
  else
    let rest := cs.drop count
    match takeCode? count 0 rest with
    | some (code, after) => some (.code (trimCode code), after)
    | none => some (.text (List.replicate count '\x60'), rest)

/-! ## Formulas -/

/-- A formula up to a dollar sign that is not escaped. -/
def takeFormula? (multiline : Bool) : List Char → Option (List Char × List Char)
  | [] => none
  | '$' :: rest => some ([], rest)
  | '\\' :: c :: rest =>
    if c = '\n' then none
    else (takeFormula? multiline rest).map fun (f, after) => ('\\' :: c :: f, after)
  | '\\' :: [] => none
  | c :: rest =>
    if c = '\n' && !multiline then none
    else (takeFormula? multiline rest).map fun (f, after) => (c :: f, after)

/-- A formula between pairs of dollar signs, which is set apart. -/
def displayFormula? : Reader
  | '$' :: '$' :: rest =>
    match takeFormula? true rest with
    | some (formula, '$' :: after) => some (.math formula true, after)
    | _ => none
  | _ => none

/-- A formula between a dollar sign with backticks and the same backticks with a
dollar sign, the number of backticks being at most the given one. -/
def tickedFormulaWith? : Nat → List Char → Option (Inline × List Char)
  | 0, _ => none
  | count + 1, cs =>
    let ticks := List.replicate (count + 1) '\x60'
    match splitAtMarker? (ticks ++ ['$']) (cs.drop (count + 1)) with
    | some (formula, after) => some (.math formula false, after)
    | none => tickedFormulaWith? count cs

/-- A formula between dollar signs with backticks. -/
def tickedFormula? : Reader
  | '$' :: rest => tickedFormulaWith? (rest.takeWhile (· == '\x60')).length rest
  | _ => none

/-- A formula between single dollar signs. It starts without white space, and no
digit follows it, so that prices are not taken for formulas. -/
def plainFormula? : Reader
  | '$' :: c :: rest =>
    if c = '$' || isBlank c then none
    else
      match takeFormula? false (c :: rest) with
      | some (formula, after) =>
        if after.head?.any isDecimalDigit then none else some (.math formula false, after)
      | none => none
  | _ => none

/-- A formula within a line. -/
def formulaSpan? : Reader := fun cs =>
  (displayFormula? cs).orElse fun _ => (tickedFormula? cs).orElse fun _ => plainFormula? cs

/-! ## Addresses in angle brackets -/

/-- A link that shows its own address. -/
def ownLink (scheme shown : List Char) : Inline :=
  .link (encodeAddress (scheme ++ shown)) none [.text shown]

/-- A character of the scheme of an address. -/
def isSchemeChar (c : Char) : Bool := c.isAlphanum || c == '+' || c == '-' || c == '.'

/-- The text between angle brackets that is an address with a scheme. -/
def autoAddress? (cs : List Char) : Option (List Char × List Char) :=
  match cs with
  | '<' :: c :: rest =>
    let more := rest.takeWhile isSchemeChar
    if c.isAlpha && 1 ≤ more.length && more.length ≤ 31 then
      match rest.drop more.length with
      | ':' :: body =>
        let path := body.takeWhile fun d => d != '<' && d != '>' && d.toNat > 32
        match body.drop path.length with
        | '>' :: after => some (c :: more ++ ':' :: path, after)
        | _ => none
      | _ => none
    else none
  | _ => none

/-- A character before the at sign of a mail address. -/
def isMailboxChar (c : Char) : Bool :=
  c.isAlphanum || ".!#$%&'*+/=?^_\x60\x7b|\x7d~-".toList.contains c

/-- A part of a host name. -/
def isHostPart (cs : List Char) : Bool :=
  cs.all (fun c => c.isAlphanum || c == '-') && cs.length ≤ 63 &&
    cs.head?.any Char.isAlphanum && cs.getLast?.any Char.isAlphanum

/-- The text between angle brackets that is a mail address. -/
def mailAddress? (cs : List Char) : Option (List Char × List Char) :=
  match cs with
  | '<' :: rest =>
    let mailbox := rest.takeWhile isMailboxChar
    match rest.drop mailbox.length with
    | '@' :: body =>
      let host := body.takeWhile fun c => c.isAlphanum || c == '-' || c == '.'
      match body.drop host.length with
      | '>' :: after =>
        if !mailbox.isEmpty && (splitAt '.' host).all isHostPart then
          some (mailbox ++ '@' :: host, after)
        else none
      | _ => none
    | _ => none
  | _ => none

/-- An address in angle brackets; where links are not wanted it is text. -/
def ownLink? (linksAllowed : Bool) : Reader := fun cs =>
  let found :=
    ((autoAddress? cs).map fun (a, after) => (([] : List Char), a, after)).orElse fun _ =>
      (mailAddress? cs).map fun (a, after) => ("mailto:".toList, a, after)
  found.map fun (scheme, shown, after) =>
    if linksAllowed then (ownLink scheme shown, after)
    else (.text ('<' :: shown ++ ['>']), after)

/-! ## Raw HTML -/

/-- What follows a construct of raw HTML at the start of a text. -/
def afterRawHtml? : List Char → Option (List Char)
  | '<' :: '!' :: '-' :: '-' :: rest =>
    match rest with
    | '>' :: after => some after
    | '-' :: '>' :: after => some after
    | _ => Html.afterMarker? "-->".toList rest
  | '<' :: '?' :: rest => Html.afterMarker? "?>".toList rest
  | '<' :: '!' :: '[' :: rest =>
    if "CDATA[".toList.isPrefixOf rest then Html.afterMarker? "]]>".toList (rest.drop 6) else none
  | '<' :: '!' :: c :: rest => if Html.isLetter c then Html.afterMarker? ['>'] rest else none
  | '<' :: '/' :: rest => (Html.tagName? rest).bind fun (_, after) => Html.afterCloseTag? after
  | '<' :: rest => (Html.tagName? rest).bind fun (_, after) => Html.afterOpenTag? after
  | _ => none

/-- A construct of raw HTML. -/
def rawHtml? : Reader := fun cs =>
  (afterRawHtml? cs).map fun after => (.html (cs.take (cs.length - after.length)), after)

/-! ## Line breaks -/

/-- What follows spaces and a newline, with the number of spaces. -/
def afterBreak? (cs : List Char) : Option (Nat × List Char) :=
  let indent := indentOf cs
  match cs.drop indent with
  | '\n' :: rest => some (indent, trimStart rest)
  | _ => none

/-- A line break: kept after a backslash or two spaces, else shown as a space. -/
def lineBreak? : Reader
  | '\\' :: '\n' :: rest => some (.hardBreak, trimStart rest)
  | cs =>
    (afterBreak? cs).map fun (indent, after) =>
      (if indent ≥ 2 then .hardBreak else .softBreak, after)

end Livedoc.Markdown
