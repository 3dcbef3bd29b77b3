import Livedoc.Datum
import Livedoc.Text.Entity

/-!
# Scalars of TOML

A configuration file is written in TOML. This module reads what has no parts there:
texts in their four notations, numbers and truth values, together with the white
space and the comments around them. Dates are not read.

A reader takes what it reads from the front of a text and gives the rest, or nothing
if the text does not start with it.
-/

namespace Livedoc.Toml

open Livedoc.Text Livedoc.Decimal

/-- Reads from the front of a text. -/
abbrev Reader (α : Type) := List Char → Option (α × List Char)

/-- A control character; only in a text of several lines may one stand. -/
def isControl (c : Char) : Bool := (c.toNat < 0x20 && c != '\t') || c.toNat == 0x7F

/-- The text after spaces and tabs. -/
def skipGaps (cs : List Char) : List Char := cs.dropWhile isGap

/-- The text after a comment, if one starts here. -/
def skipComment? (cs : List Char) : Option (List Char) :=
  match cs with
  | '#' :: rest =>
    if (rest.takeWhile (· != '\n')).any isControl then none else some (rest.dropWhile (· != '\n'))
  | _ => some cs

/-- The text after white space, newlines and comments; there are fewer comments than
`fuel`. -/
def skipFiller? : Nat → List Char → Option (List Char)
  | 0, _ => none
  | fuel + 1, cs =>
    match cs.dropWhile fun c => isGap c || c == '\n' with
    | '#' :: rest => (skipComment? ('#' :: rest)).bind (skipFiller? fuel)
    | rest => some rest

/-! ## Texts -/

/-- The character with a code of so many hexadecimal digits. -/
def codePoint? (size : Nat) : Reader Char := fun cs =>
  let digits := cs.take size
  let code := digitsValue 16 digits
  if digits.length = size && digits.all isHexDigit && code.isValidChar then
    some (Char.ofNat code, cs.drop size)
  else none

/-- The character that follows a backslash. -/
def escaped? : Reader Char
  | 'b' :: rest => some ('\x08', rest)
  | 't' :: rest => some ('\t', rest)
  | 'n' :: rest => some ('\n', rest)
  | 'f' :: rest => some ('\x0c', rest)
  | 'r' :: rest => some ('\r', rest)
  | '"' :: rest => some ('"', rest)
  | '\\' :: rest => some ('\\', rest)
  | 'u' :: rest => codePoint? 4 rest
  | 'U' :: rest => codePoint? 8 rest
  | _ => none

/-- The text after a backslash at the end of a line: the newline and all white space
after it do not count. -/
def continued? (cs : List Char) : Option (List Char) :=
  match skipGaps cs with
  | [] => some []
  | '\n' :: rest => some (rest.dropWhile fun c => isGap c || c == '\n')
  | _ => none

/-- The rest of a text between double quotes on one line. The text is shorter than
`fuel`. -/
def quotedRest : Nat → Reader (List Char)
  | 0, _ => none
  | _ + 1, [] => none
  | _ + 1, '"' :: rest => some ([], rest)
  | fuel + 1, '\\' :: rest => do
    let (c, rest) ← escaped? rest
    let (cs, rest) ← quotedRest fuel rest
    return (c :: cs, rest)
  | fuel + 1, c :: rest =>
    if isControl c then none
    else do
      let (cs, rest) ← quotedRest fuel rest
      return (c :: cs, rest)

/-- Up to two quotes that stand before the three that close a text belong to it. -/
def closingQuotes (quote : Char) (cs : List Char) : List Char × List Char :=
  let extra := (cs.take 2).takeWhile (· == quote)
  (extra, cs.drop extra.length)

/-- The rest of a text of several lines between double quotes. -/
def quotedLines : Nat → Reader (List Char)
  | 0, _ => none
  | _ + 1, [] => none
  | _ + 1, '"' :: '"' :: '"' :: rest => some (closingQuotes '"' rest)
  | fuel + 1, '\\' :: rest =>
    if rest.head?.any fun c => isGap c || c == '\n' then (continued? rest).bind (quotedLines fuel)
    else do
      let (c, rest) ← escaped? rest
      let (cs, rest) ← quotedLines fuel rest
      return (c :: cs, rest)
  | fuel + 1, c :: rest =>
    if isControl c && c != '\n' then none
    else do
      let (cs, rest) ← quotedLines fuel rest
      return (c :: cs, rest)

/-- The rest of a text between single quotes on one line. -/
def literalRest (cs : List Char) : Option (List Char × List Char) :=
  let text := cs.takeWhile (· != '\x27')
  match cs.drop text.length with
  | _ :: rest => if text.any isControl then none else some (text, rest)
  | [] => none

/-- The rest of a text of several lines between single quotes. -/
def literalLines : Reader (List Char)
  | [] => none
  | '\x27' :: '\x27' :: '\x27' :: rest => some (closingQuotes '\x27' rest)
  | c :: rest =>
    if isControl c && c != '\n' then none
    else do
      let (cs, rest) ← literalLines rest
      return (c :: cs, rest)

/-- A newline right after the opening quotes does not belong to the text. -/
def dropNewline : List Char → List Char
  | '\n' :: rest => rest
  | cs => cs

/-- A text on one line. -/
def line? : Reader (List Char)
  | '"' :: rest => quotedRest (rest.length + 1) rest
  | '\x27' :: rest => literalRest rest
  | _ => none

/-- A text in any notation. -/
def text? : Reader (List Char)
  | '"' :: '"' :: '"' :: rest => quotedLines (rest.length + 1) (dropNewline rest)
  | '\x27' :: '\x27' :: '\x27' :: rest => literalLines (dropNewline rest)
  | cs => line? cs

/-! ## Numbers -/

/-- Digits with single underscores between them; `after` tells whether a digit stands
before. -/
def digitRun (isDigit : Char → Bool) (after : Bool) : List Char → List Char × List Char
  | [] => ([], [])
  | c :: rest =>
    if isDigit c then
      let (ds, rest) := digitRun isDigit true rest
      (c :: ds, rest)
    else if c == '_' && after && rest.head?.any isDigit then digitRun isDigit false rest
    else ([], c :: rest)

/-- The digits of a number in another base than ten. -/
def basedNumber? (base : Nat) (isDigit : Char → Bool) : Reader Datum := fun cs =>
  match digitRun isDigit false cs with
  | ([], _) => none
  | (ds, rest) => some (.integer (digitsValue base ds), rest)

/-- The whole part of a number: a zero, or digits that do not start with one. -/
def wholeDigits? : Reader (List Char)
  | '0' :: rest => some (['0'], rest)
  | c :: rest => if c.isDigit then some (digitRun Char.isDigit false (c :: rest)) else none
  | [] => none

/-- The fraction of a number with its point, or nothing. -/
def fractionDigits : List Char → List Char × List Char
  | '.' :: c :: rest =>
    if c.isDigit then
      let (ds, rest) := digitRun Char.isDigit false (c :: rest)
      ('.' :: ds, rest)
    else ([], '.' :: c :: rest)
  | cs => ([], cs)

/-- The exponent of a number with its mark and sign, or nothing. -/
def exponentDigits (cs : List Char) : List Char × List Char :=
  match cs with
  | e :: rest =>
    if e == 'e' || e == 'E' then
      let sign := (rest.take 1).filter fun c => c == '+' || c == '-'
      match digitRun Char.isDigit false (rest.drop sign.length) with
      | ([], _) => ([], cs)
      | (ds, rest) => ('e' :: sign ++ ds, rest)
    else ([], cs)
  | [] => ([], [])

/-- A number in base ten, given its sign. -/
def decimalNumber? (negative : Bool) : Reader Datum := fun cs => do
  let (whole, rest) ← wholeDigits? cs
  let (fraction, rest) := fractionDigits rest
  let (exponent, rest) := exponentDigits rest
  if fraction.isEmpty && exponent.isEmpty then
    let n : Int := digitsValue 10 whole
    return (.integer (if negative then -n else n), rest)
  else
    let x := (parseNumber? (String.ofList (whole ++ fraction ++ exponent))).getD 0
    return (.number (if negative then -x else x), rest)

/-- A number that is not finite, given its sign. -/
def specialNumber? (negative : Bool) : Reader Datum
  | 'i' :: 'n' :: 'f' :: rest => some (.number (infinity negative), rest)
  | 'n' :: 'a' :: 'n' :: rest => some (.number (0.0 / 0.0), rest)
  | _ => none

/-- A number. -/
def number? : Reader Datum
  | '0' :: 'x' :: rest => basedNumber? 16 isHexDigit rest
  | '0' :: 'o' :: rest => basedNumber? 8 (fun c => '0' ≤ c && c ≤ '7') rest
  | '0' :: 'b' :: rest => basedNumber? 2 (fun c => c == '0' || c == '1') rest
  | '+' :: rest => (decimalNumber? false rest).or (specialNumber? false rest)
  | '-' :: rest => (decimalNumber? true rest).or (specialNumber? true rest)
  | cs => (decimalNumber? false cs).or (specialNumber? false cs)

/-- A text, a truth value or a number. -/
def scalar? : Reader Datum
  | '"' :: rest => (text? ('"' :: rest)).map fun (cs, rest) => (.text (String.ofList cs), rest)
  | '\x27' :: rest => (text? ('\x27' :: rest)).map fun (cs, rest) => (.text (String.ofList cs), rest)
  | 't' :: 'r' :: 'u' :: 'e' :: rest => some (.boolean true, rest)
  | 'f' :: 'a' :: 'l' :: 's' :: 'e' :: rest => some (.boolean false, rest)
  | cs => number? cs

end Livedoc.Toml
