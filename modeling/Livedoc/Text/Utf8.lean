import Livedoc.Text.Literal

/-!
# Text in UTF-8

A text file holds its characters in UTF-8. Reading takes one octet at a time: the
first octet of a character says how many more belong to it, and in which range the
next one has to be, so that every character has one form only and no surrogate has
any. Reading ends at the first octet that no text can hold at its place.
-/

namespace Livedoc.Text

/-- Why octets are no text. -/
inductive Utf8Fault where
  /-- The octet starts no character. -/
  | start
  /-- The octet does not continue the character before it. -/
  | continuation
  /-- The last character is not complete. -/
  | stop
deriving DecidableEq, Repr

/-- Why and where octets are no text. -/
structure Utf8Error where
  fault : Utf8Fault
  /-- The number of the octet that starts the character. -/
  position : Nat
  /-- That octet. -/
  octet : Nat
  /-- How many octets are at fault. -/
  size : Nat
deriving DecidableEq, Repr

/-- What a fault says. -/
def Utf8Fault.message : Utf8Fault → String
  | start => "invalid start byte"
  | continuation => "invalid continuation byte"
  | stop => "unexpected end of data"

/-- What an error says. -/
def Utf8Error.message (e : Utf8Error) : String :=
  let place :=
    if e.size = 1 then
      "byte 0x" ++ String.ofList (hexDigits 2 e.octet) ++ " in position " ++ toString e.position
    else "bytes in position " ++ toString e.position ++ "-" ++ toString (e.position + e.size - 1)
  "\x27utf-8\x27 codec can\x27t decode " ++ place ++ ": " ++ e.fault.message

/-- A character of which further octets have to come. -/
structure PartialChar where
  /-- The octet that started the character, and its number. -/
  octet : Nat
  position : Nat
  /-- How many octets were read. -/
  size : Nat := 1
  /-- The code point as far as it is known. -/
  code : Nat
  /-- How many octets have to come after the next one. -/
  owed : Nat
  /-- The least and the greatest that the next octet may be. -/
  least : Nat := 0x80
  greatest : Nat := 0xBF

/-- The character that an octet starts, if more octets belong to it. -/
def PartialChar.start? (position octet : Nat) : Option PartialChar :=
  if 0xC2 ≤ octet && octet ≤ 0xDF then some { octet, position, code := octet - 0xC0, owed := 0 }
  else if octet = 0xE0 then some { octet, position, code := 0, owed := 1, least := 0xA0 }
  else if octet = 0xED then some { octet, position, code := 0xD, owed := 1, greatest := 0x9F }
  else if 0xE1 ≤ octet && octet ≤ 0xEF then some { octet, position, code := octet - 0xE0, owed := 1 }
  else if octet = 0xF0 then some { octet, position, code := 0, owed := 2, least := 0x90 }
  else if 0xF1 ≤ octet && octet ≤ 0xF3 then some { octet, position, code := octet - 0xF0, owed := 2 }
  else if octet = 0xF4 then some { octet, position, code := 4, owed := 2, greatest := 0x8F }
  else none

/-- A character that is not complete, with a fault. -/
def PartialChar.error (p : PartialChar) (fault : Utf8Fault) : Utf8Error :=
  ⟨fault, p.position, p.octet, p.size⟩

/-- Reads octets from a position on. `done` holds the characters read, last one
first, and `pending` the character that is not complete. -/
def decodeFrom (done : List Char) (pending : Option PartialChar) (position : Nat) :
    List Nat → Except Utf8Error (List Char)
  | [] =>
    match pending with
    | none => .ok done.reverse
    | some p => .error (p.error .stop)
  | octet :: rest =>
    match pending with
    | none =>
      if octet < 0x80 then decodeFrom (Char.ofNat octet :: done) none (position + 1) rest
      else
        match PartialChar.start? position octet with
        | some p => decodeFrom done (some p) (position + 1) rest
        | none => .error ⟨.start, position, octet, 1⟩
    | some p =>
      if p.least ≤ octet && octet ≤ p.greatest then
        let code := p.code * 64 + (octet - 0x80)
        match p.owed with
        | 0 => decodeFrom (Char.ofNat code :: done) none (position + 1) rest
        | owed + 1 =>
          let next : PartialChar :=
            { octet := p.octet, position := p.position, size := p.size + 1, code, owed }
          decodeFrom done (some next) (position + 1) rest
      else .error (p.error .continuation)

/-- The text that octets hold. -/
def decodeUtf8 (octets : List Nat) : Except Utf8Error (List Char) := decodeFrom [] none 0 octets

/-- The octets that hold a text. -/
def encodeUtf8 (s : String) : List Nat := s.toUTF8.toList.map UInt8.toNat

end Livedoc.Text
