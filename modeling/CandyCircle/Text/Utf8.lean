/-
**Bytes as text.**

A file is text in UTF-8.  Bytes that are not say where they went wrong: at a byte that begins no
character, at a byte that does not continue the character begun, or at an end that comes too soon.

The name of a file goes the other way, from text to bytes.  A lone half of a surrogate pair has no
bytes, save that the halves from `U+DC80` to `U+DCFF` stand for the bytes that are not text.

Main definitions:

* `CandyCircle.Text.Utf8.Fault`, `CandyCircle.Text.Utf8.Fault.message` — what is wrong with bytes;
* `CandyCircle.Text.Utf8.Lead` — what a first byte asks of the bytes after it;
* `CandyCircle.Text.Utf8.decode` — the characters of bytes;
* `CandyCircle.Text.Utf8.NameFault`, `CandyCircle.Text.Utf8.nameFault?` — what keeps a text from
  naming a file.
-/
import CandyCircle.Decimal.Digits
import CandyCircle.Text.Quoted

set_option autoImplicit false

namespace CandyCircle.Text.Utf8

/-- Why bytes are not text. -/
inductive Reason where
  /-- A byte begins no character. -/
  | invalidStart
  /-- A byte does not continue the character begun before it. -/
  | invalidContinuation
  /-- The bytes end inside a character. -/
  | unexpectedEnd
  deriving DecidableEq, Repr

/-- The wording of a reason. -/
def Reason.wording : Reason → String
  | invalidStart => "invalid start byte"
  | invalidContinuation => "invalid continuation byte"
  | unexpectedEnd => "unexpected end of data"

/-- Bytes that are not text: the faulty bytes, the position of the first of them, and the
reason. -/
structure Fault where
  /-- The first faulty byte. -/
  byte : Nat
  position : Nat
  /-- The number of faulty bytes. -/
  length : Nat
  /-- What is wrong with them. -/
  reason : Reason
  deriving DecidableEq, Repr

/-- The wording of a fault. -/
def Fault.message (f : Fault) : String :=
  let what :=
    if f.length = 1 then
      "byte 0x" ++ hexPadded 2 f.byte ++ " in position " ++ Decimal.ofNat f.position
    else
      "bytes in position " ++ Decimal.ofNat f.position ++ "-" ++
        Decimal.ofNat (f.position + f.length - 1)
  "'utf-8' codec can't decode " ++ what ++ ": " ++ f.reason.wording

/-- What a first byte asks for: the bits that it brings, how many bytes follow, and the range of
the first of those. -/
structure Lead where
  /-- The bits of the first byte. -/
  bits : Nat
  /-- How many bytes follow. -/
  more : Nat
  /-- The least byte that may follow at once. -/
  low : Nat
  /-- The greatest byte that may follow at once. -/
  high : Nat

/-- What a first byte asks for; `none` for a byte that begins no character.  The narrower ranges
shut out forms that are too long, surrogates, and what lies beyond the last code point. -/
def Lead.ofByte? (b : Nat) : Option Lead :=
  if b ≤ 0x7F then some ⟨b, 0, 0x80, 0xBF⟩
  else if 0xC2 ≤ b && b ≤ 0xDF then some ⟨b - 0xC0, 1, 0x80, 0xBF⟩
  else if b = 0xE0 then some ⟨0, 2, 0xA0, 0xBF⟩
  else if b = 0xED then some ⟨0xD, 2, 0x80, 0x9F⟩
  else if 0xE1 ≤ b && b ≤ 0xEF then some ⟨b - 0xE0, 2, 0x80, 0xBF⟩
  else if b = 0xF0 then some ⟨0, 3, 0x90, 0xBF⟩
  else if 0xF1 ≤ b && b ≤ 0xF3 then some ⟨b - 0xF0, 3, 0x80, 0xBF⟩
  else if b = 0xF4 then some ⟨4, 3, 0x80, 0x8F⟩
  else none

/-- A character begun: its first byte and position, the bytes read of it, the bits so far, how many
bytes are still to come, and the range of the next one. -/
structure Begun where
  /-- The first byte. -/
  first : Nat
  /-- The position of the first byte. -/
  start : Nat
  /-- How many bytes were read. -/
  count : Nat
  /-- The bits read. -/
  bits : Nat
  /-- How many bytes are still to come. -/
  more : Nat
  /-- The least byte that may come next. -/
  low : Nat
  /-- The greatest byte that may come next. -/
  high : Nat

/-- The fault of a character that was begun and not ended. -/
def Begun.fault (c : Begun) (reason : Reason) : Fault :=
  ⟨c.first, c.start, c.count, reason⟩

/-- Reads bytes from a position on, between characters or inside one. -/
def scan : Nat → Option Begun → List Nat → Except Fault (List Char)
  | _, none, [] => .ok []
  | _, some c, [] => .error (c.fault .unexpectedEnd)
  | position, none, b :: rest =>
      match Lead.ofByte? b with
      | none => .error ⟨b, position, 1, .invalidStart⟩
      | some lead =>
          if lead.more = 0 then
            (scan (position + 1) none rest).map (Char.ofNat lead.bits :: ·)
          else
            scan (position + 1)
              (some ⟨b, position, 1, lead.bits, lead.more, lead.low, lead.high⟩) rest
  | position, some c, b :: rest =>
      if c.low ≤ b && b ≤ c.high then
        let bits := c.bits * 0x40 + (b - 0x80)
        if c.more ≤ 1 then (scan (position + 1) none rest).map (Char.ofNat bits :: ·)
        else
          scan (position + 1)
            (some
              { c with count := c.count + 1, bits, more := c.more - 1, low := 0x80, high := 0xBF })
            rest
      else .error (c.fault .invalidContinuation)

/-- The text that bytes stand for. -/
def decode (bytes : List UInt8) : Except Fault String :=
  (scan 0 none (bytes.map UInt8.toNat)).map String.ofList

/-! ### Names of files -/

/-- Halves of surrogate pairs that have no bytes: the first of them, its position, and how many of
them stand next to one another. -/
structure NameFault where
  /-- The first half. -/
  unit : Nat
  position : Nat
  /-- The number of halves. -/
  length : Nat
  deriving DecidableEq, Repr

/-- The wording of a fault in a name. -/
def NameFault.message (f : NameFault) : String :=
  let what :=
    if f.length = 1 then
      "character '" ++ numericEscape f.unit ++ "' in position " ++ Decimal.ofNat f.position
    else
      "characters in position " ++ Decimal.ofNat f.position ++ "-" ++
        Decimal.ofNat (f.position + f.length - 1)
  "'utf-8' codec can't encode " ++ what ++ ": surrogates not allowed"

/-- Whether half of a surrogate pair stands for a byte that is not text. -/
def isByteHalf (unit : Nat) : Bool :=
  0xDC80 ≤ unit && unit ≤ 0xDCFF

/-- What keeps a text from naming a file, if its first code point stands at the given position. -/
def nameFaultFrom : Nat → List CodePoint → Option NameFault
  | _, [] => none
  | position, p :: rest =>
      match p.char? with
      | some _ => nameFaultFrom (position + 1) rest
      | none =>
          if isByteHalf p.value then nameFaultFrom (position + 1) rest
          else some ⟨p.value, position, 1 + (rest.takeWhile fun q => q.char?.isNone).length⟩

/-- What keeps a text from naming a file. -/
def nameFault? (text : List CodePoint) : Option NameFault :=
  nameFaultFrom 0 text

end CandyCircle.Text.Utf8
