/-
**Texts as code points.**

A text that comes out of a data file may hold half of a surrogate pair: an escape can name one
without its partner.  No character stands for such a half, so the texts inside data are lists of
code points, and a half is a code point of its own kind.

Main definitions:

* `CandyCircle.CodePoint` — a character, or a lone half of a surrogate pair;
* `CandyCircle.CodePoint.ofString`, `CandyCircle.CodePoint.toText` — between code points and
  strings;
* `CandyCircle.CodePoint.chars?` — the characters of code points none of which is a lone half;
* `CandyCircle.CodePoint.ofUnit`, `CandyCircle.CodePoint.ofPair` — the code point of a 16-bit unit,
  and of a surrogate pair;
* `CandyCircle.CodePoint.units` — the 16-bit units of a code point.
-/

set_option autoImplicit false

namespace CandyCircle

/-- A code point of a text: a character, or half of a surrogate pair that stands alone. -/
inductive CodePoint where
  /-- A character. -/
  | scalar (c : Char)
  /-- Half of a surrogate pair without its partner. -/
  | half (unit : Nat)
  deriving DecidableEq, Repr

namespace CodePoint

/-- The number of a code point. -/
def value : CodePoint → Nat
  | scalar c => c.toNat
  | half unit => unit

/-- The code points of a string. -/
def ofString (s : String) : List CodePoint :=
  s.toList.map scalar

/-- The character shown for a code point; a lone half is shown as the replacement character. -/
def shown : CodePoint → Char
  | scalar c => c
  | half _ => '\uFFFD'

/-- The string that shows a list of code points. -/
def toText (points : List CodePoint) : String :=
  String.ofList (points.map shown)

/-- The character of a code point that is one. -/
def char? : CodePoint → Option Char
  | scalar c => some c
  | half _ => none

/-- The characters of code points none of which is a lone half. -/
def chars? : List CodePoint → Option (List Char)
  | [] => some []
  | p :: rest => do
      let c ← p.char?
      let cs ← chars? rest
      return c :: cs

/-! ### Surrogate pairs -/

/-- Whether a 16-bit unit opens a surrogate pair. -/
def isHighHalf (unit : Nat) : Bool :=
  0xD800 ≤ unit && unit ≤ 0xDBFF

/-- Whether a 16-bit unit closes a surrogate pair. -/
def isLowHalf (unit : Nat) : Bool :=
  0xDC00 ≤ unit && unit ≤ 0xDFFF

/-- The code point of a single 16-bit unit. -/
def ofUnit (unit : Nat) : CodePoint :=
  if isHighHalf unit || isLowHalf unit then half unit else scalar (Char.ofNat unit)

/-- The character that a surrogate pair stands for. -/
def ofPair (high low : Nat) : CodePoint :=
  scalar (Char.ofNat (0x10000 + (high - 0xD800) * 0x400 + (low - 0xDC00)))

/-- The 16-bit units of a code point: one below `0x10000`, a surrogate pair from there on. -/
def units (p : CodePoint) : List Nat :=
  if p.value < 0x10000 then [p.value]
  else [0xD800 + (p.value - 0x10000) / 0x400, 0xDC00 + (p.value - 0x10000) % 0x400]

end CodePoint

end CandyCircle
