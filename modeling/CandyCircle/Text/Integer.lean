/-
**Reading whole numbers.**

A whole number is an optional sign and digits, between blanks.  Single underscores may separate the
digits, and the digits may come from any script that has a set of ten decimal digits.

Main definitions:

* `CandyCircle.Text.isBlank` — the characters that may surround a number;
* `CandyCircle.Text.digitZeros`, `CandyCircle.Text.digitValue?` — the decimal digits of all
  scripts;
* `CandyCircle.Text.readInt?` — the number that characters stand for.
-/

set_option autoImplicit false

namespace CandyCircle.Text

/-- Whether a character is blank: the controls from tab to carriage return, next line, the line and
paragraph separators, and the space separators. -/
def isBlank (c : Char) : Bool :=
  let n := c.toNat
  (0x09 ≤ n && n ≤ 0x0D) || n == 0x20 || n == 0x85 || n == 0xA0 || n == 0x1680 ||
    (0x2000 ≤ n && n ≤ 0x200A) || n == 0x2028 || n == 0x2029 || n == 0x202F || n == 0x205F ||
    n == 0x3000

/-- The digits zero of all scripts, after version 14 of the Unicode Character Database; the nine
other digits of a script follow its zero. -/
def digitZeros : Array Nat :=
  #[0x30, 0x660, 0x6F0, 0x7C0, 0x966, 0x9E6, 0xA66, 0xAE6, 0xB66, 0xBE6, 0xC66, 0xCE6, 0xD66,
    0xDE6, 0xE50, 0xED0, 0xF20, 0x1040, 0x1090, 0x17E0, 0x1810, 0x1946, 0x19D0, 0x1A80, 0x1A90,
    0x1B50, 0x1BB0, 0x1C40, 0x1C50, 0xA620, 0xA8D0, 0xA900, 0xA9D0, 0xA9F0, 0xAA50, 0xABF0, 0xFF10,
    0x104A0, 0x10D30, 0x11066, 0x110F0, 0x11136, 0x111D0, 0x112F0, 0x11450, 0x114D0, 0x11650,
    0x116C0, 0x11730, 0x118E0, 0x11950, 0x11C50, 0x11D50, 0x11DA0, 0x16A60, 0x16AC0, 0x16B50,
    0x1D7CE, 0x1D7D8, 0x1D7E2, 0x1D7EC, 0x1D7F6, 0x1E140, 0x1E2F0, 0x1E950, 0x1FBF0]

/-- The value of a decimal digit of any script. -/
def digitValue? (c : Char) : Option Nat :=
  (digitZeros.find? fun first => first ≤ c.toNat && c.toNat < first + 10).map (c.toNat - ·)

/-- The values of digits that single underscores may separate; `none` if anything else occurs, if
there is no digit, or if an underscore does not stand between two digits. -/
def digitValues? : List Char → Option (List Nat)
  | [] => none
  | [c] => (digitValue? c).map ([·])
  | c :: '_' :: rest => do
      let d ← digitValue? c
      let ds ← digitValues? rest
      return d :: ds
  | c :: rest => do
      let d ← digitValue? c
      let ds ← digitValues? rest
      return d :: ds

/-- The greatest number of digits that a numeral may have. -/
def digitLimit : Nat := 4300

/-- The natural number with the given digits, unless they are more than the limit. -/
def natOfDigits? (digits : List Nat) : Option Nat :=
  if digitLimit < digits.length then none
  else some (digits.foldl (fun n d => 10 * n + d) 0)

/-- A text without the blanks at its ends. -/
def trimBlanks (cs : List Char) : List Char :=
  ((cs.dropWhile isBlank).reverse.dropWhile isBlank).reverse

/-- The whole number that characters stand for. -/
def readInt? (cs : List Char) : Option Int :=
  match trimBlanks cs with
  | '-' :: cs => do
      let n ← natOfDigits? (← digitValues? cs)
      return -(n : Int)
  | '+' :: cs => do
      let n ← natOfDigits? (← digitValues? cs)
      return (n : Int)
  | cs => do
      let n ← natOfDigits? (← digitValues? cs)
      return (n : Int)

end CandyCircle.Text
