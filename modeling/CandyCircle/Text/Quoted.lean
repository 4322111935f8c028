/-
**Quoted literals.**

A text is shown between single quotes, or between double quotes if it holds single quotes and no
double ones.  The backslash, the enclosing quote, and what is not printable are escaped.

Main definitions:

* `CandyCircle.Text.quoted` — the quoted form of a text.
-/
import CandyCircle.Text.CodePoint
import CandyCircle.Text.Printable

set_option autoImplicit false

namespace CandyCircle.Text

/-- A number in lower-case hexadecimal digits, with zeros in front up to a width. -/
def hexPadded (width n : Nat) : String :=
  let digits := Nat.toDigits 16 n
  String.ofList (List.replicate (width - digits.length) '0' ++ digits)

/-- The numeric escape of a code point: two, four or eight hexadecimal digits, as it needs. -/
def numericEscape (point : Nat) : String :=
  if point < 0x100 then "\\x" ++ hexPadded 2 point
  else if point < 0x10000 then "\\u" ++ hexPadded 4 point
  else "\\U" ++ hexPadded 8 point

/-- A code point inside a literal that `quote` encloses. -/
def quotedPoint (quote : Char) : CodePoint → String
  | .half unit => numericEscape unit
  | .scalar c =>
      if c == quote || c == '\\' then String.ofList ['\\', c]
      else if c == '\t' then "\\t"
      else if c == '\n' then "\\n"
      else if c == '\r' then "\\r"
      else if isPrintable c.toNat then c.toString
      else numericEscape c.toNat

/-- The quoted form of a text. -/
def quoted (points : List CodePoint) : String :=
  let single := points.contains (.scalar '\'')
  let double := points.contains (.scalar '"')
  let quote := if single && !double then '"' else '\''
  quote.toString ++ String.join (points.map (quotedPoint quote)) ++ quote.toString

/-- The quoted form of a string. -/
def quotedString (s : String) : String :=
  quoted (CodePoint.ofString s)

end CandyCircle.Text
