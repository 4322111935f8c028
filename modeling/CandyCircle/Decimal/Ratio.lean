/-
**Numerals as ratios.**

A numeral is digits with an optional sign, and behind them a point and more digits or a stroke and
the digits of a denominator, and at the end an exponent.  Blanks, line ends and further signs among
the digits are passed over; any other character makes a text no numeral.

Main definitions:

* `CandyCircle.Decimal.Ratio`, `CandyCircle.Decimal.Ratio.isWhole` — ratios in lowest terms;
* `CandyCircle.Decimal.Ratio.ofText?` — the ratio that a numeral stands for.
-/
import CandyCircle.Decimal.Shortest

set_option autoImplicit false

namespace CandyCircle.Decimal

/-- A ratio. -/
structure Ratio where
  /-- The whole number above. -/
  numerator : Int
  /-- The number below. -/
  denominator : Nat
  deriving DecidableEq, Repr

namespace Ratio

/-- A ratio in lowest terms. -/
def reduced (numerator : Int) (denominator : Nat) : Ratio :=
  let common := Nat.gcd numerator.natAbs denominator
  ⟨numerator / common, denominator / common⟩

/-- Whether a ratio is a whole number. -/
def isWhole (r : Ratio) : Bool :=
  r.denominator == 1

/-- Whether a character may stand in a numeral. -/
def mayOccur (c : Char) : Bool :=
  c.isDigit || ['/', '-', ' ', '\n', '.', 'e', 'E', '+'].contains c

/-- The digits among characters. -/
def digits (cs : List Char) : List Char :=
  cs.filter Char.isDigit

/-- The number that digits stand for. -/
def value (cs : List Char) : Nat :=
  (digits cs).foldl (fun n c => 10 * n + (c.toNat - '0'.toNat)) 0

/-- The ratio that a numeral without sign and exponent stands for. -/
def unsigned? (cs : List Char) : Option (Nat × Nat) :=
  let whole := cs.takeWhile fun c => c != '/' && c != '.'
  match cs.dropWhile fun c => c != '/' && c != '.' with
  | '/' :: below => if value below = 0 then none else some (value whole, value below)
  | '.' :: places => some (value (whole ++ places), Nat.pow 10 (digits places).length)
  | _ => some (value whole, 1)

/-- The greatest number of digits that an exponent may have. -/
def exponentLimit : Nat := 4

/-- The ratio that a numeral stands for. -/
def ofText? (text : List Char) : Option Ratio := do
  if !text.all mayOccur then none
  let isExponent (c : Char) : Bool := c == 'e' || c == 'E'
  let front := text.takeWhile fun c => !isExponent c
  let exponent := (text.dropWhile fun c => !isExponent c).drop 1
  if exponentLimit < (digits exponent).length then none
  let power := Nat.pow 10 (value exponent)
  let (above, below) ← unsigned? front
  let (above, below) :=
    if exponent.contains '-' then (above, below * power) else (above * power, below)
  let negative := (front.dropWhile (· == ' ')).head? == some '-'
  return reduced (if negative then -(above : Int) else above) below

/-- The ratio of a double, by its text; infinities and what is not a number have none. -/
def ofFloat? (x : Float) : Option Ratio :=
  ofText? (ofFloat x).toList

end Ratio

end CandyCircle.Decimal
