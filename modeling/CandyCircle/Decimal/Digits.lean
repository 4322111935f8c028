/-
**Decimal numerals.**

The text of a whole number, and of a whole number of tenths, hundredths and so on.

Main definitions:

* `CandyCircle.Decimal.ofNat`, `CandyCircle.Decimal.ofInt` — the numeral of a number;
* `CandyCircle.Decimal.fixedPoint` — a number of units of `10 ^ (-places)`, with a point;
* `CandyCircle.Decimal.roundHalfEven` — a quotient rounded to the nearest number, a tie to the even
  neighbour.
-/

set_option autoImplicit false

namespace CandyCircle.Decimal

/-- The numeral of a natural number. -/
def ofNat (n : Nat) : String :=
  String.ofList (Nat.toDigits 10 n)

/-- The numeral of an integer, with a minus in front of a negative one. -/
def ofInt : Int → String
  | Int.ofNat n => ofNat n
  | Int.negSucc n => "-" ++ ofNat (n + 1)

/-- The numeral of a natural number, with zeros in front up to a width. -/
def zeroPadded (width n : Nat) : String :=
  let s := ofNat n
  String.ofList (List.replicate (width - s.length) '0') ++ s

/-- The text of `n` units of `10 ^ (-places)`; without places there is no point. -/
def fixedPoint (places n : Nat) : String :=
  if places = 0 then ofNat n
  else ofNat (n / Nat.pow 10 places) ++ "." ++ zeroPadded places (n % Nat.pow 10 places)

/-- The number nearest to `num / den`; of two equally near ones the even one. -/
def roundHalfEven (num den : Nat) : Nat :=
  let q := num / den
  let r := num % den
  if 2 * r < den then q
  else if den < 2 * r then q + 1
  else if q % 2 = 0 then q else q + 1

end CandyCircle.Decimal
