/-
**Doubles with a fixed number of places.**

The exact value of a double is rounded to a number of places, a tie going to the even neighbour.

Main definitions:

* `CandyCircle.Decimal.Magnitude.inUnits` — a magnitude as a whole number of `10 ^ (-places)`;
* `CandyCircle.Decimal.fixed` — a double with a fixed number of places, as text;
* `CandyCircle.Decimal.read` — the double nearest to a decimal;
* `CandyCircle.Decimal.roundTo` — the double nearest to a double with a fixed number of places.
-/
import CandyCircle.Decimal.Binary
import CandyCircle.Decimal.Digits

set_option autoImplicit false

namespace CandyCircle.Decimal

/-- The magnitude in units of `10 ^ (-places)`, rounded. -/
def Magnitude.inUnits (x : Magnitude) (places : Nat) : Nat :=
  roundHalfEven (x.mantissa * Nat.pow 2 x.exponent.toNat * Nat.pow 10 places)
    (Nat.pow 2 (-x.exponent).toNat)

/-- A double with a fixed number of places. -/
def fixed (places : Nat) (x : Float) : String :=
  match Parts.ofFloat x with
  | .nan => "nan"
  | .infinite negative => if negative then "-inf" else "inf"
  | .finite negative size =>
      (if negative then "-" else "") ++ fixedPoint places (size.inUnits places)

/-! ### Reading decimals -/

/-- The double nearest to `digits * 10 ^ exponent`.  From `10 ^ 310` on it is infinite, and below
`10 ^ (-400)` it is zero. -/
def read (digits : Nat) (exponent : Int) : Float :=
  let size := ((Nat.toDigits 10 digits).length : Int) + exponent
  if digits = 0 || size < -400 then 0.0
  else if 311 < size then Float.ofScientific 1 false 400
  else if exponent < 0 then Float.ofScientific digits true exponent.natAbs
  else Float.ofScientific digits false exponent.natAbs

/-- The double nearest to a double rounded to a fixed number of places. -/
def roundTo (places : Nat) (x : Float) : Float :=
  match Parts.ofFloat x with
  | .finite negative size =>
      let y := read (size.inUnits places) (-(places : Int))
      if negative then -y else y
  | _ => x

end CandyCircle.Decimal
