/-
**Binary floating point numbers as exact quantities.**

A finite double is a sign and a magnitude `mantissa * 2 ^ exponent`.  Everything that is printed of
a double is computed from that magnitude in exact arithmetic.

Main definitions:

* `CandyCircle.Decimal.Magnitude` — the magnitude of a finite double;
* `CandyCircle.Decimal.Parts` — a double taken apart;
* `CandyCircle.Decimal.Parts.ofFloat` — the parts of a double, read off its bits.
-/

set_option autoImplicit false

namespace CandyCircle.Decimal

/-- The magnitude `mantissa * 2 ^ exponent` of a finite double. -/
structure Magnitude where
  /-- The whole number in front. -/
  mantissa : Nat
  /-- The power of two behind it. -/
  exponent : Int
  /-- Whether the next double below is only half as far away as the next one above. -/
  narrowBelow : Bool

/-- A double taken apart. -/
inductive Parts where
  /-- Not a number. -/
  | nan
  /-- An infinity. -/
  | infinite (negative : Bool)
  /-- A finite number. -/
  | finite (negative : Bool) (size : Magnitude)

/-- The parts of a double: one sign bit, eleven bits of exponent, fifty-two of fraction. -/
def Parts.ofFloat (x : Float) : Parts :=
  let bits := x.toBits.toNat
  let negative := bits / Nat.pow 2 63 = 1
  let scale : Nat := bits / Nat.pow 2 52 % Nat.pow 2 11
  let fraction : Nat := bits % Nat.pow 2 52
  if scale = 2047 then (if fraction = 0 then .infinite negative else .nan)
  else if scale = 0 then .finite negative ⟨fraction, -1074, false⟩
  else .finite negative ⟨fraction + Nat.pow 2 52, (scale : Int) - 1075, fraction = 0 && 1 < scale⟩

end CandyCircle.Decimal
