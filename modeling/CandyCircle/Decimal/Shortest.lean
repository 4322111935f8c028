/-
**The fewest digits that read back.**

A double is written with the fewest decimal digits that still name it among all doubles, and of the
decimals of that length with the one nearest to it.  The doubles that round to a magnitude form an
interval around it; for one digit, two digits and so on, the two neighbours of the magnitude on the
decimal grid of that many digits are tested against that interval in exact arithmetic.

Main definitions:

* `CandyCircle.Decimal.Shortest` — digits and the place of the decimal point;
* `CandyCircle.Decimal.Magnitude.shortest` — the fewest digits that read back;
* `CandyCircle.Decimal.FloatStyle`, `CandyCircle.Decimal.FloatStyle.render` — how such digits are
  laid out as text;
* `CandyCircle.Decimal.ofFloat` — the text of a double.
-/
import CandyCircle.Decimal.Binary
import CandyCircle.Decimal.Digits

set_option autoImplicit false

namespace CandyCircle.Decimal

/-- The decimal `digits * 10 ^ exponent`. -/
structure Shortest where
  /-- The digits, read as a whole number. -/
  digits : Nat
  /-- The power of ten behind them. -/
  exponent : Int

namespace Magnitude

/-- A magnitude, the interval of reals that round to it, and one unit of the decimal grid
`10 ^ place`, all multiplied by one common factor that makes them whole. -/
structure Scaled where
  /-- The magnitude. -/
  value : Nat
  /-- The lower end of the interval. -/
  low : Nat
  /-- The upper end of the interval. -/
  high : Nat
  /-- One unit of the grid. -/
  unit : Nat

/-- The magnitude on the grid `10 ^ place`.  The ends of the interval lie half a step away, a
quarter of a step below where the doubles below are twice as dense. -/
def scaled (x : Magnitude) (place : Int) : Scaled :=
  let quarter := x.exponent - 2
  let twos := Nat.pow 2 quarter.toNat
  let tens := Nat.pow 10 (-place).toNat
  let step := twos * tens
  let below := if x.narrowBelow then 1 else 2
  { value := 4 * x.mantissa * step
    low := (4 * x.mantissa - below) * step
    high := (4 * x.mantissa + 2) * step
    unit := Nat.pow 10 place.toNat * Nat.pow 2 (-quarter).toNat }

/-- Whether a point of the grid rounds to the magnitude.  The ends of the interval do so exactly
when the mantissa is even. -/
def Scaled.admits (s : Scaled) (closed : Bool) (point : Nat) : Bool :=
  if closed then s.low ≤ point * s.unit && point * s.unit ≤ s.high
  else s.low < point * s.unit && point * s.unit < s.high

/-- The point of the grid `10 ^ place` that rounds to the magnitude and is nearest to it, the even
one if two are equally near. -/
def onGrid? (x : Magnitude) (place : Int) : Option Nat :=
  let s := x.scaled place
  let closed := x.mantissa % 2 = 0
  let below := s.value / s.unit
  match s.admits closed below, s.admits closed (below + 1) with
  | false, false => none
  | true, false => some below
  | false, true => some (below + 1)
  | true, true => some (roundHalfEven s.value s.unit)

/-- The number of digits in front of the decimal point: the least power of ten above the magnitude,
found among a few powers around an estimate by logarithms. -/
def pointPlace (x : Magnitude) : Int :=
  let estimate := ((x.mantissa.log2 : Int) + x.exponent) * 1233 / 4096
  let above (place : Int) : Bool := (x.scaled place).value < (x.scaled place).unit
  ([estimate - 1, estimate, estimate + 1].find? above).getD (estimate + 2)

/-- The fewest digits that read back, at most seventeen. -/
def shortest (x : Magnitude) : Shortest :=
  let place := x.pointPlace
  let grids := (List.range 17).map fun (n : Nat) => place - 1 - (n : Int)
  match grids.findSome? fun g => (x.onGrid? g).map (Shortest.mk · g) with
  | some s => s
  | none => ⟨x.mantissa, 0⟩

end Magnitude

/-! ### Layout -/

/-- How the digits of a double are laid out. -/
structure FloatStyle where
  /-- The least number of places in front of the point for which the point is written among the
  digits or zeros; below it an exponent is written. -/
  leastPlace : Int
  /-- The greatest such number of places. -/
  greatestPlace : Int
  /-- What stands for not a number. -/
  nan : String
  /-- What stands for infinity. -/
  infinity : String

/-- Digits without the zeros at their end, and how many those were.  The fuel is the number of
digits. -/
def dropZeros : Nat → Nat → Nat × Nat
  | 0, n => (n, 0)
  | fuel + 1, n =>
      if n = 0 then (0, 0)
      else if n % 10 = 0 then
        match dropZeros fuel (n / 10) with
        | (m, zeros) => (m, zeros + 1)
      else (n, 0)

/-- Digits with a point after the first `place` of them; zeros fill up on either side, and one
digit at least follows the point. -/
def withPoint (digits : String) (place : Int) : String :=
  let zeros (n : Nat) := String.ofList (List.replicate n '0')
  if place ≤ 0 then "0." ++ zeros (-place).toNat ++ digits
  else if (digits.length : Int) ≤ place then
    digits ++ zeros (place.toNat - digits.length) ++ ".0"
  else
    String.ofList (digits.toList.take place.toNat) ++ "." ++
      String.ofList (digits.toList.drop place.toNat)

/-- Digits with an exponent: one digit in front of the point, no point without further digits, a
sign and two digits at least in the exponent. -/
def withExponent (digits : String) (place : Int) : String :=
  let head := String.ofList (digits.toList.take 1)
  let tail := String.ofList (digits.toList.drop 1)
  let mantissa := if tail.isEmpty then head else head ++ "." ++ tail
  let power := place - 1
  mantissa ++ "e" ++ (if power < 0 then "-" else "+") ++ zeroPadded 2 power.natAbs

/-- The text of a magnitude in a style. -/
def FloatStyle.magnitude (style : FloatStyle) (x : Magnitude) : String :=
  if x.mantissa = 0 then "0.0"
  else
    let s := x.shortest
    let (digits, zeros) := dropZeros 400 s.digits
    let text := ofNat digits
    let place := s.exponent + zeros + text.length
    if style.leastPlace ≤ place && place ≤ style.greatestPlace then withPoint text place
    else withExponent text place

/-- The text of a double in a style. -/
def FloatStyle.render (style : FloatStyle) (x : Float) : String :=
  match Parts.ofFloat x with
  | .nan => style.nan
  | .infinite negative => (if negative then "-" else "") ++ style.infinity
  | .finite negative size => (if negative then "-" else "") ++ style.magnitude size

/-- The point is written out for four zeros behind it up to sixteen digits in front of it. -/
def plainStyle : FloatStyle :=
  { leastPlace := -3, greatestPlace := 16, nan := "nan", infinity := "inf" }

/-- The text of a double in plain style. -/
def ofFloat (x : Float) : String :=
  plainStyle.render x

end CandyCircle.Decimal
