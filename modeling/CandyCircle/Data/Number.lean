/-
**Arithmetic on data.**

Truth values, whole numbers and doubles are numbers; a truth value is one or zero.  A sum is whole
if both parts are, and otherwise a double.  Texts and lists are put one behind the other by a sum,
and other data has none.

Main definitions:

* `CandyCircle.Number`, `CandyCircle.Number.ofData?` — numbers, and the number that data is;
* `CandyCircle.Number.toFloat` — a number as a double;
* `CandyCircle.Number.add`, `CandyCircle.Number.halfDown`, `CandyCircle.Number.isEven` — arithmetic;
* `CandyCircle.Data.plus`, `CandyCircle.Data.total` — sums of data.

Main results:

* `CandyCircle.Data.plus_int` — the sum of whole numbers.
-/
import CandyCircle.Data.Kind

set_option autoImplicit false

namespace CandyCircle

/-- A number: whole, or a double. -/
inductive Number where
  /-- A whole number. -/
  | whole (n : Int)
  /-- A double. -/
  | double (x : Float)

namespace Number

/-- The number that data is. -/
def ofData? : Data → Option Number
  | .bool b => some (whole b.toInt)
  | .int n => some (whole n)
  | .float x => some (double x)
  | _ => none

/-- A number as data. -/
def toData : Number → Data
  | whole n => .int n
  | double x => .float x

/-- A number as a double; a whole number has to lie among the doubles. -/
def toFloat : Number → Except KindFault Float
  | whole n => if (Float.ofInt n).isInf then .error .beyondDoubles else .ok (Float.ofInt n)
  | double x => .ok x

/-- The sum of two numbers. -/
def add : Number → Number → Except KindFault Number
  | whole a, whole b => .ok (whole (a + b))
  | a, b => do return double ((← a.toFloat) + (← b.toFloat))

/-- Half of a number, rounded down.  An infinity has no half. -/
def halfDown : Number → Number
  | whole n => whole (n / 2)
  | double x => double (if x.isInf then x - x else (x / 2.0).floor)

/-- Whether a number is a multiple of two. -/
def isEven : Number → Bool
  | whole n => n % 2 == 0
  | double x => x / 2.0 == (x / 2.0).floor

end Number

namespace Data

/-- The sum of data. -/
def plus (a b : Data) : Except KindFault Data :=
  match Number.ofData? a, Number.ofData? b with
  | some x, some y => (x.add y).map Number.toData
  | _, _ =>
      match a, b with
      | .str s, .str t => .ok (.str (s ++ t))
      | .list xs, .list ys => .ok (.list (xs ++ ys))
      | .str s, b => .error (.notJoined (.str s) b)
      | .list xs, b => .error (.notJoined (.list xs) b)
      | a, b => .error (.operands "+" a.kindName b.kindName)

/-- The sum of whole numbers. -/
theorem plus_int (a b : Int) : plus (.int a) (.int b) = .ok (.int (a + b)) := rfl

/-- The sum of data from left to right, starting from the whole number zero. -/
def total (items : List Data) : Except KindFault Data :=
  items.foldlM plus (.int 0)

/-- Half of a number, rounded down. -/
def half (d : Data) : Except KindFault Number :=
  match Number.ofData? d with
  | some x => .ok x.halfDown
  | none => .error (.operands "//" d.kindName (kindName (.int 0)))

end Data

end CandyCircle
