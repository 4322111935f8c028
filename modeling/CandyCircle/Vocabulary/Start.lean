/-
**Starts and sizes of any kind.**

A concrete start and the size of the circle may be given as data of any kind.  A count that is a
double is an equation with a fraction, a text is read as a numeral, and a count that is nothing is
what no child holds.

Main definitions:

* `CandyCircle.Vocabulary.holds` — a term is what data stands for;
* `CandyCircle.Vocabulary.startOf` — a concrete start, child 1 first;
* `CandyCircle.Vocabulary.fixedSize` — what data says of the number of children.
-/
import CandyCircle.Data.Fields
import CandyCircle.Decimal.Ratio
import CandyCircle.Vocabulary

set_option autoImplicit false

namespace CandyCircle.Vocabulary

open Logic

/-- A fault of form as a failure. -/
def refuse {α : Type} (fault : FormFault) : Except Failure α :=
  .error (.fact (.form fault))

/-- A term is what data stands for. -/
def holds (t : IntTerm) : Data → Except Failure Formula
  | .int n => .ok (.eq .int t (.num n))
  | .bool b => .ok (.eq .int t (.num b.toInt))
  | .null => .ok (.lit false)
  | .float x =>
      match Decimal.Ratio.ofFloat? x with
      | some r => .ok (.ratio t r.numerator r.denominator)
      | none => refuse .noNumeral
  | d =>
      match Decimal.Ratio.ofText? d.toString.toList with
      | none => refuse .noNumeral
      | some r => if r.isWhole then .ok (.eq .int t (.num r.numerator)) else refuse .brokenNumeral

/-- What child `place + 1` holds at the start. -/
def startAt (p : Nat × Data) : Except Failure Formula :=
  holds (m (.num (p.1 + 1)) (.num 0)) p.2

/-- A concrete start, child 1 first. -/
def startOf (counts : Data) : Except Failure Fact := do
  let items ← counts.itemsOrFault.mapError .kind
  return .plain "initial-counts" (.all (← ((List.range items.length).zip items).mapM startAt))

/-- What data says of the number of children, of which there has to be one. -/
def fixedSize (children : Data) : Except Failure Formula := do
  if ← (children.relate .below (.int 1)).mapError .kind then
    throw .emptyCircle
  holds N children

end CandyCircle.Vocabulary
