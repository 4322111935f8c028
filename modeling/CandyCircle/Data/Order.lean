/-
**Comparing data.**

Numbers of all kinds are compared by value: a whole number and a double are the same if they denote
the same number, and truth values are one and zero.  Texts are compared by their code points and
lists item by item, the first difference deciding.  Data of other kinds, and data of different
kinds, may be told apart but has no order.

Main definitions:

* `CandyCircle.Quantity`, `CandyCircle.Quantity.compare` — numbers of all kinds, and their order;
* `CandyCircle.Data.same` — whether data is the same;
* `CandyCircle.Data.relate` — whether one stands in an order relation to another;
* `CandyCircle.Data.extreme` — the least or the greatest of several.

Main results:

* `CandyCircle.Data.relate_int` — whole numbers are related as numbers.
-/
import CandyCircle.Data.Kind

set_option autoImplicit false

namespace CandyCircle

/-! ### Numbers -/

/-- A number of any kind. -/
inductive Quantity where
  /-- The number `mantissa * 2 ^ exponent`. -/
  | dyadic (mantissa exponent : Int)
  /-- Beyond all numbers, or before all of them. -/
  | infinite (negative : Bool)
  /-- Not a number. -/
  | nan

namespace Quantity

/-- The number that a double denotes. -/
def ofFloat (x : Float) : Quantity :=
  match Decimal.Parts.ofFloat x with
  | .nan => nan
  | .infinite negative => infinite negative
  | .finite negative size =>
      dyadic (if negative then -size.mantissa else size.mantissa) size.exponent

/-- A number as a multiple of a power of two that is at most its own. -/
def scaled (mantissa exponent unit : Int) : Int :=
  mantissa * Int.ofNat (Nat.pow 2 (exponent - unit).toNat)

/-- How two numbers compare; what is not a number compares with nothing. -/
def compare : Quantity → Quantity → Option Ordering
  | dyadic m e, dyadic n f =>
      some (Ord.compare (scaled m e (min e f)) (scaled n f (min e f)))
  | infinite a, infinite b => some (Ord.compare b a)
  | infinite a, dyadic _ _ => some (if a then .lt else .gt)
  | dyadic _ _, infinite b => some (if b then .gt else .lt)
  | _, _ => none

/-- Whole numbers compare as integers. -/
theorem compare_whole (a b : Int) : compare (dyadic a 0) (dyadic b 0) = some (Ord.compare a b) := by
  have h (n : Int) : scaled n 0 (min 0 0) = n := by simp [scaled]
  simp only [compare, h]

end Quantity

namespace Data

/-- The number that data is; truth values are one and zero. -/
def quantity? : Data → Option Quantity
  | bool b => some (.dyadic b.toInt 0)
  | int n => some (.dyadic n 0)
  | float x => some (.ofFloat x)
  | _ => none

/-! ### Sameness -/

mutual

/-- Whether data is the same; the order of the fields of an object does not matter. -/
def same : Data → Data → Bool
  | null, null => true
  | str a, str b => a == b
  | list as, list bs => sameItems as bs
  | object fs, object gs => fs.length == gs.length && sameFields fs gs
  | a, b =>
      match a.quantity?, b.quantity? with
      | some x, some y => x.compare y == some .eq
      | _, _ => false

/-- Whether the items of two lists are the same. -/
def sameItems : List Data → List Data → Bool
  | [], [] => true
  | a :: as, b :: bs => same a b && sameItems as bs
  | _, _ => false

/-- Whether every field of one object is a field of another. -/
def sameFields : List (List CodePoint × Data) → List (List CodePoint × Data) → Bool
  | [], _ => true
  | (key, a) :: fs, gs =>
      (match gs.lookup key with
        | some b => same a b
        | none => false) && sameFields fs gs

end

/-! ### Order -/

/-- An order relation between data. -/
inductive Relation where
  /-- Less. -/
  | below
  /-- At most. -/
  | atMost
  /-- Greater. -/
  | above
  deriving DecidableEq, Repr

/-- The sign of a relation. -/
def Relation.sign : Relation → String
  | below => "<"
  | atMost => "<="
  | above => ">"

/-- Whether a relation holds of what compares so. -/
def Relation.holds (r : Relation) : Option Ordering → Bool
  | some .lt => r != .above
  | some .eq => r == .atMost
  | some .gt => r == .above
  | none => false

mutual

/-- Whether one stands in a relation to another. -/
def relate (r : Relation) : Data → Data → Except KindFault Bool
  | str a, str b =>
      .ok (r.holds (some (Ord.compare (a.map CodePoint.value) (b.map CodePoint.value))))
  | list as, list bs => relateItems r as bs
  | a, b =>
      match a.quantity?, b.quantity? with
      | some x, some y => .ok (r.holds (x.compare y))
      | _, _ => .error (.incomparable r.sign a.kindName b.kindName)

/-- Whether lists stand in a relation: the first items that differ decide. -/
def relateItems (r : Relation) : List Data → List Data → Except KindFault Bool
  | [], [] => .ok (r.holds (some .eq))
  | [], _ :: _ => .ok (r.holds (some .lt))
  | _ :: _, [] => .ok (r.holds (some .gt))
  | a :: as, b :: bs => if same a b then relateItems r as bs else relate r a b

end

/-- Whole numbers are related as numbers. -/
theorem relate_int (r : Relation) (a b : Int) :
    relate r (int a) (int b) = .ok (r.holds (some (Ord.compare a b))) := by
  simp [relate, quantity?, Quantity.compare_whole]

/-- The one of several that stands in a relation to all before it, the first of equals. -/
def extreme (r : Relation) (start : Data) (items : List Data) : Except KindFault Data :=
  items.foldlM (fun best d => return if ← relate r d best then d else best) start

end Data

end CandyCircle
