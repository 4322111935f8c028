/-
**The vocabulary by name.**

The notions of the vocabulary, looked up by name and applied to terms of either sort.  A formula in
place of an integer stands for one or zero, except where a number is held against it: a formula is
neither at least nor at most a number.

Main definitions:

* `CandyCircle.Vocabulary.isNatOf`, `CandyCircle.Vocabulary.isChildOf` — numbers that are not
  negative, and children, among terms of either sort;
* `CandyCircle.Vocabulary.notions`, `CandyCircle.Vocabulary.signatureOf?` — the notions, and what
  they take;
* `CandyCircle.Vocabulary.applied` — a notion applied to terms.
-/
import CandyCircle.Failure
import CandyCircle.Vocabulary

set_option autoImplicit false

namespace CandyCircle.Vocabulary

open Logic

/-- The name of the kind of whole numbers, as complaints use it. -/
def wholeKind : String := Data.kindName (.int 0)

/-- The term is not negative, unless it is a formula. -/
def isNatOf (t : AnyTerm) : Except Failure Formula :=
  match t.int? with
  | some k => .ok (isNat k)
  | none => .error (.kind (.incomparable ">=" t.formulaKind wholeKind))

/-- The term is a child, unless it is a formula. -/
def isChildOf (t : AnyTerm) : Except Failure Formula :=
  match t.int? with
  | some i => .ok (isChild i)
  | none => .error (.kind (.incomparable "<=" wholeKind t.formulaKind))

/-- No child enters the value of a term between two steps, unless the terms make no pattern. -/
def noEntryOf (n k k2 : AnyTerm) : Except Failure Formula :=
  (noEntryFact n.toInt k.toInt k2.toInt "no-entry").formula?.mapError .fact

/-- The notions that can be looked up, with the names of their parameters. -/
def notions : List (String × List String) :=
  [("is_child", ["i"]), ("is_nat", ["k"]), ("right", ["i"]), ("max_child", ["k"]),
    ("min_child", ["k"]), ("max2", ["k"]), ("min2", ["k"]), ("num", ["n", "k"]),
    ("state_ok", ["i", "k"]), ("converged", ["k"]), ("no_entry", ["n", "k", "k2"])]

/-- What a notion takes. -/
def signatureOf? (notion : String) : Option Signature :=
  (notions.lookup notion).map fun parameters =>
    { name := "CandyModel." ++ notion, subject := some "self", required := parameters }

/-- A notion applied to terms, if it takes so many. -/
def applied (notion : String) (terms : List AnyTerm) : Except Failure (Option AnyTerm) :=
  let formula (r : Except Failure Formula) := r.map fun f => some ⟨.bool, f⟩
  let int (t : IntTerm) := Except.ok (some (AnyTerm.int t))
  match notion, terms with
  | "is_child", [i] => formula (isChildOf i)
  | "is_nat", [k] => formula (isNatOf k)
  | "right", [i] => int (right i.toInt)
  | "max_child", [k] => int (maxChild k.toInt)
  | "min_child", [k] => int (minChild k.toInt)
  | "max2", [k] => int (max2 k.toInt)
  | "min2", [k] => int (min2 k.toInt)
  | "num", [n, k] => int (num n.toInt k.toInt)
  | "state_ok", [i, k] => formula (.ok (stateOk i.toInt k.toInt))
  | "converged", [k] => formula (.ok (converged k.toInt))
  | "no_entry", [n, k, k2] => formula (noEntryOf n k k2)
  | _, _ => .ok none

end CandyCircle.Vocabulary
