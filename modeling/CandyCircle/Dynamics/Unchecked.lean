/-
**Counts that nobody checked.**

What a child holds after a step can be asked of all numbers.  Whether counts are uniform, how often
each occurs, and the clause about counts that some child leaves can be asked of anything that has
items.  If all items are whole numbers the answer is that of the process.  The number of steps that
a run may take can be data of any kind, too.

Main definitions:

* `CandyCircle.Dynamics.Unchecked.nextValue` — what a child holds after a step;
* `CandyCircle.Dynamics.Unchecked.isUniform`, `CandyCircle.Dynamics.Unchecked.histogram`,
  `CandyCircle.Dynamics.Unchecked.leavesClause` — questions about counts of any kind;
* `CandyCircle.Dynamics.runWithin`, `CandyCircle.Dynamics.convergenceStepWithin` — the process
  within a limit of any kind.

Main results:

* `CandyCircle.Dynamics.Unchecked.nextValue_int` — what a child holds after a step, of whole
  numbers;
* `CandyCircle.Dynamics.Unchecked.whole?_map_int` — whole numbers are recognised.
-/
import CandyCircle.Data.Number
import CandyCircle.Data.Tally
import CandyCircle.Failure

set_option autoImplicit false

namespace CandyCircle.Dynamics

namespace Unchecked

/-- The whole numbers that items are, if all of them are. -/
def whole? (items : List Data) : Option (List Int) :=
  items.mapM fun
    | .int n => some n
    | _ => none

/-- Whole numbers are recognised. -/
theorem whole?_map_int (counts : List Int) : whole? (counts.map Data.int) = some counts := by
  induction counts with
  | nil => rfl
  | cons c rest ih => simp_all [whole?]

/-- A fault of kind as a failure. -/
def lift {α : Type} (r : Except KindFault α) : Except Failure α :=
  r.mapError .kind

/-- What is of a fitting kind is lifted as it is. -/
theorem lift_ok {α : Type} (a : α) : lift (.ok a) = .ok a := rfl

/-- What a child holds after a step, from its own candies and its right neighbour's. -/
def nextValue (own neighbour : Data) : Except Failure Data := do
  let half ← lift ((← lift (own.plus neighbour)).half)
  if half.isEven then return half.toData
  return (← lift (half.add (.whole 1))).toData

/-- What a child holds after a step, of whole numbers. -/
theorem nextValue_int (own neighbour : Int) :
    nextValue (.int own) (.int neighbour) = .ok (.int (Dynamics.nextValue own neighbour)) := by
  simp only [nextValue, lift_ok, Data.plus_int, Data.half, Number.ofData?, bind, Except.bind,
    Number.halfDown, Number.isEven, Number.add, Number.toData, pure, Except.pure,
    Dynamics.nextValue, Dynamics.topUp]
  by_cases h : (own + neighbour) / 2 % 2 = 0 <;> simp [h]

/-- Whether the least and the greatest of counts are the same. -/
def isUniform (counts : Data) : Except Failure Bool := do
  match ← lift counts.itemsOrFault with
  | [] => throw (.emptyRange .least)
  | first :: others =>
      match whole? (first :: others) with
      | some ns => return Dynamics.isUniform ns
      | none =>
          let least ← lift (Data.extreme .below first others)
          let greatest ← lift (Data.extreme .above first others)
          return least.same greatest

/-- How often each count occurs, in ascending order. -/
def histogram (counts : Data) : Except Failure Tally :=
  match counts with
  | .list items =>
      match whole? items with
      | some ns => .ok ((Dynamics.histogram ns).map fun p => (.int p.1, .nat p.2))
      | none => lift (Tally.ofData counts >>= Tally.sorted)
  | d => lift (Tally.ofData d >>= Tally.sorted)

/-- The clause about counts that some child leaves and none enters, by sameness and tallies. -/
def leavesByTally (before after value : Data) : Except KindFault Bool := do
  let pairs := (← before.itemsOrFault).zip (← after.itemsOrFault)
  let leaves := pairs.any fun p => p.1.same value && !p.2.same value
  let enters := pairs.any fun p => !p.1.same value && p.2.same value
  if !leaves || enters then return true
  let held ← (← Tally.ofData after).count value
  let holding ← (← Tally.ofData before).count value
  Data.relate .below held holding

/-- If some child leaves a count and none enters it, fewer children hold it afterwards. -/
def leavesClause (before after value : Data) : Except Failure Bool :=
  match before.items?.bind whole?, after.items?.bind whole?, value with
  | some before, some after, .int n => .ok (Dynamics.leavesClause before after n)
  | _, _, _ => lift (leavesByTally before after value)

end Unchecked

/-! ### Limits of any kind -/

/-- The number of steps that a limit leaves to a run from given counts, if it is a limit at all.
Every run ends within half the product of the number of children and the greatest count, so that an
unbounded limit need not leave more. -/
def allowance? (limit : Data) (counts : List Int) : Option Nat :=
  let enough := counts.length * (counts.max?.getD 0).toNat
  limit.quantity?.map fun
    | .dyadic m e => if 0 ≤ e then min enough (m.toNat * Nat.pow 2 e.toNat)
        else m.toNat / Nat.pow 2 (-e).toNat
    | .infinite true => 0
    | _ => enough

/-- The states from the start to the first uniform one, within a limit of any kind.  Only counts
that are not uniform yet are held against the limit. -/
def runWithin (items : List Data) (limit : Data) : Except Failure (List (List Int)) :=
  let counted := fun fault => Failure.counts fault items
  match limit with
  | .int n => (run items n).mapError counted
  | limit => do
      let counts ← (validate items).mapError counted
      if Dynamics.isUniform counts then return [counts]
      match allowance? limit counts with
      | none =>
          throw (.kind (.incomparable Data.Relation.above.sign (Data.kindName (.int 0))
            limit.kindName))
      | some allowed =>
          match runFor allowed counts with
          | some states => return states
          | none => throw (counted (.noConvergence limit))

/-- The number of steps to the first uniform state, within a limit of any kind. -/
def convergenceStepWithin (items : List Data) (limit : Data) : Except Failure Nat :=
  (runWithin items limit).map fun states => states.length - 1

end CandyCircle.Dynamics
