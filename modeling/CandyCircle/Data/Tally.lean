/-
**Tallies.**

How often each item occurs among others.  What is the same is counted together, under the item that
came first.  A table is its own tally, and nothing has an empty one.

Main definitions:

* `CandyCircle.Tally`, `CandyCircle.Tally.ofData` — tallies, and the tally of data;
* `CandyCircle.Tally.count` — what a tally says of an item;
* `CandyCircle.Tally.sorted` — a tally in ascending order of its items.
-/
import CandyCircle.Data.Order

set_option autoImplicit false

namespace CandyCircle

/-- Items, each with how often it occurs. -/
abbrev Tally := List (Data × Data)

namespace Tally

/-- Refuses what cannot be an item of a tally: lists and objects. -/
def checkItem : Data → Except KindFault Unit
  | .list items => .error (.notIndexed (.list items))
  | .object fields => .error (.notIndexed (.object fields))
  | _ => .ok ()

/-- Counts with an item counted once more. -/
def enter : List (Data × Nat) → Data → List (Data × Nat)
  | [], d => [(d, 1)]
  | (item, n) :: rest, d => if item.same d then (item, n + 1) :: rest else (item, n) :: enter rest d

/-- The tally of data. -/
def ofData : Data → Except KindFault Tally
  | .null => .ok []
  | .object fields => .ok (fields.map fun f => (.str f.1, f.2))
  | d => do
      let items ← d.itemsOrFault
      items.forM checkItem
      return (items.foldl enter []).map fun p => (p.1, .nat p.2)

/-- What a tally says of an item. -/
def count (t : Tally) (d : Data) : Except KindFault Data := do
  checkItem d
  return ((t.find? fun p => p.1.same d).map Prod.snd).getD (.nat 0)

/-! ### Sorting -/

/-- The items that continue a run, and the rest: in a falling run each item comes before the last
one, in a rising run none does. -/
def runFrom (falling : Bool) (last : Data × Data) : Tally → Except KindFault (Tally × Tally)
  | [] => .ok ([], [])
  | item :: rest => do
      if (← Data.relate .below item.1 last.1) == falling then
        let (run, others) ← runFrom falling item rest
        return (item :: run, others)
      else return ([], item :: rest)

/-- The run at the front of a tally, in ascending order, and the rest. -/
def firstRun : Tally → Except KindFault (Tally × Tally)
  | first :: second :: rest => do
      let falling ← Data.relate .below second.1 first.1
      let (run, others) ← runFrom falling second rest
      let run := first :: second :: run
      return (if falling then run.reverse else run, others)
  | short => .ok (short, [])

/-- The place of an item between two places of a sorted tally, found by halving. -/
def placeOf (sorted : Tally) (item : Data × Data) (low high : Nat) : Except KindFault Nat :=
  if _ : low < high then
    let middle := low + (high - low) / 2
    match sorted[middle]? with
    | none => .ok low
    | some p => do
        if ← Data.relate .below item.1 p.1 then placeOf sorted item low middle
        else placeOf sorted item (middle + 1) high
  else .ok low
termination_by high - low

/-- A sorted tally with one item more. -/
def insert (sorted : Tally) (item : Data × Data) : Except KindFault Tally := do
  let place ← placeOf sorted item 0 sorted.length
  return sorted.take place ++ item :: sorted.drop place

/-- A tally in ascending order of its items: the run at its front is kept or reversed, and the rest
is put in item by item.  Which items are compared shows when two of them have no order. -/
def sorted (t : Tally) : Except KindFault Tally := do
  let (run, others) ← firstRun t
  others.foldlM insert run

end Tally

end CandyCircle
