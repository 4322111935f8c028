/-
**Fewer children hold the least count.**

Unless all children hold the least count, fewer children hold it one step later.  Some child `b`
with the least count sits left of a richer one: otherwise the least count would spread around the
whole circle, from the child that holds it up to the last one and then, from the first child on,
over all of them.  `b` gains and so leaves the least count, while no child enters it, since whoever
is above it stays above it.

Main definitions:

* `CandyCircle.Plan.histogramDecrease` — the claim;
* `CandyCircle.Plan.boundary`, `CandyCircle.Plan.noBoundary`, `CandyCircle.Plan.holdsMin` — that
  there is such a child, that there is none, and that a child holds the least count;
* `CandyCircle.Plan.proveBoundary`, `CandyCircle.Plan.proveHistogramDecrease` — the proofs.
-/
import CandyCircle.Plan.Step

set_option autoImplicit false

namespace CandyCircle.Plan

open Logic Proof Vocabulary

/-- If some child is above the least count of a step, fewer children hold that count one step
later. -/
def histogramDecrease : Fact :=
  let k := Term.int "k"
  let k2 := Term.int "k2"
  let j := Term.int "j"
  .about "histogram-decrease" ["k", "k2", "j"]
    (.all [isNat k, isSuccessor k2 k, isChild j, .order .gt (m j k) (min2 k)])
    (.order .lt (num (min2 k) k2) (num (min2 k) k))
    (some (.ofInts (m j k) [num (min2 k) k2]))

/-! ### A child left of a richer one -/

/-- A child `b` holds the least count of step `k`, and its right neighbour holds more. -/
def isBoundary (k b : IntTerm) : Formula :=
  .all [isChild b, .eq .int (m b k) (min2 k), .order .gt (m (right b) k) (min2 k)]

/-- Some child holds the least count of step `k`, and its right neighbour holds more. -/
def boundary (k : IntTerm) : Fact :=
  .plain "histogram-decrease/boundary"
    (.thereIs [.int "b"] (isBoundary k (.int "b")) [])

/-- The right neighbour of every child with the least count of step `k` holds no more. -/
def noBoundary (k : IntTerm) : Fact :=
  let i := Term.int "i"
  .about "histogram-decrease/no-boundary" ["i"]
    (.all [isChild i, .eq .int (m i k) (min2 k)]) (.order .le (m (right i) k) (min2 k))
    (some (.ofInts (m (right i) k) []))

/-- If `x` is at most the number of children, child `x` holds the least count of step `k`. -/
def holdsMin (name : String) (k x : IntTerm) : Fact :=
  { name
    vars := []
    guard := .order .le x N
    body := .eq .int (m x k) (min2 k)
    trigger := some (.ofInts (m x k) [])
    step := none }

/-- If there were no such child, all children would hold the least count, against the child `j`
above it. -/
def proveBoundary (k j : IntTerm) (rightOf minExists dominated : Fact) : ProofM Unit :=
  proving (boundary k) "contradiction" true fun g => do
    let none_ := noBoundary k
    assumeFact none_
    let propagate : Induction.StepHintsT Id := fun step _ _ =>
      let x := step.k.toInt
      instances [(minExists, [k]), (none_, [x]), (rightOf, [x]), (dominated, [k, right x])]
    let sweep ← Induction.twoStep "histogram-decrease/sweep"
      (fun x => pure (holdsMin "histogram-decrease/sweep" k x.toInt)) (.int (minChild k)) noHints
      propagate none
    let wrap ← Induction.twoStep "histogram-decrease/wrap"
      (fun x => pure (holdsMin "histogram-decrease/wrap" k x.toInt)) (.int (.num 1))
      (fun _ => instances
        [(minExists, [k]), (sweep, [N]), (none_, [N]), (rightOf, [N]), (dominated, [k, right N])])
      propagate none
    let _ ← discharge g (← instances [(wrap, [j])])

/-! ### The claim -/

/-- A child left of a richer one leaves the least count, and no child enters it. -/
def proveHistogramDecrease : ProofM Fact := do
  let rightOf ← fact "right-neighbor"
  let minExists ← fact "min-child-exists"
  let dominated ← fact "min-dominated"
  let above ← fact "above-min-stays-above"
  let gains ← fact "gains-from-richer-neighbor"
  let leaves ← fact "histogram-leaves"
  proving histogramDecrease plainRule true fun g => do
    let k0 := g.witness 0
    let k1 := g.witness 1
    let j0 := g.witness 2
    let low := min2 k0
    proveBoundary k0 j0 rightOf minExists dominated
    let b ← declare "b" .int
    let w : IntTerm := .int b.name
    assume (isBoundary k0 w) "boundary witness"
    prove (noEntryFact low k0 k1 "histogram-decrease/no-entry") plainRule
      (fun ws => do
        let j1 := witness ws 0
        instances [(dominated, [k0, j1]), (above, [k0, k1, j1])])
      true
    let _ ← discharge g (← instances [(gains, [k0, k1, w]), (leaves, [k0, k1, low, w])])
  return histogramDecrease

end CandyCircle.Plan
