/-
**The invariant, and how extremes move.**

At every step every child holds an even number that is not negative.  From this follows how counts
move in one step: the greatest count does not rise, the least does not fall, a child above the least
count stays above it, and a child that is poorer than its right neighbour gains.

Main definitions:

* `CandyCircle.Plan.stateInvariant`, `CandyCircle.Plan.maxNonincreasing`,
  `CandyCircle.Plan.minNondecreasing`, `CandyCircle.Plan.aboveMinStaysAbove`,
  `CandyCircle.Plan.gainsFromRicherNeighbor`, `CandyCircle.Plan.variantBounded` — the claims;
* the same names with `prove` in front — their proofs.
-/
import CandyCircle.Plan.Step

set_option autoImplicit false

namespace CandyCircle.Plan

open Logic Proof Vocabulary

/-! ### The invariant -/

/-- At step `k` every child holds an even number that is not negative. -/
def stateInvariant (k : IntTerm) : Fact :=
  let i := Term.int "i"
  .about "state-invariant" ["i"] (isChild i) (stateOk i k) (some (.ofInts (m i k) []))

/-- The invariant holds at the start, and the dynamics of a step keep it. -/
def proveStateInvariant (v : Vocabulary) : ProofM Fact := do
  let initial ← fact "initial-state"
  let rightOf ← fact "right-neighbor"
  Induction.twoStep "state-invariant" (fun k => pure (stateInvariant k.toInt)) (.int (.num 0))
    (fun ws => instances [(initial, [witness ws 0])])
    (fun step hypothesis ws => do
      let t ← require (v.transition step)
      assumeFact t
      let i := witness ws 0
      instances [(t, [i]), (rightOf, [i]), (hypothesis, [i]), (hypothesis, [right i])])
    none

/-! ### Extremes -/

/-- The greatest count does not rise. -/
def maxNonincreasing : Fact :=
  let k := Term.int "k"
  let k2 := Term.int "k2"
  .about "max-nonincreasing" ["k", "k2"] (.all [isNat k, isSuccessor k2 k])
    (.order .le (max2 k2) (max2 k)) (some (.ofInts (maxChild k) [maxChild k2]))

/-- The new greatest count is a half of two counts, both at most the old one, which is even. -/
def proveMaxNonincreasing (v : Vocabulary) : ProofM Fact := do
  let rightOf ← fact "right-neighbor"
  let invariant ← fact "state-invariant"
  let maxExists ← fact "max-child-exists"
  let dominates ← fact "max-dominates"
  proving maxNonincreasing plainRule true fun g => do
    let k0 := g.witness 0
    let k1 := g.witness 1
    let t ← assumeTransition v g
    let j := maxChild k1
    let hints ← instances
      [(maxExists, [k0]), (maxExists, [k1]), (t, [j]), (rightOf, [j]), (dominates, [k0, j]),
        (dominates, [k0, right j]), (invariant, [k0, maxChild k0])]
    let _ ← discharge g hints
  return maxNonincreasing

/-- The least count does not fall. -/
def minNondecreasing : Fact :=
  let k := Term.int "k"
  let k2 := Term.int "k2"
  .about "min-nondecreasing" ["k", "k2"] (.all [isNat k, isSuccessor k2 k])
    (.order .le (min2 k) (min2 k2)) (some (.ofInts (minChild k) [minChild k2]))

/-- The new least count is a half of two counts, both at least the old one. -/
def proveMinNondecreasing (v : Vocabulary) : ProofM Fact := do
  let rightOf ← fact "right-neighbor"
  let minExists ← fact "min-child-exists"
  let dominated ← fact "min-dominated"
  proving minNondecreasing plainRule true fun g => do
    let k0 := g.witness 0
    let k1 := g.witness 1
    let t ← assumeTransition v g
    let j := minChild k1
    let hints ← instances
      [(minExists, [k0]), (minExists, [k1]), (t, [j]), (rightOf, [j]), (dominated, [k0, j]),
        (dominated, [k0, right j])]
    let _ ← discharge g hints
  return minNondecreasing

/-! ### Single children -/

/-- A child above the least count is above it one step later too. -/
def aboveMinStaysAbove : Fact :=
  let k := Term.int "k"
  let k2 := Term.int "k2"
  let i := Term.int "i"
  .about "above-min-stays-above" ["k", "k2", "i"]
    (.all [isNat k, isSuccessor k2 k, isChild i, .order .gt (m i k) (min2 k)])
    (.order .gt (m i k2) (min2 k)) (some (.ofInts (m i k2) [minChild k]))

/-- Counts are even, so a child above the least count is above it by two. -/
def proveAboveMinStaysAbove (v : Vocabulary) : ProofM Fact := do
  let rightOf ← fact "right-neighbor"
  let invariant ← fact "state-invariant"
  let minExists ← fact "min-child-exists"
  let dominated ← fact "min-dominated"
  proving aboveMinStaysAbove plainRule true fun g => do
    let k0 := g.witness 0
    let i0 := g.witness 2
    let t ← assumeTransition v g
    let r := right i0
    let hints ← instances
      [(t, [i0]), (rightOf, [i0]), (minExists, [k0]), (dominated, [k0, r]), (invariant, [k0, i0]),
        (invariant, [k0, minChild k0])]
    let _ ← discharge g hints
  return aboveMinStaysAbove

/-- A child that is poorer than its right neighbour gains. -/
def gainsFromRicherNeighbor : Fact :=
  let k := Term.int "k"
  let k2 := Term.int "k2"
  let i := Term.int "i"
  .about "gains-from-richer-neighbor" ["k", "k2", "i"]
    (.all [isNat k, isSuccessor k2 k, isChild i, .order .lt (m i k) (m (right i) k)])
    (.order .lt (m i k) (m i k2)) (some (.ofInts (m i k2) [m i k]))

/-- Counts are even, so the neighbour has at least two more. -/
def proveGainsFromRicherNeighbor (v : Vocabulary) : ProofM Fact := do
  let rightOf ← fact "right-neighbor"
  let invariant ← fact "state-invariant"
  proving gainsFromRicherNeighbor plainRule true fun g => do
    let k0 := g.witness 0
    let i0 := g.witness 2
    let t ← assumeTransition v g
    let hints ← instances
      [(t, [i0]), (rightOf, [i0]), (invariant, [k0, i0]), (invariant, [k0, right i0])]
    let _ ← discharge g hints
  return gainsFromRicherNeighbor

/-! ### The variants -/

/-- Both loop variants are natural numbers. -/
def variantBounded : Fact :=
  let k := Term.int "k"
  let v := variant k
  .about "variant-bounded" ["k"] (isNat k) (.all [.atLeast v.1 0, .atLeast v.2 0])
    (some (.ofInts (minChild k) []))

/-- The greatest count is at least the least one, and a number of children is not negative. -/
def proveVariantBounded : ProofM Fact := do
  let minExists ← fact "min-child-exists"
  let maxExists ← fact "max-child-exists"
  let dominates ← fact "max-dominates"
  let nonneg ← fact "histogram-nonneg"
  prove variantBounded plainRule
    (fun ws => do
      let k0 := witness ws 0
      instances
        [(minExists, [k0]), (maxExists, [k0]), (dominates, [k0, minChild k0]),
          (nonneg, [k0, min2 k0])])
    true
  return variantBounded

end CandyCircle.Plan
