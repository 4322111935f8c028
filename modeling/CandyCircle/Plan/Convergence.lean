/-
**Convergence.**

Unless all children hold the same, the pair of loop variants decreases lexicographically in a step.
By well-founded induction over that pair the process eventually converges from any step on, and so
it converges; at a converged step all children hold the same.

Main definitions:

* `CandyCircle.Plan.lexDecrease`, `CandyCircle.Plan.eventualConvergence`,
  `CandyCircle.Plan.neverConverged`, `CandyCircle.Plan.convergence`,
  `CandyCircle.Plan.uniformAtConvergence` — the claims;
* `CandyCircle.Plan.proveLexDecrease`, `CandyCircle.Plan.proveEventualConvergence`,
  `CandyCircle.Plan.proveConvergence`, `CandyCircle.Plan.proveUniformAtConvergence` — the proofs.
-/
import CandyCircle.Plan.Step

set_option autoImplicit false

namespace CandyCircle.Plan

open Logic Proof Vocabulary

/-! ### The variants decrease -/

/-- If some child is above the least count of a step, the pair of variants is smaller one step
later. -/
def lexDecrease : Fact :=
  let k := Term.int "k"
  let k2 := Term.int "k2"
  let j := Term.int "j"
  .about "lex-decrease" ["k", "k2", "j"]
    (.all [isNat k, isSuccessor k2 k, isChild j, .order .gt (m j k) (min2 k)])
    (Pair.lt (variant k2) (variant k)) (some (.ofInts (m j k) [maxChild k2]))

/-- The distance of the extremes does not grow, and if the least count stays, fewer children hold
it. -/
def proveLexDecrease : ProofM Fact := do
  let maxFalls ← fact "max-nonincreasing"
  let minRises ← fact "min-nondecreasing"
  let fewer ← fact "histogram-decrease"
  prove lexDecrease plainRule
    (fun ws => do
      let k0 := witness ws 0
      let k1 := witness ws 1
      instances [(maxFalls, [k0, k1]), (minRises, [k0, k1]), (fewer, [k0, k1, witness ws 2])])
    true
  return lexDecrease

/-! ### Well-founded induction -/

/-- From any step with the pair `p` of variants the process eventually converges. -/
def eventualConvergence (p : Pair) : Fact :=
  let k := Term.int "k"
  let v := variant k
  .about "eventual-convergence" ["k"] (.all [isNat k, .equate v.1 p.1, .equate v.2 p.2])
    eventuallyConverged (some (.ofInts (minChild k) []))

/-- The process is never converged: what the negation of eventual convergence says. -/
def neverConverged : Fact :=
  let k := Term.int "k"
  .about "never-converged" ["k"] (isNat k) (.not (converged k)) (some (.ofInts (minChild k) []))

/-- If the process is not converged, some child is above the least count, so the next step has a
smaller pair. -/
def proveEventualConvergence : ProofM Fact := do
  let maxExists ← fact "max-child-exists"
  let minExists ← fact "min-child-exists"
  let dominated ← fact "min-dominated"
  let decreases ← fact "lex-decrease"
  let bounded ← fact "variant-bounded"
  Induction.wellFounded "eventual-convergence" (fun p => pure (eventualConvergence p))
    (fun _ hypothesis ws => do
      let k0 := witness ws 0
      let next ← declare "k_next" .int
      let k1 : IntTerm := .int next.name
      assume (isSuccessor k1 k0) "k_next = k + 1"
      let top := maxChild k0
      let u := variant k1
      instances
        [(neverConverged, [k0]), (maxExists, [k0]), (minExists, [k0]), (dominated, [k0, top]),
          (decreases, [k0, k1, top]), (bounded, [k1]), (hypothesis, [u.1, u.2, k1])])
    (some fun ws => instances [(neverConverged, [witness ws 0])])

/-! ### The theorem -/

/-- The process converges. -/
def convergence : Fact :=
  .plain "convergence" eventuallyConverged

/-- Convergence is eventual convergence from the first step on. -/
def proveConvergence : ProofM Fact := do
  let bounded ← fact "variant-bounded"
  let eventual ← fact "eventual-convergence"
  let v := variant (.num 0)
  prove convergence "well-founded-instance"
    (fun _ => instances [(bounded, [.num 0]), (eventual, [v.1, v.2, .num 0])]) true
  return convergence

/-! ### A corollary -/

/-- At a converged step every child holds the same. -/
def uniformAtConvergence : Fact :=
  let k := Term.int "k"
  let i := Term.int "i"
  .about "uniform-at-convergence" ["k", "i"] (.all [isNat k, isChild i, converged k])
    (.eq .int (m i k) (min2 k)) (some (.ofInts (m i k) []))

/-- Every count lies between the extremes. -/
def proveUniformAtConvergence : ProofM Fact := do
  let dominates ← fact "max-dominates"
  let dominated ← fact "min-dominated"
  prove uniformAtConvergence plainRule
    (fun ws => do
      let k0 := witness ws 0
      let i0 := witness ws 1
      instances [(dominates, [k0, i0]), (dominated, [k0, i0])])
    true
  return uniformAtConvergence

end CandyCircle.Plan
