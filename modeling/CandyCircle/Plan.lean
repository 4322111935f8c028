/-
**The proof plan of the convergence theorem.**

The plan establishes its facts one after another: the invariant, how extremes and single children
move, that fewer children hold the least count, that the pair of variants decreases, and from that
the theorem with its corollary.  Every step says which facts it requires besides the axioms.

Main definitions:

* `CandyCircle.Plan.lemmas` — the steps in order;
* `CandyCircle.Plan.withoutCorollaries` — a plan that ends with the theorem;
* `CandyCircle.Plan.theoremName` — the name of the theorem.
-/
import CandyCircle.Plan.Convergence
import CandyCircle.Plan.Histogram
import CandyCircle.Plan.Monotonicity

set_option autoImplicit false

namespace CandyCircle.Plan

/-- The steps of the plan. -/
def lemmas : List LemmaStep :=
  [ { name := "state-invariant", stage := "invariant", requires := []
      prove := proveStateInvariant },
    { name := "max-nonincreasing", stage := "monotonicity", requires := ["state-invariant"]
      prove := proveMaxNonincreasing },
    { name := "min-nondecreasing", stage := "monotonicity", requires := []
      prove := proveMinNondecreasing },
    { name := "above-min-stays-above", stage := "monotonicity", requires := ["state-invariant"]
      prove := proveAboveMinStaysAbove },
    { name := "gains-from-richer-neighbor", stage := "monotonicity"
      requires := ["state-invariant"], prove := proveGainsFromRicherNeighbor },
    { name := "variant-bounded", stage := "monotonicity", requires := []
      prove := fun _ => proveVariantBounded },
    { name := "histogram-decrease", stage := "histogram"
      requires := ["above-min-stays-above", "gains-from-richer-neighbor"]
      prove := fun _ => proveHistogramDecrease },
    { name := "lex-decrease", stage := "lexicographic"
      requires := ["max-nonincreasing", "min-nondecreasing", "histogram-decrease"]
      prove := fun _ => proveLexDecrease },
    { name := "eventual-convergence", stage := "well-founded"
      requires := ["variant-bounded", "lex-decrease"]
      prove := fun _ => proveEventualConvergence },
    { name := "convergence", stage := "conclusion"
      requires := ["variant-bounded", "eventual-convergence"]
      prove := fun _ => proveConvergence },
    { name := "uniform-at-convergence", stage := "corollary", requires := []
      prove := fun _ => proveUniformAtConvergence, corollary := true } ]

/-- A plan without the steps that come after the theorem. -/
def withoutCorollaries (steps : List LemmaStep) : List LemmaStep :=
  steps.filter fun s => !s.corollary

/-- The name of the theorem. -/
def theoremName : String := "convergence"

end CandyCircle.Plan
