/-
**What the claims of the plan say of courses.**

Every claim of the plan reads as a statement about the course that an interpretation describes.  A
claim that is made about a term says the same of its value, unless the term mentions a variable of
the claim.

Main definitions:

* `CandyCircle.Plan.stateInvariantFact`, `CandyCircle.Plan.eventualConvergenceFact` — what the two
  inductions of the plan conclude;
* `CandyCircle.Plan.conclusions` — the facts that the plan establishes, in order.

Main results:

* `CandyCircle.Plan.satisfies_maxNonincreasing` and the other lemmas of this form — what the claims
  say.
-/
import CandyCircle.Plan
import CandyCircle.Proofs.Vocabulary

set_option autoImplicit false

namespace CandyCircle

open Logic Vocabulary

namespace Plan

variable {I : Interpretation} {ρ : Valuation}

/-! ### The invariant, and how extremes move -/

/-- The invariant as two-step induction concludes it. -/
def stateInvariantFact : Fact :=
  Induction.twoStepConclusion "state-invariant" (.int (.num 0)) (stateInvariant (.int "x")) none

theorem satisfies_stateInvariant {k : IntTerm}
    (hk : ∀ i : Int, k.meaning (I.set (.int "i") i) ρ = k.meaning I ρ) :
    Satisfies I ρ (stateInvariant k).formula ↔ (Course.of I).EvenAt (k.meaning I ρ) := by
  simp [stateInvariant, Fact.about, Fact.satisfies_formula, Course.EvenAt, hk]

theorem satisfies_stateInvariantFact :
    Satisfies I ρ stateInvariantFact.formula ↔ ∀ k, 0 ≤ k → (Course.of I).EvenAt k := by
  simp [stateInvariantFact, Induction.twoStepConclusion, stateInvariant, Fact.about,
    Fact.satisfies_formula, Course.EvenAt, AnyTerm.int, AnyTerm.toInt]
  exact ⟨fun h k hk i hi => h k i hk hi, fun h k i hk hi => h k hk i hi⟩

theorem satisfies_maxNonincreasing :
    Satisfies I ρ maxNonincreasing.formula ↔
      ∀ k k2, 0 ≤ k → k2 = k + 1 → (Course.of I).most k2 ≤ (Course.of I).most k := by
  simp [maxNonincreasing, Fact.about, Fact.satisfies_formula]

theorem satisfies_minNondecreasing :
    Satisfies I ρ minNondecreasing.formula ↔
      ∀ k k2, 0 ≤ k → k2 = k + 1 → (Course.of I).least k ≤ (Course.of I).least k2 := by
  simp [minNondecreasing, Fact.about, Fact.satisfies_formula]

theorem satisfies_aboveMinStaysAbove :
    Satisfies I ρ aboveMinStaysAbove.formula ↔
      ∀ k k2 i, 0 ≤ k → k2 = k + 1 → (Course.of I).IsChild i →
        (Course.of I).least k < (Course.of I).held i k →
          (Course.of I).least k < (Course.of I).held i k2 := by
  simp [aboveMinStaysAbove, Fact.about, Fact.satisfies_formula]

theorem satisfies_gainsFromRicherNeighbor :
    Satisfies I ρ gainsFromRicherNeighbor.formula ↔
      ∀ k k2 i, 0 ≤ k → k2 = k + 1 → (Course.of I).IsChild i →
        (Course.of I).held i k < (Course.of I).held ((Course.of I).right i) k →
          (Course.of I).held i k < (Course.of I).held i k2 := by
  simp [gainsFromRicherNeighbor, Fact.about, Fact.satisfies_formula]

theorem satisfies_variantBounded :
    Satisfies I ρ variantBounded.formula ↔
      ∀ k, 0 ≤ k →
        0 ≤ (Course.of I).gap k ∧ 0 ≤ (Course.of I).holders ((Course.of I).least k) k := by
  simp [variantBounded, variant, Fact.about, Fact.satisfies_formula, Course.gap]

/-! ### Fewer children hold the least count -/

theorem satisfies_histogramDecrease :
    Satisfies I ρ histogramDecrease.formula ↔
      ∀ k k2 j, 0 ≤ k → k2 = k + 1 → (Course.of I).IsChild j →
        (Course.of I).least k < (Course.of I).held j k →
          (Course.of I).holders ((Course.of I).least k) k2 <
            (Course.of I).holders ((Course.of I).least k) k := by
  simp [histogramDecrease, Fact.about, Fact.satisfies_formula]

theorem satisfies_noBoundary {k : IntTerm}
    (hk : ∀ i : Int, k.meaning (I.set (.int "i") i) ρ = k.meaning I ρ) :
    Satisfies I ρ (noBoundary k).formula ↔
      ∀ i, (Course.of I).IsChild i →
        (Course.of I).held i (k.meaning I ρ) = (Course.of I).least (k.meaning I ρ) →
          (Course.of I).held ((Course.of I).right i) (k.meaning I ρ) ≤
            (Course.of I).least (k.meaning I ρ) := by
  simp [noBoundary, Fact.about, Fact.satisfies_formula, hk]

/-- What two-step induction concludes about children with the least count. -/
def spreadFact (name : String) (k lower : IntTerm) : Fact :=
  Induction.twoStepConclusion name (.int lower) (holdsMin name k (.int "x")) none

/-! ### Convergence -/

theorem satisfies_lexDecrease :
    Satisfies I ρ lexDecrease.formula ↔
      ∀ k k2 j, 0 ≤ k → k2 = k + 1 → (Course.of I).IsChild j →
        (Course.of I).least k < (Course.of I).held j k →
          (Course.of I).gap k2 < (Course.of I).gap k ∨
            (Course.of I).gap k2 = (Course.of I).gap k ∧
              (Course.of I).holders ((Course.of I).least k2) k2 <
                (Course.of I).holders ((Course.of I).least k) k := by
  simp [lexDecrease, variant, Pair.lt, Fact.about, Fact.satisfies_formula, Course.gap]

theorem satisfies_eventuallyConverged :
    Satisfies I ρ eventuallyConverged ↔ (Course.of I).Converges := by
  simp [eventuallyConverged, Formula.thereIs, satisfies_quantify, Course.Converges]

theorem satisfies_eventualConvergence {p : Pair}
    (h1 : ∀ k : Int, p.1.meaning (I.set (.int "k") k) ρ = p.1.meaning I ρ)
    (h2 : ∀ k : Int, p.2.meaning (I.set (.int "k") k) ρ = p.2.meaning I ρ) :
    Satisfies I ρ (eventualConvergence p).formula ↔
      ∀ k, 0 ≤ k → (Course.of I).gap k = p.1.meaning I ρ →
        (Course.of I).holders ((Course.of I).least k) k = p.2.meaning I ρ →
          (Course.of I).Converges := by
  simp [eventualConvergence, variant, Fact.about, Fact.satisfies_formula, Course.gap,
    satisfies_eventuallyConverged, h1, h2]

/-- Eventual convergence as well-founded induction concludes it. -/
def eventualConvergenceFact : Fact :=
  Induction.wellFoundedConclusion "eventual-convergence" (eventualConvergence (.named "w1" "w2"))

theorem satisfies_eventualConvergenceFact :
    Satisfies I ρ eventualConvergenceFact.formula ↔
      ∀ w1 w2 k, 0 ≤ w1 → 0 ≤ w2 → 0 ≤ k → (Course.of I).gap k = w1 →
        (Course.of I).holders ((Course.of I).least k) k = w2 → (Course.of I).Converges := by
  simp [eventualConvergenceFact, Induction.wellFoundedConclusion, Pair.domain, Pair.named,
    eventualConvergence, variant, Fact.about, Fact.satisfies_formula, Course.gap,
    satisfies_eventuallyConverged]

theorem satisfies_convergence :
    Satisfies I ρ convergence.formula ↔ (Course.of I).Converges := by
  simp [convergence, Fact.plain, Fact.satisfies_formula, satisfies_eventuallyConverged]

theorem satisfies_uniformAtConvergence :
    Satisfies I ρ uniformAtConvergence.formula ↔
      ∀ k i, 0 ≤ k → (Course.of I).IsChild i → (Course.of I).least k = (Course.of I).most k →
        (Course.of I).held i k = (Course.of I).least k := by
  simp [uniformAtConvergence, Fact.about, Fact.satisfies_formula]

/-! ### All conclusions -/

/-- The facts that the plan establishes, in order. -/
def conclusions : List Fact :=
  [stateInvariantFact, maxNonincreasing, minNondecreasing, aboveMinStaysAbove,
    gainsFromRicherNeighbor, variantBounded, histogramDecrease, lexDecrease,
    eventualConvergenceFact, convergence, uniformAtConvergence]

end Plan

end CandyCircle
