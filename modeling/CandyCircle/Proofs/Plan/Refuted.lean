/-
**Every query of the plan has no model.**

An interpretation that makes the assertions of a query true would describe a course that obeys the
laws, follows the rule of the process in the one step whose dynamics are assumed, and yet violates
what courses are known to obey.  Hints are not needed for that, and of the base only the axioms and
the facts that a step requires by name.

Main definitions:

* `CandyCircle.Plan.Refutable` — a query has no model even without hints and with only some facts of
  the base.

Main results:

* `CandyCircle.Plan.refutable_of_stage` — the queries of a stage are refutable from what its step
  requires;
* `CandyCircle.Plan.queries_unsatisfiable` — **every query of a run of the plan has no model**.
-/
import CandyCircle.Proofs.Plan.Readings
import CandyCircle.Proofs.Plan.Truth

set_option autoImplicit false

namespace CandyCircle

open Logic Vocabulary Course

/-! ### Queries without hints -/

namespace Question

/-- What is left of a question was in it. -/
theorem mem_formulas_of_cut {names : List String} {q : Question} {f : Formula}
    (hf : f ∈ (q.cut names).formulas) : f ∈ q.formulas := by
  obtain ⟨a, ha, rfl⟩ := List.mem_map.1 hf
  refine List.mem_map_of_mem ?_
  rcases List.mem_append.1 ha with ha | ha
  · exact List.mem_append_left _ (List.mem_of_mem_filter ha)
  · exact List.mem_append_right _ (List.mem_of_mem_filter ha)

theorem mem_cut_of_base {names : List String} {q : Question} {a : Assertion} (ha : a ∈ q.base)
    (hname : a.label ∈ names) : a.formula ∈ (q.cut names).formulas :=
  List.mem_map_of_mem (List.mem_append_left _ (List.mem_filter.2 ⟨ha, by simpa using hname⟩))

theorem mem_cut_of_inner {names : List String} {q : Question} {a : Assertion} (ha : a ∈ q.inner)
    (hhint : a.hint = false) : a.formula ∈ (q.cut names).formulas :=
  List.mem_map_of_mem (List.mem_append_right _ (List.mem_filter.2 ⟨ha, by simp [hhint]⟩))

/-- A question has no model if what is left of it has none. -/
theorem unsatisfiable_of_cut {names : List String} {q : Question}
    (h : Unsatisfiable (q.cut names).formulas) : Unsatisfiable q.formulas :=
  fun I ρ hall => h I ρ fun f hf => hall f (mem_formulas_of_cut hf)

end Question

namespace Plan

/-- A query has no model even without hints and with only those facts of the base that are among
some facts, or bear the same name as one of them. -/
def Refutable (known : List Fact) (x : Query) : Prop :=
  ∀ names : List String, (∀ f ∈ known, f.name ∈ names) → Unsatisfiable (x.2.cut names).formulas

/-- A query about a claim is refutable if the claim follows for its constants from the facts and
from what the open layers assume. -/
theorem refutable_of_follows {V : View} {known : List Fact} {claim : Fact} {extra : List Assertion}
    {hs : List Formula} (hknown : ∀ f ∈ known, f.assertion ∈ V.base)
    (h : ∀ I ρ, (∀ f ∈ known, Satisfies I ρ f.formula) →
      (∀ a ∈ V.frames.reverse.flatten ++ extra, a.hint = false → Satisfies I ρ a.formula) →
        Satisfies I ρ (V.guard claim) → Satisfies I ρ (V.body claim)) :
    Refutable known (V.refutes claim extra hs) := by
  intro names hnames I ρ hall
  have hbase (f : Fact) (hf : f ∈ known) : Satisfies I ρ f.formula :=
    hall _ (Question.mem_cut_of_base (a := f.assertion) (hknown f hf) (hnames f hf))
  have hinner (a : Assertion) (hhint : a.hint = false)
      (ha : a ∈ V.frames.reverse.flatten ++ (claim.guardAssertions (claim.witnesses V.issued) ++
        extra ++ (claim.denial (claim.witnesses V.issued) :: claim.hintAssertions hs))) :
      Satisfies I ρ a.formula :=
    hall _ (Question.mem_cut_of_inner ha hhint)
  -- a guard that says nothing is not asserted
  have hguard : Satisfies I ρ (V.guard claim) := by
    by_cases htrivial : (claim.vars.isEmpty && Formula.isTrue claim.guard) = true
    · rw [View.guard, Fact.satisfies_guardFor]
      exact Fact.satisfies_of_isTrue (by simp at htrivial; exact htrivial.2)
    · refine hinner ⟨V.guard claim, claim.name ++ " guard", false⟩ rfl ?_
      simp [Fact.guardAssertions, htrivial, View.guard]
  refine hinner (claim.denial (claim.witnesses V.issued)) rfl (by simp) ?_
  refine h I ρ hbase (fun a ha hhint => hinner a hhint ?_) hguard
  rcases List.mem_append.1 ha with ha | ha
  · exact List.mem_append_left _ ha
  · simp [ha]

/-- A query about a claim is refutable if the claim follows from the facts and from what the open
layers assume. -/
theorem refutable_of_claim {V : View} {known : List Fact} {claim : Fact} {extra : List Assertion}
    {hs : List Formula} (hknown : ∀ f ∈ known, f.assertion ∈ V.base)
    (h : ∀ I ρ, (∀ f ∈ known, Satisfies I ρ f.formula) →
      (∀ a ∈ V.frames.reverse.flatten ++ extra, a.hint = false → Satisfies I ρ a.formula) →
        Satisfies I ρ claim.formula) :
    Refutable known (V.refutes claim extra hs) := by
  refine refutable_of_follows hknown fun I ρ hfacts hinner hguard => ?_
  rw [View.guard, Fact.satisfies_guardFor] at hguard
  rw [View.body, Fact.satisfies_bodyFor]
  refine claim.satisfies_formula_iff.1 (h I ρ hfacts hinner) _ ?_ hguard
  exact Fact.agreeOn_assigned fun a ha => Fact.mem_vars_of_mem_bind ha

section Stages

variable {V : View} {required : List Fact} {l : List Query}

/-- The axioms among known facts are the laws of a course. -/
theorem lawful_of_known {I : Interpretation} {ρ : Valuation}
    (h : ∀ f ∈ baseFacts ++ required, Satisfies I ρ f.formula) : (Course.of I).Lawful := by
  refine (satisfies_axioms (v := standard) (ρ := ρ) rfl).1 fun f hf => ?_
  rw [axioms_eq_baseFacts rfl] at hf
  exact h f (List.mem_append_left _ hf)

theorem asserted_of_has (h : V.Has (baseFacts ++ required)) :
    ∀ f ∈ baseFacts ++ required, f.assertion ∈ V.base :=
  fun f hf => (h f hf).2

/-! ### Claims by a single query -/

/-- A claim without dynamics that follows from the laws and from the facts that are required. -/
theorem refutable_plain {claim : Fact} (h : V.Has (baseFacts ++ required))
    (hl : PlainQueries V claim (baseFacts ++ required) l)
    (hclaim : ∀ I ρ, (Course.of I).Lawful → (∀ f ∈ required, Satisfies I ρ f.formula) →
      Satisfies I ρ claim.formula) : ∀ x ∈ l, Refutable (baseFacts ++ required) x := by
  obtain ⟨hs, _, rfl⟩ := hl
  refine List.forall_mem_singleton.2 (refutable_of_claim (asserted_of_has h) fun I ρ hknown _ => ?_)
  exact hclaim I ρ (lawful_of_known hknown) fun f hf => hknown f (List.mem_append_right _ hf)

/-- A claim about a step that follows from the laws, the facts that are required, and the dynamics
of the step. -/
theorem refutable_step {claim : Fact} (hvars : 1 < claim.vars.length)
    (h : V.Has (baseFacts ++ required))
    (hl : StepQueries standard V claim (baseFacts ++ required) l)
    (hclaim : ∀ I ρ, (Course.of I).Lawful → (∀ f ∈ required, Satisfies I ρ f.formula) →
      (Course.of I).Follows Dynamics.nextValue ((firstStep V claim).meaning I ρ)
        ((secondStep V claim).meaning I ρ) →
          Satisfies I ρ (V.guard claim) → Satisfies I ρ (V.body claim)) :
    ∀ x ∈ l, Refutable (baseFacts ++ required) x := by
  obtain ⟨hs, _, rfl⟩ := hl
  refine List.forall_mem_singleton.2 (refutable_of_follows (asserted_of_has h) ?_)
  intro I ρ hknown hinner
  refine hclaim I ρ (lawful_of_known hknown) (fun f hf => hknown f (List.mem_append_right _ hf)) ?_
  exact (satisfies_dynamics computes_standard (steady_freshSymbols (Nat.lt_of_succ_lt hvars))
    (steady_freshSymbols hvars)).1 (hinner _ (List.mem_append_right _ List.mem_cons_self) rfl)

/-! ### Monotonicity -/

theorem refutable_maxNonincreasing (h : V.Has (baseFacts ++ [stateInvariantFact]))
    (hl : StepQueries standard V maxNonincreasing (baseFacts ++ [stateInvariantFact]) l) :
    ∀ x ∈ l, Refutable (baseFacts ++ [stateInvariantFact]) x := by
  refine refutable_step (by decide) h hl fun I ρ hlaw hfacts hstep hguard => ?_
  obtain ⟨hg, hb⟩ := satisfies_at_maxNonincreasing V (I := I) (ρ := ρ) rfl rfl
  obtain ⟨hk, hk2⟩ := hg.1 hguard
  have heven := satisfies_stateInvariantFact.1 (hfacts _ List.mem_cons_self) _ hk
  exact hb.2 (most_le hlaw hk (by omega) hstep heven)

theorem refutable_minNondecreasing (h : V.Has (baseFacts ++ []))
    (hl : StepQueries standard V minNondecreasing (baseFacts ++ []) l) :
    ∀ x ∈ l, Refutable (baseFacts ++ []) x := by
  refine refutable_step (by decide) h hl fun I ρ hlaw _ hstep hguard => ?_
  obtain ⟨hg, hb⟩ := satisfies_at_minNondecreasing V (I := I) (ρ := ρ) rfl rfl
  obtain ⟨hk, hk2⟩ := hg.1 hguard
  exact hb.2 (least_le hlaw hk (by omega) hstep)

theorem refutable_aboveMinStaysAbove (h : V.Has (baseFacts ++ [stateInvariantFact]))
    (hl : StepQueries standard V aboveMinStaysAbove (baseFacts ++ [stateInvariantFact]) l) :
    ∀ x ∈ l, Refutable (baseFacts ++ [stateInvariantFact]) x := by
  refine refutable_step (by decide) h hl fun I ρ hlaw hfacts hstep hguard => ?_
  obtain ⟨hg, hb⟩ := satisfies_at_aboveMinStaysAbove V (I := I) (ρ := ρ) rfl rfl rfl
  obtain ⟨hk, hk2, hi, habove⟩ := hg.1 hguard
  have heven := satisfies_stateInvariantFact.1 (hfacts _ List.mem_cons_self) _ hk
  exact hb.2 (above_least hlaw hk hstep heven hi habove)

theorem refutable_gainsFromRicherNeighbor (h : V.Has (baseFacts ++ [stateInvariantFact]))
    (hl : StepQueries standard V gainsFromRicherNeighbor (baseFacts ++ [stateInvariantFact]) l) :
    ∀ x ∈ l, Refutable (baseFacts ++ [stateInvariantFact]) x := by
  refine refutable_step (by decide) h hl fun I ρ hlaw hfacts hstep hguard => ?_
  obtain ⟨hg, hb⟩ := satisfies_at_gainsFromRicherNeighbor V (I := I) (ρ := ρ) rfl rfl rfl
  obtain ⟨hk, hk2, hi, hpoorer⟩ := hg.1 hguard
  have heven := satisfies_stateInvariantFact.1 (hfacts _ List.mem_cons_self) _ hk
  exact hb.2 (gains hlaw hstep heven hi hpoorer)

/-! ### The invariant -/

theorem refutable_stateInvariant (h : V.Has (baseFacts ++ []))
    (hl : InvariantQueries standard V (baseFacts ++ []) l) :
    ∀ x ∈ l, Refutable (baseFacts ++ []) x := by
  obtain ⟨bs, hs, _, _, rfl⟩ := hl
  refine List.forall_mem_cons.2 ⟨?_, List.forall_mem_singleton.2 ?_⟩
  · refine refutable_of_claim (asserted_of_has h) fun I ρ hknown _ => ?_
    rw [Induction.baseCase, Fact.satisfies_renamed]
    exact (satisfies_stateInvariant fun _ => rfl).2 (lawful_of_known hknown).start
  · refine refutable_of_claim (asserted_of_has h) fun I ρ hknown hinner => ?_
    have hk : Steady (Induction.stepTerm (invariantStep V)) := steady_fresh _ _
    have hnext : Steady (Induction.nextTerm (invariantStep V)) := steady_fresh _ _
    let hypothesis := Induction.hypothesis "state-invariant" invariantOf (invariantStep V)
    have heven : Satisfies I ρ hypothesis.formula :=
      hinner hypothesis.assertion
        (by simp [View.stepping, Induction.stepAssertions, hypothesis]) rfl
    have hstep : Satisfies I ρ (invariantDynamics standard V).formula :=
      hinner (invariantDynamics standard V).assertion (by simp) rfl
    simp only [hypothesis, Induction.hypothesis, Fact.satisfies_renamed, invariantOf] at heven
    rw [Induction.successorCase, Fact.satisfies_renamed, invariantOf]
    rw [invariantDynamics, satisfies_dynamics computes_standard hk hnext] at hstep
    refine (satisfies_stateInvariant fun i => hnext I ρ "i" i (by decide)).2 ?_
    refine evenAt_succ (lawful_of_known hknown) hstep ?_
    exact (satisfies_stateInvariant fun i => hk I ρ "i" i (by decide)).1 heven

/-! ### Fewer children hold the least count -/

/-- The guard of the claim, as it is assumed in its layer. -/
def histogramGuard (V : View) : Assertion :=
  { formula := V.guard histogramDecrease, label := "histogram-decrease guard" }

theorem frames_refuting_histogram (V : View) :
    (V.refuting histogramDecrease).frames = [histogramGuard V] :: V.frames := rfl

theorem frames_assumingNone (V : View) (k : IntTerm) :
    (assumingNone (V.refuting histogramDecrease) k).frames =
      [(noBoundary k).assertion] :: [histogramGuard V] :: V.frames := rfl

theorem frames_sweptOver (V : View) (k : IntTerm) :
    (sweptOver (V.refuting histogramDecrease) k).frames =
      [(noBoundary k).assertion,
        (spreadFact "histogram-decrease/sweep" k (minChild k)).assertion] ::
          [histogramGuard V] :: V.frames := rfl

theorem frames_withBoundary (V : View) :
    ((withBoundary V).add [boundaryAssertion V]).frames =
      [histogramGuard V, (boundary (firstStep V histogramDecrease)).assertion,
        boundaryAssertion V] :: V.frames := rfl

/-- A query is refutable if a child above the least count is assumed, and that no child with the
least count sits left of a richer one. -/
theorem refutable_assumingNone {W : View} {claim : Fact} {extra : List Assertion}
    {hs : List Formula} (h : ∀ f ∈ baseFacts ++ required, f.assertion ∈ W.base)
    (hguard : histogramGuard V ∈ W.frames.reverse.flatten ++ extra)
    (hnone : (noBoundary (firstStep V histogramDecrease)).assertion ∈
      W.frames.reverse.flatten ++ extra) :
    Refutable (baseFacts ++ required) (W.refutes claim extra hs) := by
  refine refutable_of_claim h fun I ρ hknown hinner => ?_
  -- any lawful course has a child that is denied here, so that the claim does not matter
  have hlaw := lawful_of_known hknown
  have hk : Steady (firstStep V histogramDecrease) := steady_fresh _ _
  obtain ⟨hg, _⟩ := satisfies_at_histogramDecrease V (I := I) (ρ := ρ) rfl rfl rfl
  obtain ⟨hnat, _, hj, habove⟩ := hg.1 (hinner (histogramGuard V) hguard rfl)
  have hnone := (satisfies_noBoundary fun i => hk I ρ "i" i (by decide)).1 (hinner _ hnone rfl)
  obtain ⟨b, hb, hlow, hricher⟩ := exists_boundary hlaw hnat hj habove
  have := hnone b hb hlow
  omega

theorem refutable_histogramDecrease
    (h : V.Has (baseFacts ++ [aboveMinStaysAbove, gainsFromRicherNeighbor]))
    (hl : HistogramQueries V (baseFacts ++ [aboveMinStaysAbove, gainsFromRicherNeighbor]) l) :
    ∀ x ∈ l, Refutable (baseFacts ++ [aboveMinStaysAbove, gainsFromRicherNeighbor]) x := by
  obtain ⟨l₁, hs₁, hs₂, ⟨_, _, _, _, _, _, _, _, rfl⟩, _, _, rfl⟩ := hl
  have hbase := asserted_of_has h
  refine List.forall_mem_append.2 ⟨?_, List.forall_mem_cons.2 ⟨?_, List.forall_mem_singleton.2 ?_⟩⟩
  · simp only [List.forall_mem_cons, List.not_mem_nil, false_implies, implies_true, and_true]
    refine ⟨?_, ?_, ?_, ?_, ?_⟩ <;> refine refutable_assumingNone (V := V) hbase ?_ ?_ <;>
      simp [View.stepping, frames_refuting_histogram, frames_assumingNone, frames_sweptOver,
        spreadAssertions]
  · -- whoever is above the least count stays above it
    refine refutable_of_claim hbase fun I ρ hknown hinner => ?_
    have hlaw := lawful_of_known hknown
    have hguard : Satisfies I ρ (V.guard histogramDecrease) :=
      hinner (histogramGuard V) (by simp [frames_withBoundary]) rfl
    obtain ⟨hg, _⟩ := satisfies_at_histogramDecrease V (I := I) (ρ := ρ) rfl rfl rfl
    obtain ⟨hnat, hsucc, _, _⟩ := hg.1 hguard
    refine (satisfies_noEntryClaim V rfl rfl).2 fun j hj hne => ?_
    have hle := hlaw.least_le_held _ j hnat hj
    have := satisfies_aboveMinStaysAbove.1 (hknown _ (by simp)) _ _ j hnat hsucc hj (by omega)
    omega
  · -- the child left of a richer one gains
    refine refutable_of_follows hbase fun I ρ hknown hinner hguard => ?_
    have hlaw := lawful_of_known hknown
    obtain ⟨hg, hb⟩ := satisfies_at_histogramDecrease V (I := I) (ρ := ρ) rfl rfl rfl
    obtain ⟨hnat, hsucc, _, _⟩ := hg.1 hguard
    obtain ⟨hchild, hlow, hricher⟩ := (satisfies_boundaryAssertion V rfl rfl).1
      (hinner (boundaryAssertion V) (by simp) rfl)
    have hentry := (satisfies_noEntryClaim V rfl rfl).1
      (hinner (noEntryClaim V).assertion (by simp) rfl)
    have hgains := satisfies_gainsFromRicherNeighbor.1 (hknown _ (by simp)) _ _ _ hnat hsucc hchild
      (by omega)
    exact hb.2 (hlaw.holders_lt _ _ _ _ hnat hsucc hchild hlow (by omega) hentry)

/-! ### The variants -/

theorem refutable_variantBounded (h : V.Has (baseFacts ++ []))
    (hl : PlainQueries V variantBounded (baseFacts ++ []) l) :
    ∀ x ∈ l, Refutable (baseFacts ++ []) x := by
  refine refutable_plain h hl fun I ρ hlaw _ => satisfies_variantBounded.2 fun k hk => ?_
  exact ⟨gap_nonneg hlaw hk, hlaw.holders_nonneg k _ hk⟩

theorem refutable_lexDecrease
    (h : V.Has (baseFacts ++ [maxNonincreasing, minNondecreasing, histogramDecrease]))
    (hl : PlainQueries V lexDecrease
      (baseFacts ++ [maxNonincreasing, minNondecreasing, histogramDecrease]) l) :
    ∀ x ∈ l,
      Refutable (baseFacts ++ [maxNonincreasing, minNondecreasing, histogramDecrease]) x := by
  refine refutable_plain h hl fun I ρ _ hfacts => satisfies_lexDecrease.2 ?_
  intro k k2 j hk hk2 hj habove
  exact variant_lt_of (satisfies_maxNonincreasing.1 (hfacts _ (by simp)) k k2 hk hk2)
    (satisfies_minNondecreasing.1 (hfacts _ (by simp)) k k2 hk hk2)
    (satisfies_histogramDecrease.1 (hfacts _ (by simp)) k k2 j hk hk2 hj habove)

/-! ### Convergence -/

/-- The claim about a pair follows from that about all smaller pairs if the pair of variants
decreases. -/
theorem converges_of_smaller {c : Course} (hlaw : c.Lawful)
    (hdecreases : ∀ k k2 j, 0 ≤ k → k2 = k + 1 → c.IsChild j → c.least k < c.held j k →
      c.gap k2 < c.gap k ∨
        c.gap k2 = c.gap k ∧ c.holders (c.least k2) k2 < c.holders (c.least k) k)
    {k : Int} (hk : 0 ≤ k)
    (hsmaller : ∀ u1 u2 k', 0 ≤ u1 → 0 ≤ u2 →
      u1 < c.gap k ∨ u1 = c.gap k ∧ u2 < c.holders (c.least k) k → 0 ≤ k' → c.gap k' = u1 →
        c.holders (c.least k') k' = u2 → c.Converges) : c.Converges := by
  by_cases huniform : c.least k = c.most k
  · exact ⟨k, hk, huniform⟩
  · obtain ⟨j, hj, habove⟩ := exists_above hlaw hk huniform
    have hlt := hdecreases k (k + 1) j hk rfl hj habove
    exact hsmaller _ _ (k + 1) (gap_nonneg hlaw (by omega)) (hlaw.holders_nonneg _ _ (by omega)) hlt
      (by omega) rfl rfl

theorem refutable_eventualConvergence (h : V.Has (baseFacts ++ [variantBounded, lexDecrease]))
    (hl : ConvergenceQueries V (baseFacts ++ [variantBounded, lexDecrease]) l) :
    ∀ x ∈ l, Refutable (baseFacts ++ [variantBounded, lexDecrease]) x := by
  obtain ⟨bs, hs, _, _, rfl⟩ := hl
  refine List.forall_mem_cons.2 ⟨?_, List.forall_mem_singleton.2 ?_⟩
  · -- no distance of the extremes means that the step is uniform
    refine refutable_of_claim (asserted_of_has h) fun I ρ _ _ => ?_
    rw [Induction.leastCase, Fact.satisfies_renamed]
    refine (satisfies_eventualConvergence (fun _ => rfl) fun _ => rfl).2 fun k hk hgap _ => ?_
    simp only [Pair.bottom, meaning_num, gap] at hgap
    exact ⟨k, hk, by omega⟩
  · refine refutable_of_claim (asserted_of_has h) fun I ρ hknown hinner => ?_
    have h1 : Steady (Induction.pairTerm (convergencePair V)).1 := steady_fresh _ _
    have h2 : Steady (Induction.pairTerm (convergencePair V)).2 := steady_fresh _ _
    let smaller := Induction.smallerHypothesis "eventual-convergence"
      (Induction.pairTerm (convergencePair V)) (eventualConvergence (.named "u1" "u2"))
    have hsmaller : Satisfies I ρ smaller.formula :=
      hinner smaller.assertion (by simp [View.descending, Induction.pairAssertions, smaller]) rfl
    rw [satisfies_smallerHypothesis h1 h2] at hsmaller
    rw [Induction.pairCase, Fact.satisfies_renamed]
    refine (satisfies_eventualConvergence (fun k => h1 I ρ "k" k (by decide))
      fun k => h2 I ρ "k" k (by decide)).2 fun k hk hgap hholders => ?_
    rw [← hgap, ← hholders] at hsmaller
    exact converges_of_smaller (lawful_of_known hknown)
      (satisfies_lexDecrease.1 (hknown _ (by simp))) hk hsmaller

theorem refutable_convergence
    (h : V.Has (baseFacts ++ [variantBounded, eventualConvergenceFact]))
    (hl : PlainQueries V convergence (baseFacts ++ [variantBounded, eventualConvergenceFact]) l) :
    ∀ x ∈ l, Refutable (baseFacts ++ [variantBounded, eventualConvergenceFact]) x := by
  refine refutable_plain h hl fun I ρ _ hfacts => satisfies_convergence.2 ?_
  have hbounded := satisfies_variantBounded.1 (hfacts _ (by simp)) 0 (Int.le_refl 0)
  exact satisfies_eventualConvergenceFact.1 (hfacts _ (by simp)) _ _ 0 hbounded.1 hbounded.2
    (Int.le_refl 0) rfl rfl

theorem refutable_uniformAtConvergence (h : V.Has (baseFacts ++ []))
    (hl : PlainQueries V uniformAtConvergence (baseFacts ++ []) l) :
    ∀ x ∈ l, Refutable (baseFacts ++ []) x := by
  refine refutable_plain h hl fun I ρ hlaw _ => satisfies_uniformAtConvergence.2 ?_
  exact fun k i hk hi huniform => held_eq_least hlaw hk hi huniform

/-- **The queries of a stage are refutable** from what its step requires. -/
theorem refutable_of_stage : ∀ s ∈ stages, ∀ {V : View} {l : List Query},
    V.Has (baseFacts ++ s.required) → s.Queries standard V l →
      ∀ x ∈ l, Refutable (baseFacts ++ s.required) x := by
  simp only [stages, List.forall_mem_cons, List.not_mem_nil, false_implies, implies_true, and_true]
  exact ⟨refutable_stateInvariant, refutable_maxNonincreasing, refutable_minNondecreasing,
    refutable_aboveMinStaysAbove, refutable_gainsFromRicherNeighbor, refutable_variantBounded,
    refutable_histogramDecrease, refutable_lexDecrease, refutable_eventualConvergence,
    refutable_convergence, refutable_uniformAtConvergence⟩

end Stages

/-! ### Runs of the plan -/

/-- A query belongs to a step if its claim bears the name of the step, or a name below it, and those
of no other step. -/
def BelongsTo (step : LemmaStep) (claim : String) : Prop :=
  ∀ t ∈ lemmas, Ledger.belongsTo t.name claim = (t.name == step.name)

/-- Every query of a schedule belongs to a step, and is refutable from what that step requires. -/
theorem refutable_of_schedule {ss : List Stage} {V : View} {l : List Query}
    (hl : Schedule standard ss V l) (hV : V.frames = []) (hready : Ready ss V)
    (hss : ∀ s ∈ ss, s ∈ stages) : ∀ x ∈ l, ∃ step ∈ lemmas, BelongsTo step x.1 ∧
      Unsatisfiable (x.2.cut (standard.axioms.map Fact.name ++ step.requires)).formulas := by
  intro x hx
  obtain ⟨s, hs, W, l', _, hhas, hqueries, hx⟩ := hl.exists_stage hV hready x hx
  have hstage := hss s hs
  refine ⟨s.step, map_step_stages ▸ List.mem_map_of_mem hstage, ?_, ?_⟩
  · refine belongsTo_claims s hstage x.1 ?_
    rw [← s.names_queries hqueries]
    exact List.mem_map_of_mem hx
  · refine refutable_of_stage s hstage hhas hqueries x hx _ fun f hf => ?_
    rw [axioms_eq_baseFacts rfl, ← s.names_required, ← List.map_append]
    exact List.mem_map_of_mem hf

/-- What a run of the plan asks has no model, whatever the solver replies. -/
theorem unsatisfiable_of_asked (s : Settings.Options) (replies : List Prepared) (raising : Bool) :
    let c := (Proof.outcome (run standard (chosen [] s) raising) (Context.start s replies)).2
    ∀ p ∈ c.session.asked, Unsatisfiable p.1.formulas := by
  obtain ⟨l, xs, _, _, hl, hheard, hfront, _⟩ := run_spec standard s replies raising
  intro c p hp
  rw [show c.session.asked = _ from hheard.asked_of_start] at hp
  obtain ⟨x, hx, rfl⟩ := List.mem_map.1 hp
  obtain ⟨_, _, _, hcut⟩ := refutable_of_schedule hl rfl (ready_chosenStages standard s)
    (fun t ht => (chosenStages_isPrefix s).subset ht) _ (hfront.subset (List.mem_map_of_mem hx))
  exact Question.unsatisfiable_of_cut hcut

/-- **Every query of a run of the plan has no model**, whatever the solver replies, and still has
none without hints and with only the axioms and the facts that its step requires by name. -/
theorem queries_unsatisfiable :
    (∀ s replies raising,
      let c := (Proof.outcome (run standard (chosen [] s) raising) (Context.start s replies)).2
      c.ledger.entries.length = c.session.asked.length ∧
      ∀ p ∈ c.ledger.entries.zip c.session.asked,
        Unsatisfiable p.2.1.formulas ∧
        ∃ step ∈ lemmas, BelongsTo step p.1.lemmaName ∧
          Unsatisfiable (p.2.1.cut (standard.axioms.map Fact.name ++ step.requires)).formulas) ∧
    defaultRun.2.ledger.entries.map Obligation.lemmaName = stages.flatMap Stage.claims := by
  refine ⟨fun s replies raising => ?_, defaultRun_spec.2.2⟩
  obtain ⟨l, xs, _, _, hl, hheard, hfront, _⟩ := run_spec standard s replies raising
  intro c
  rw [show c.ledger.entries = _ from hheard.entries_of_start,
    show c.session.asked = _ from hheard.asked_of_start, List.zip_map']
  refine ⟨by simp, fun p hp => ?_⟩
  obtain ⟨x, hx, rfl⟩ := List.mem_map.1 hp
  have hquery : x.query ∈ l := hfront.subset (List.mem_map_of_mem hx)
  obtain ⟨step, hstep, hbelongs, hcut⟩ := refutable_of_schedule hl rfl
    (ready_chosenStages standard s) (fun t ht => (chosenStages_isPrefix s).subset ht) _ hquery
  exact ⟨Question.unsatisfiable_of_cut hcut, step, hstep, hbelongs, hcut⟩

/-- The default run asks about the child left of a richer one, and that query has no model. -/
theorem boundary_query_unsatisfiable :
    ∃ p ∈ defaultRun.2.ledger.entries.zip defaultRun.2.session.asked,
      p.1.lemmaName = "histogram-decrease/boundary" ∧ Unsatisfiable p.2.1.formulas := by
  have hname : "histogram-decrease/boundary" ∈
      defaultRun.2.ledger.entries.map Obligation.lemmaName := by
    rw [queries_unsatisfiable.2]
    decide
  obtain ⟨hlength, hunsat⟩ := queries_unsatisfiable.1 (Settings.options {}) [] true
  obtain ⟨o, ho, hname⟩ := List.mem_map.1 hname
  obtain ⟨i, hi, rfl⟩ := List.getElem_of_mem ho
  have hzip : i < (defaultRun.2.ledger.entries.zip defaultRun.2.session.asked).length := by
    rw [List.length_zip]
    exact Nat.lt_min.2 ⟨hi, hlength ▸ hi⟩
  refine ⟨_, List.getElem_mem hzip, ?_, (hunsat _ (List.getElem_mem hzip)).1⟩
  rw [List.getElem_zip]
  exact hname

end Plan

end CandyCircle
