/-
**What the steps of the plan ask.**

Every step of the plan looks up the facts that it rests on, asks its queries and commits its fact.
Which queries these are is said here up to their hints: hints are instances of facts, and which
instances they are does not matter to what the queries establish.

Main definitions:

* `CandyCircle.Vocabulary.dynamics` — the dynamics of a step, whatever layer it belongs to;
* `CandyCircle.Plan.baseFacts` — the axioms for circles of all sizes;
* `CandyCircle.View.Has` — some facts are known and asserted at the base;
* `CandyCircle.Plan.StepQueries`, `CandyCircle.Plan.InvariantQueries`,
  `CandyCircle.Plan.HistogramQueries`, `CandyCircle.Plan.ConvergenceQueries` — **the queries of a
  step**.

Main results:

* `CandyCircle.Plan.runs_proveStateInvariant` and the other lemmas of this form — **a step asks its
  queries and commits its fact**.
-/
import CandyCircle.Proofs.Plan.Claims
import CandyCircle.Proofs.Refutation.Induction

set_option autoImplicit false

namespace CandyCircle

open Logic Proof Vocabulary Induction

/-! ### Dynamics and facts -/

/-- The dynamics of a step, whatever layer it belongs to; nothing if the rule builds no term. -/
def Vocabulary.dynamics (v : Vocabulary) (k k2 : IntTerm) : Fact :=
  match v.transition (.ofInts k k2 "") with
  | .ok t => t
  | .error _ => .plain "" (.lit true)

/-- The dynamics of a step tell its layer only on the side. -/
theorem Vocabulary.eq_dynamics {v : Vocabulary} {k k2 : IntTerm} {layer : String} {t : Fact}
    (h : v.transition (.ofInts k k2 layer) = .ok t) :
    t = { v.dynamics k k2 with step := some (.ofInts k k2 layer) } := by
  have hlayer : v.trans (.int "i") (.ofInts k k2 layer) = v.trans (.int "i") (.ofInts k k2 "") :=
    rfl
  simp only [dynamics, transition, hlayer] at h ⊢
  cases hbody : v.trans (.int "i") (.ofInts k k2 "") with
  | error e =>
      rw [hbody] at h
      cases h
  | ok body =>
      rw [hbody] at h
      cases h
      rfl

/-- Hints that are instances of some facts. -/
def InstancesOf (fs : List Fact) (hs : List Formula) : Prop :=
  ∀ h ∈ hs, ∃ f ∈ fs, ∃ terms, h = f.matrixFor terms

namespace View

/-- Some facts are known and asserted at the base. -/
def Has (V : View) (fs : List Fact) : Prop :=
  ∀ f ∈ fs, V.find? f.name = some f ∧ f.assertion ∈ V.base

theorem conclude_of_nil {V : View} (hV : V.frames = []) (f : Fact) : V.conclude f = V.commit f := by
  rw [conclude, hV]

end View

namespace Proof

variable {β : Type} {V : View} {fs : List Fact} {l : List Query} {Q : β → View → Prop}

/-- From whatever shows a view, a proof asks queries of which something is said. -/
def Poses (p : ProofM β) (V : View) (P : List Query → Prop) (Q : β → View → Prop) : Prop :=
  ∃ l, P l ∧ Runs p V l Q

/-- A fact that is known is found. -/
theorem Runs.known (hV : V.frames = []) (h : V.Has fs) {f : Fact} (hf : f ∈ fs)
    {k : Fact → ProofM β} (hk : Runs (k f) V l Q) : Runs (fact f.name >>= k) V l Q := by
  refine (runs_fact hV f.name).next fun g W hg => ?_
  obtain ⟨hg, rfl⟩ := hg
  rw [(h f hf).1] at hg
  cases hg
  exact ⟨.refl _, hk⟩

theorem Poses.known (hV : V.frames = []) (h : V.Has fs) (f : Fact) (hf : f ∈ fs)
    {k : Fact → ProofM β} {P : List Query → Prop} (hk : Poses (k f) V P Q) :
    Poses (fact f.name >>= k) V P Q := by
  obtain ⟨l, hl, hruns⟩ := hk
  exact ⟨l, hl, .known hV h hf hruns⟩

end Proof

namespace Plan

/-- The axioms for circles of all sizes. -/
def baseFacts : List Fact :=
  [childrenExist, rightNeighbor, initialState, maxChildExists, minChildExists, maxDominates,
    minDominated, histogramNonneg, histogramLeaves]

theorem axioms_eq_baseFacts {v : Vocabulary} (hv : v.children = none) : v.axioms = baseFacts := by
  rw [axioms, hv]
  rfl

/-- Instances of facts, as they are taken for hints. -/
def hintsOf (pairs : List (Fact × List IntTerm)) : List Formula :=
  pairs.map fun p => p.1.matrixFor (p.2.map .int)

theorem instancesOf_hintsOf {fs : List Fact} {pairs : List (Fact × List IntTerm)}
    (h : ∀ p ∈ pairs, p.1 ∈ fs) : InstancesOf fs (hintsOf pairs) := by
  intro e he
  obtain ⟨p, hp, rfl⟩ := List.mem_map.1 he
  exact ⟨p.1, h p hp, _, rfl⟩

section Parts

variable {V : View}

theorem runs_instances (pairs : List (Fact × List IntTerm)) :
    Runs (instances pairs) V [] fun hs V' => hs = hintsOf pairs ∧ V' = V := by
  induction pairs with
  | nil => exact runs_pure []
  | cons p rest ih =>
      unfold instances at *
      rw [List.mapM_cons]
      refine (runs_require _).next fun e W h => ?_
      obtain ⟨he, rfl⟩ := h
      refine ⟨.refl _, ih.next fun es W h => ?_⟩
      obtain ⟨rfl, rfl⟩ := h
      refine ⟨.refl _, (runs_pure _).mono fun hs W h => ?_⟩
      obtain ⟨rfl, rfl⟩ := h
      rw [Fact.eq_matrixFor (ok_of_mapError he)]
      exact ⟨rfl, rfl⟩

/-- The dynamics of a step assumed inside a layer. -/
theorem runs_assumeDynamics (hV : V.frames ≠ []) (v : Vocabulary) (k k2 : IntTerm)
    (layer : String) :
    Runs (do
      let t ← require (v.transition (.ofInts k k2 layer))
      assumeFact t
      return t) V [] fun t V' =>
      t = { v.dynamics k k2 with step := some (.ofInts k k2 layer) } ∧
        V' = V.add [(v.dynamics k k2).assertion] := by
  refine (runs_require _).next fun t W h => ?_
  obtain ⟨ht, rfl⟩ := h
  rw [eq_dynamics ht]
  refine ⟨.refl _, ((runs_assumeFact hV _).returning _).mono fun t W h => ?_⟩
  obtain ⟨rfl, _, rfl⟩ := h
  exact ⟨rfl, rfl⟩

end Parts

/-! ### Claims by a single query -/

section Single

variable {V : View} {claim : Fact} {known : List Fact}

/-- The query of a claim with instances of known facts for hints. -/
def PlainQueries (V : View) (claim : Fact) (known : List Fact) (l : List Query) : Prop :=
  ∃ hs, InstancesOf known hs ∧ l = [V.refutes claim [] hs]

/-- A claim by a single query with instances of known facts for hints. -/
theorem poses_prove (hV : V.frames = []) {rule : String}
    {pairs : List Symbol → List (Fact × List IntTerm)}
    (hpairs : ∀ p ∈ pairs (claim.witnesses V.issued), p.1 ∈ known) :
    Poses (do
      prove claim rule (fun ws => instances (pairs ws)) true
      return claim) V (PlainQueries V claim known) fun f V' =>
        f = claim ∧ V' = (V.declare claim.vars.length).commit claim := by
  refine ⟨_, ⟨_, instancesOf_hintsOf hpairs, rfl⟩, ?_⟩
  refine ((runs_prove_plain (runs_instances _)).returning claim).mono fun f V' h => ?_
  obtain ⟨rfl, _, rfl⟩ := h
  exact ⟨rfl, View.conclude_of_nil (V := V.declare _) hV f⟩

/-- The first witness of a claim, if that is an integer. -/
def firstStep (V : View) (claim : Fact) : IntTerm :=
  witness (claim.witnesses V.issued) 0

/-- The second witness of a claim, if that is an integer. -/
def secondStep (V : View) (claim : Fact) : IntTerm :=
  witness (claim.witnesses V.issued) 1

/-- The dynamics of the step that a claim is about, whose first variables are the step and its
successor. -/
def stepDynamics (v : Vocabulary) (V : View) (claim : Fact) : Fact :=
  v.dynamics (firstStep V claim) (secondStep V claim)

/-- The query of a claim about a step and its successor, under their dynamics. -/
def StepQueries (v : Vocabulary) (V : View) (claim : Fact) (known : List Fact) (l : List Query) :
    Prop :=
  ∃ hs, InstancesOf (stepDynamics v V claim :: known) hs ∧
    l = [V.refutes claim [(stepDynamics v V claim).assertion] hs]

/-- A claim about a step and its successor, under their dynamics. -/
theorem poses_provingStep {v : Vocabulary} (hV : V.frames = []) {rule : String}
    {pairs : Goal → Fact → List (Fact × List IntTerm)}
    (hlayer : ∀ layer s, hintsOf (pairs ⟨claim, rule, claim.witnesses V.issued, layer⟩
        { stepDynamics v V claim with step := s }) =
      hintsOf (pairs ⟨claim, rule, claim.witnesses V.issued, .bottom⟩ (stepDynamics v V claim)))
    (hpairs : ∀ p ∈ pairs ⟨claim, rule, claim.witnesses V.issued, .bottom⟩ (stepDynamics v V claim),
      p.1 ∈ stepDynamics v V claim :: known) :
    Poses (do
      proving claim rule true fun g => do
        let t ← assumeTransition v g
        let hints ← instances (pairs g t)
        let _ ← discharge g hints
      return claim) V (StepQueries v V claim known) fun f V' =>
        f = claim ∧ V' = (V.declare claim.vars.length).commit claim := by
  refine ⟨_, ⟨_, instancesOf_hintsOf hpairs, rfl⟩, ?_⟩
  refine ((runs_proving (n := 0) (l := []) fun layer => ?_).returning claim).mono fun f V' h => ?_
  · refine .next (runs_assumeDynamics (List.cons_ne_nil _ _) v _ _ _) fun t W h => ?_
    obtain ⟨rfl, rfl⟩ := h
    refine ⟨sameBase_add _, .next (runs_instances _) fun hs' V' h => ?_⟩
    obtain ⟨rfl, rfl⟩ := h
    rw [← hlayer layer (some (.ofInts (firstStep V claim) (secondStep V claim) layer.name))]
    exact ⟨.refl _, discharges_refutes claim rule [(stepDynamics v V claim).assertion] _ 0⟩
  · obtain ⟨rfl, _, rfl⟩ := h
    exact ⟨rfl, View.conclude_of_nil (V := V.declare _) hV f⟩

end Single

section Steps

variable {v : Vocabulary} {V : View}

/-! ### The invariant -/

/-- The number of the constant for the step of the induction. -/
def invariantStep (V : View) : Nat :=
  V.issued + 1

/-- The invariant of an integer, or of the integer that a formula stands for. -/
def invariantOf (t : AnyTerm) : Fact :=
  stateInvariant t.toInt

/-- The dynamics of the step of the induction. -/
def invariantDynamics (v : Vocabulary) (V : View) : Fact :=
  v.dynamics (stepTerm (invariantStep V)) (nextTerm (invariantStep V))

/-- The base case and the successor step of the invariant. -/
def InvariantQueries (v : Vocabulary) (V : View) (known : List Fact) (l : List Query) : Prop :=
  let n := invariantStep V
  let name := "state-invariant"
  let lower := AnyTerm.int (.num 0)
  ∃ bs hs, InstancesOf known bs ∧
    InstancesOf (invariantDynamics v V :: hypothesis name invariantOf n :: known) hs ∧
    l = [V.refutes (baseCase name invariantOf lower) [] bs,
      (V.stepping name invariantOf lower n).refutes (successorCase name invariantOf n)
        [(invariantDynamics v V).assertion] hs]

theorem poses_proveStateInvariant (hV : V.frames = []) (h : V.Has baseFacts) :
    Poses (proveStateInvariant v) V (InvariantQueries v V baseFacts) fun f V' =>
      f = stateInvariantFact ∧ V' = (V.declare 4).commit stateInvariantFact := by
  refine .known hV h initialState (by simp [baseFacts]) ?_
  refine .known hV h rightNeighbor (by simp [baseFacts]) ?_
  let n := invariantStep V
  let start := baseCase "state-invariant" invariantOf (.int (.num 0))
  let first := witness (start.witnesses V.issued) 0
  let i := witness ((successorCase "state-invariant" invariantOf n).witnesses (n + 2)) 0
  let starts := [(initialState, [first])]
  let pairs := fun t => [(t, [i]), (rightNeighbor, [i]),
    (hypothesis "state-invariant" invariantOf n, [i]),
    (hypothesis "state-invariant" invariantOf n, [right i])]
  have hstarts : InstancesOf baseFacts (hintsOf starts) :=
    instancesOf_hintsOf (by simp [starts, baseFacts])
  have hpairs : InstancesOf
      (invariantDynamics v V :: hypothesis "state-invariant" invariantOf n :: baseFacts)
      (hintsOf (pairs (invariantDynamics v V))) :=
    instancesOf_hintsOf (by simp [pairs, baseFacts])
  refine ⟨_, ⟨_, _, hstarts, hpairs, rfl⟩, ?_⟩
  refine (runs_twoStep (n := n) none rfl (runs_instances _) fun layer => ?_).mono fun f V' h => ?_
  · refine (runs_require _).next fun t W h => ?_
    obtain ⟨ht, rfl⟩ := h
    rw [eq_dynamics ht]
    refine ⟨.refl _, (runs_assumeFact (List.cons_ne_nil _ _) _).next fun _ W h => ?_⟩
    subst h
    refine ⟨sameBase_add _, (runs_instances _).mono fun hs' V' h => ?_⟩
    obtain ⟨rfl, rfl⟩ := h
    exact ⟨rfl, rfl⟩
  · obtain ⟨rfl, rfl⟩ := h
    exact ⟨rfl, View.conclude_of_nil (V := V.declare 4) hV stateInvariantFact⟩

/-! ### Monotonicity -/

theorem poses_proveMaxNonincreasing (hV : V.frames = [])
    (h : V.Has (baseFacts ++ [stateInvariantFact])) :
    Poses (proveMaxNonincreasing v) V
      (StepQueries v V maxNonincreasing (baseFacts ++ [stateInvariantFact])) fun f V' =>
        f = maxNonincreasing ∧ V' = (V.declare 2).commit maxNonincreasing := by
  refine .known hV h rightNeighbor (by simp [baseFacts]) ?_
  refine .known hV h stateInvariantFact (by simp) ?_
  refine .known hV h maxChildExists (by simp [baseFacts]) ?_
  refine .known hV h maxDominates (by simp [baseFacts]) ?_
  exact poses_provingStep hV (fun _ _ => rfl) (by simp [baseFacts])

theorem poses_proveMinNondecreasing (hV : V.frames = []) (h : V.Has baseFacts) :
    Poses (proveMinNondecreasing v) V (StepQueries v V minNondecreasing baseFacts) fun f V' =>
      f = minNondecreasing ∧ V' = (V.declare 2).commit minNondecreasing := by
  refine .known hV h rightNeighbor (by simp [baseFacts]) ?_
  refine .known hV h minChildExists (by simp [baseFacts]) ?_
  refine .known hV h minDominated (by simp [baseFacts]) ?_
  exact poses_provingStep hV (fun _ _ => rfl) (by simp [baseFacts])

theorem poses_proveAboveMinStaysAbove (hV : V.frames = [])
    (h : V.Has (baseFacts ++ [stateInvariantFact])) :
    Poses (proveAboveMinStaysAbove v) V
      (StepQueries v V aboveMinStaysAbove (baseFacts ++ [stateInvariantFact])) fun f V' =>
        f = aboveMinStaysAbove ∧ V' = (V.declare 3).commit aboveMinStaysAbove := by
  refine .known hV h rightNeighbor (by simp [baseFacts]) ?_
  refine .known hV h stateInvariantFact (by simp) ?_
  refine .known hV h minChildExists (by simp [baseFacts]) ?_
  refine .known hV h minDominated (by simp [baseFacts]) ?_
  exact poses_provingStep hV (fun _ _ => rfl) (by simp [baseFacts])

theorem poses_proveGainsFromRicherNeighbor (hV : V.frames = [])
    (h : V.Has (baseFacts ++ [stateInvariantFact])) :
    Poses (proveGainsFromRicherNeighbor v) V
      (StepQueries v V gainsFromRicherNeighbor (baseFacts ++ [stateInvariantFact])) fun f V' =>
        f = gainsFromRicherNeighbor ∧ V' = (V.declare 3).commit gainsFromRicherNeighbor := by
  refine .known hV h rightNeighbor (by simp [baseFacts]) ?_
  refine .known hV h stateInvariantFact (by simp) ?_
  exact poses_provingStep hV (fun _ _ => rfl) (by simp [baseFacts])

theorem poses_proveVariantBounded (hV : V.frames = []) (h : V.Has baseFacts) :
    Poses proveVariantBounded V (PlainQueries V variantBounded baseFacts) fun f V' =>
      f = variantBounded ∧ V' = (V.declare 1).commit variantBounded := by
  refine .known hV h minChildExists (by simp [baseFacts]) ?_
  refine .known hV h maxChildExists (by simp [baseFacts]) ?_
  refine .known hV h maxDominates (by simp [baseFacts]) ?_
  refine .known hV h histogramNonneg (by simp [baseFacts]) ?_
  exact poses_prove hV (by simp [baseFacts])

/-! ### Fewer children hold the least count -/

/-- The claim that the least count of a step spreads, of the child of an integer. -/
def spreadOf (name : String) (k : IntTerm) (x : AnyTerm) : Fact :=
  holdsMin name k x.toInt

/-- The view in which it is assumed that no child with the least count sits left of a richer one. -/
def assumingNone (V : View) (k : IntTerm) : View :=
  (V.refuting (boundary k)).add [(noBoundary k).assertion]

/-- The view once the least count spreads from the poorest child up to the last one. -/
def sweptOver (V : View) (k : IntTerm) : View :=
  ((assumingNone V k).declare 2).add
    [(spreadFact "histogram-decrease/sweep" k (minChild k)).assertion]

/-- What spreads inside the proof that some child sits left of a richer one. -/
def spreadAssertions (k : IntTerm) : List Assertion :=
  [(noBoundary k).assertion, (spreadFact "histogram-decrease/sweep" k (minChild k)).assertion,
    (spreadFact "histogram-decrease/wrap" k (.num 1)).assertion]

/-- The queries of the proof that some child with the least count sits left of a richer one: two for
each of the inductions that spread the least count, and the one about the claim. -/
def BoundaryQueries (V : View) (k : IntTerm) (known : List Fact) (l : List Query) : Prop :=
  let sweep := "histogram-decrease/sweep"
  let wrap := "histogram-decrease/wrap"
  let V₁ := assumingNone V k
  let V₂ := sweptOver V k
  ∃ hs₁ hs₂ hs₃ hs₄,
    InstancesOf (noBoundary k :: known) hs₁ ∧
    InstancesOf (noBoundary k :: spreadFact sweep k (minChild k) :: known) hs₂ ∧
    InstancesOf (noBoundary k :: known) hs₃ ∧
    InstancesOf (spreadFact wrap k (.num 1) :: known) hs₄ ∧
    l =
      [V₁.refutes (baseCase sweep (spreadOf sweep k) (.int (minChild k))) [] [],
        (V₁.stepping sweep (spreadOf sweep k) (.int (minChild k)) V₁.issued).refutes
          (successorCase sweep (spreadOf sweep k) V₁.issued) [] hs₁,
        V₂.refutes (baseCase wrap (spreadOf wrap k) (.int (.num 1))) [] hs₂,
        (V₂.stepping wrap (spreadOf wrap k) (.int (.num 1)) V₂.issued).refutes
          (successorCase wrap (spreadOf wrap k) V₂.issued) [] hs₃,
        V.refutes (boundary k) (spreadAssertions k) hs₄]

theorem poses_proveBoundary (hV : V.frames ≠ []) (k j : IntTerm) {known : List Fact}
    (hright : rightNeighbor ∈ known) (hmin : minChildExists ∈ known)
    (hdominated : minDominated ∈ known) :
    Poses (proveBoundary k j rightNeighbor minChildExists minDominated) V
      (BoundaryQueries V k known) fun _ V' => V' = (V.declare 4).add [(boundary k).assertion] := by
  let V₁ := assumingNone V k
  let V₂ := sweptOver V k
  let sweep := spreadFact "histogram-decrease/sweep" k (minChild k)
  let wrap := spreadFact "histogram-decrease/wrap" k (.num 1)
  let propagate := fun x => [(minChildExists, [k]), (noBoundary k, [x]), (rightNeighbor, [x]),
    (minDominated, [k, right x])]
  let wraps := [(minChildExists, [k]), (sweep, [N]), (noBoundary k, [N]), (rightNeighbor, [N]),
    (minDominated, [k, right N])]
  have hpropagate (n : Nat) : InstancesOf (noBoundary k :: known)
      (hintsOf (propagate (stepTerm n))) :=
    instancesOf_hintsOf (by simp [propagate, hright, hmin, hdominated])
  have hwraps : InstancesOf (noBoundary k :: sweep :: known) (hintsOf wraps) :=
    instancesOf_hintsOf (by simp [wraps, hright, hmin, hdominated])
  have hlast : InstancesOf (wrap :: known) (hintsOf [(wrap, [j])]) :=
    instancesOf_hintsOf (by simp)
  refine ⟨_, ⟨_, _, _, _, hpropagate V₁.issued, hwraps, hpropagate V₂.issued, hlast, rfl⟩, ?_⟩
  refine (runs_proving (n := 4) (l := [_, _, _, _]) fun layer => ?_).mono fun _ V' h => ?_
  · refine .next (runs_assumeFact (List.cons_ne_nil _ _) _) fun _ W h => ?_
    subst h
    refine ⟨sameBase_add _, .after [_, _] [_, _] (runs_twoStep (n := V₁.issued) none rfl
      (runs_pure []) fun layer => ?_) fun f W h => ?_⟩
    · rw [← add_nil (V := View.refuting _ _) (List.cons_ne_nil _ _)]
      exact runs_instances _
    obtain ⟨rfl, rfl⟩ := h
    refine ⟨⟨rfl, rfl, rfl⟩, .after [_, _] [] (runs_twoStep (V := V₂) (n := V₂.issued) none rfl
      (runs_instances _) fun layer => ?_) fun f W h => ?_⟩
    · rw [← add_nil (V := View.refuting _ _) (List.cons_ne_nil _ _)]
      exact runs_instances _
    obtain ⟨rfl, rfl⟩ := h
    refine ⟨⟨rfl, rfl, rfl⟩, .next (runs_instances _) fun hs W h => ?_⟩
    obtain ⟨rfl, rfl⟩ := h
    exact ⟨.refl _, discharges_refutes (boundary k) _ (spreadAssertions k) _ 4⟩
  · subst h
    obtain ⟨top, outer, hframes⟩ := List.exists_cons_of_ne_nil hV
    simp [View.conclude, View.declare, hframes, boundary, Fact.plain]

/-- The child that fewer children are about: its constant. -/
def richChild (V : View) : IntTerm :=
  witness (histogramDecrease.witnesses V.issued) 2

/-- The view in which there is a child with the least count left of a richer one. -/
def withBoundary (V : View) : View :=
  (((V.refuting histogramDecrease).declare 4).add
    [(boundary (firstStep V histogramDecrease)).assertion]).declare 1

/-- The constant for such a child. -/
def boundaryChild (V : View) : IntTerm :=
  .int (Context.freshName "b" (V.issued + 7))

/-- What is said of it. -/
def boundaryAssertion (V : View) : Assertion :=
  { formula := isBoundary (firstStep V histogramDecrease) (boundaryChild V)
    label := "boundary witness" }

/-- No child enters the least count. -/
def noEntryClaim (V : View) : Fact :=
  noEntryFact (min2 (firstStep V histogramDecrease)) (firstStep V histogramDecrease)
    (secondStep V histogramDecrease) "histogram-decrease/no-entry"

/-- The queries about a child left of a richer one, about the others, and about the claim. -/
def HistogramQueries (V : View) (known : List Fact) (l : List Query) : Prop :=
  let k := firstStep V histogramDecrease
  ∃ l₁ hs₁ hs₂, BoundaryQueries (V.refuting histogramDecrease) k known l₁ ∧
    InstancesOf known hs₁ ∧ InstancesOf known hs₂ ∧
    l = l₁ ++
      [((withBoundary V).add [boundaryAssertion V]).refutes (noEntryClaim V) [] hs₁,
        V.refutes histogramDecrease
          [(boundary k).assertion, boundaryAssertion V, (noEntryClaim V).assertion] hs₂]

theorem poses_proveHistogramDecrease (hV : V.frames = [])
    (h : V.Has (baseFacts ++ [aboveMinStaysAbove, gainsFromRicherNeighbor])) :
    Poses proveHistogramDecrease V
      (HistogramQueries V (baseFacts ++ [aboveMinStaysAbove, gainsFromRicherNeighbor])) fun f V' =>
        f = histogramDecrease ∧ V' = (V.declare 9).commit histogramDecrease := by
  refine .known hV h rightNeighbor (by simp [baseFacts]) ?_
  refine .known hV h minChildExists (by simp [baseFacts]) ?_
  refine .known hV h minDominated (by simp [baseFacts]) ?_
  refine .known hV h aboveMinStaysAbove (by simp) ?_
  refine .known hV h gainsFromRicherNeighbor (by simp) ?_
  refine .known hV h histogramLeaves (by simp [baseFacts]) ?_
  let V₁ := V.refuting histogramDecrease
  let k0 := firstStep V histogramDecrease
  let k1 := secondStep V histogramDecrease
  let b := boundaryChild V
  let j := witness ((noEntryClaim V).witnesses (V.issued + 8)) 0
  let entering := [(minDominated, [k0, j]), (aboveMinStaysAbove, [k0, k1, j])]
  let leaving := [(gainsFromRicherNeighbor, [k0, k1, b]), (histogramLeaves, [k0, k1, min2 k0, b])]
  have hentering : InstancesOf (baseFacts ++ [aboveMinStaysAbove, gainsFromRicherNeighbor])
      (hintsOf entering) :=
    instancesOf_hintsOf (by simp [entering, baseFacts])
  have hleaving : InstancesOf (baseFacts ++ [aboveMinStaysAbove, gainsFromRicherNeighbor])
      (hintsOf leaving) :=
    instancesOf_hintsOf (by simp [leaving, baseFacts])
  have hmem (f : Fact) (hf : f ∈ baseFacts) :
      f ∈ baseFacts ++ [aboveMinStaysAbove, gainsFromRicherNeighbor] := List.mem_append_left _ hf
  -- the proof about the child left of a richer one runs inside the layer of the claim
  obtain ⟨l, hl, hboundary⟩ := poses_proveBoundary (V := V₁) (List.cons_ne_nil _ _) k0 (richChild V)
    (hmem rightNeighbor (by simp [baseFacts])) (hmem minChildExists (by simp [baseFacts]))
    (hmem minDominated (by simp [baseFacts]))
  refine ⟨_, ⟨l, _, _, hl, hentering, hleaving, rfl⟩, ?_⟩
  rw [List.append_cons]
  refine ((runs_proving (n := 6) fun layer => ?_).returning _).mono fun f V' h => ?_
  · refine .after l [_] hboundary fun _ W h => ?_
    subst h
    refine ⟨⟨rfl, rfl, rfl⟩, .next (runs_declare "b" .int) fun w W h => ?_⟩
    obtain ⟨rfl, rfl⟩ := h
    refine ⟨⟨rfl, rfl, rfl⟩, .next (runs_assume (List.cons_ne_nil _ _) _ _) fun _ W h => ?_⟩
    subst h
    refine ⟨sameBase_add _, .after [_] [] (runs_prove_plain (runs_instances _)) fun _ W h => ?_⟩
    subst h
    refine ⟨⟨rfl, rfl, rfl⟩, .next (runs_instances _) fun hs W h => ?_⟩
    obtain ⟨rfl, rfl⟩ := h
    exact ⟨.refl _, discharges_refutes histogramDecrease _
      [(boundary k0).assertion, boundaryAssertion V, (noEntryClaim V).assertion] _ 6⟩
  · obtain ⟨rfl, _, rfl⟩ := h
    exact ⟨rfl, View.conclude_of_nil (V := V.declare 9) hV histogramDecrease⟩

/-! ### Convergence -/

/-- The number of the first constant of the pair of the induction. -/
def convergencePair (V : View) : Nat :=
  V.issued + 1

/-- The step that comes after the one that the claim about the pair is about. -/
def convergenceNext (V : View) : IntTerm :=
  .int (Context.freshName "k_next" (convergencePair V + 3))

/-- The step that the claim about the pair is about. -/
def convergenceStep (V : View) : IntTerm :=
  .int (Context.freshName "k" (convergencePair V + 2))

/-- The queries about the least pair, and about all pairs. -/
def ConvergenceQueries (V : View) (known : List Fact) (l : List Query) : Prop :=
  let n := convergencePair V
  let name := "eventual-convergence"
  ∃ bs hs, InstancesOf (neverConverged :: known) bs ∧
    InstancesOf (neverConverged ::
      smallerHypothesis name (pairTerm n) (eventualConvergence (.named "u1" "u2")) :: known) hs ∧
    l = [V.refutes (leastCase name eventualConvergence) [] bs,
      (V.descending name eventualConvergence n).refutes (pairCase name eventualConvergence n)
        [{ formula := isSuccessor (convergenceNext V) (convergenceStep V)
           label := "k_next = k + 1" }] hs]

theorem poses_proveEventualConvergence (hV : V.frames = [])
    (h : V.Has (baseFacts ++ [variantBounded, lexDecrease])) :
    Poses proveEventualConvergence V
      (ConvergenceQueries V (baseFacts ++ [variantBounded, lexDecrease])) fun f V' =>
        f = eventualConvergenceFact ∧ V' = (V.declare 5).commit eventualConvergenceFact := by
  refine .known hV h maxChildExists (by simp [baseFacts]) ?_
  refine .known hV h minChildExists (by simp [baseFacts]) ?_
  refine .known hV h minDominated (by simp [baseFacts]) ?_
  refine .known hV h lexDecrease (by simp) ?_
  refine .known hV h variantBounded (by simp) ?_
  let n := convergencePair V
  let smaller := smallerHypothesis "eventual-convergence" (pairTerm n)
    (eventualConvergence (.named "u1" "u2"))
  let least := witness ((leastCase "eventual-convergence" eventualConvergence).witnesses V.issued) 0
  let k0 := convergenceStep V
  let k1 := convergenceNext V
  let starts := [(neverConverged, [least])]
  let pairs := [(neverConverged, [k0]), (maxChildExists, [k0]), (minChildExists, [k0]),
    (minDominated, [k0, maxChild k0]), (lexDecrease, [k0, k1, maxChild k0]),
    (variantBounded, [k1]), (smaller, [(variant k1).1, (variant k1).2, k1])]
  have hstarts : InstancesOf (neverConverged :: (baseFacts ++ [variantBounded, lexDecrease]))
      (hintsOf starts) :=
    instancesOf_hintsOf (by simp [starts])
  have hpairs : InstancesOf
      (neverConverged :: smaller :: (baseFacts ++ [variantBounded, lexDecrease]))
      (hintsOf pairs) :=
    instancesOf_hintsOf (by simp [pairs, baseFacts])
  refine ⟨_, ⟨_, _, hstarts, hpairs, rfl⟩, ?_⟩
  refine (runs_wellFounded (n := n) (d := 1) rfl (runs_instances _) ?_).mono fun f V' h => ?_
  · refine (runs_declare "k_next" .int).next fun next W h => ?_
    obtain ⟨rfl, rfl⟩ := h
    refine ⟨⟨rfl, rfl, rfl⟩, (runs_assume (List.cons_ne_nil _ _) _ _).next fun _ W h => ?_⟩
    subst h
    refine ⟨sameBase_add _, (runs_instances _).mono fun hs' V' h => ?_⟩
    obtain ⟨rfl, rfl⟩ := h
    exact ⟨rfl, rfl⟩
  · obtain ⟨rfl, rfl⟩ := h
    exact ⟨rfl, View.conclude_of_nil (V := V.declare 5) hV eventualConvergenceFact⟩

theorem poses_proveLexDecrease (hV : V.frames = [])
    (h : V.Has (baseFacts ++ [maxNonincreasing, minNondecreasing, histogramDecrease])) :
    Poses proveLexDecrease V
      (PlainQueries V lexDecrease
        (baseFacts ++ [maxNonincreasing, minNondecreasing, histogramDecrease])) fun f V' =>
        f = lexDecrease ∧ V' = (V.declare 3).commit lexDecrease := by
  refine .known hV h maxNonincreasing (by simp) ?_
  refine .known hV h minNondecreasing (by simp) ?_
  refine .known hV h histogramDecrease (by simp) ?_
  exact poses_prove hV (by simp)

theorem poses_proveConvergence (hV : V.frames = [])
    (h : V.Has (baseFacts ++ [variantBounded, eventualConvergenceFact])) :
    Poses proveConvergence V
      (PlainQueries V convergence (baseFacts ++ [variantBounded, eventualConvergenceFact]))
      fun f V' => f = convergence ∧ V' = (V.declare 0).commit convergence := by
  refine .known hV h variantBounded (by simp) ?_
  refine .known hV h eventualConvergenceFact (by simp) ?_
  exact poses_prove hV (by simp)

theorem poses_proveUniformAtConvergence (hV : V.frames = []) (h : V.Has baseFacts) :
    Poses proveUniformAtConvergence V (PlainQueries V uniformAtConvergence baseFacts) fun f V' =>
      f = uniformAtConvergence ∧ V' = (V.declare 2).commit uniformAtConvergence := by
  refine .known hV h maxDominates (by simp [baseFacts]) ?_
  refine .known hV h minDominated (by simp [baseFacts]) ?_
  exact poses_prove hV (by simp [baseFacts])

end Steps

end Plan

end CandyCircle
