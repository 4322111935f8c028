/-
**Through the proofs of the plan.**

The proofs of the standard plan are put together from the parts that every proof is put together
from, and from little else: their goals are discharged by instances of facts.  So a property of
proofs that is closed under these parts holds of every step of the plan.

Main results:

* `CandyCircle.Proof.Closed.lemmas` — such a property holds of every step of the standard plan.
-/
import CandyCircle.Plan
import CandyCircle.Proofs.Refutation.Closed

set_option autoImplicit false

namespace CandyCircle.Proof.Closed

open Logic Plan

variable {P : {α : Type} → ProofM α → Prop} {J : Goal → ProofM Unit → Prop} {v : Vocabulary}

theorem instances (h : Closed P J) (pairs : List (Fact × List IntTerm)) :
    P (instances pairs) := by
  induction pairs with
  | nil => exact h.pure []
  | cons p rest ih =>
      rw [Plan.instances, List.mapM_cons]
      exact h.bind (h.require _) fun f => h.bind ih fun fs => h.pure _

/-- A known fact is looked up first. -/
theorem known (h : Closed P J) {α : Type} {name : String} {p : Fact → ProofM α}
    (hp : ∀ f, P (p f)) : P (Proof.fact name >>= p) :=
  h.bind (h.fact name) hp

theorem assumeTransition (h : Closed P J) (g : Goal) : P (assumeTransition v g) :=
  h.bind (h.require _) fun _ => h.bind (h.assumeFact _) fun _ => h.pure _

/-- A goal whose hints are instances of facts. -/
theorem dischargeInstances (h : Closed P J) (g : Goal) (pairs : List (Fact × List IntTerm)) :
    J g (do let hints ← Plan.instances pairs; let _ ← Proof.discharge g hints) :=
  h.prepare (h.instances _) fun hints => h.discharge g hints

/-- A claim by instances of facts. -/
theorem proveInstances (h : Closed P J) {claim : Fact} {rule : String} {concluding : Bool}
    {pairs : List Symbol → List (Fact × List IntTerm)} :
    P (Proof.prove claim rule (fun ws => Plan.instances (pairs ws)) concluding) :=
  h.prove fun _ => h.instances _

/-- A claim about a step whose dynamics are assumed, by instances of facts. -/
theorem provingStep (h : Closed P J) {claim : Fact}
    {pairs : Goal → Fact → List (Fact × List IntTerm)} :
    P (Proof.proving claim plainRule true (fun g => do
      let t ← Plan.assumeTransition v g
      let hints ← Plan.instances (pairs g t)
      let _ ← Proof.discharge g hints) >>= fun _ => Pure.pure claim) :=
  h.bind (h.proving fun g => h.prepare (h.assumeTransition g) fun _ => h.dischargeInstances g _)
    fun _ => h.pure _

/-! ### The steps -/

theorem proveStateInvariant (h : Closed P J) : P (proveStateInvariant v) := by
  refine h.known fun _ => h.known fun _ => ?_
  refine h.twoStep (fun t => h.pure _) (fun ws => h.instances _) fun step hypothesis ws => ?_
  exact h.bind (h.require _) fun _ => h.bind (h.assumeFact _) fun _ => h.instances _

theorem proveMaxNonincreasing (h : Closed P J) : P (proveMaxNonincreasing v) :=
  h.known fun _ => h.known fun _ => h.known fun _ => h.known fun _ => h.provingStep

theorem proveMinNondecreasing (h : Closed P J) : P (proveMinNondecreasing v) :=
  h.known fun _ => h.known fun _ => h.known fun _ => h.provingStep

theorem proveAboveMinStaysAbove (h : Closed P J) : P (proveAboveMinStaysAbove v) :=
  h.known fun _ => h.known fun _ => h.known fun _ => h.known fun _ => h.provingStep

theorem proveGainsFromRicherNeighbor (h : Closed P J) : P (proveGainsFromRicherNeighbor v) :=
  h.known fun _ => h.known fun _ => h.provingStep

theorem proveVariantBounded (h : Closed P J) : P proveVariantBounded :=
  h.known fun _ => h.known fun _ => h.known fun _ => h.known fun _ =>
    h.bind h.proveInstances fun _ => h.pure _

theorem proveBoundary (h : Closed P J) (k j : IntTerm) (rightOf minExists dominated : Fact) :
    P (proveBoundary k j rightOf minExists dominated) := by
  refine h.proving fun g => h.prepare (h.assumeFact _) fun _ => ?_
  refine h.prepare (h.twoStep (fun _ => h.pure _) (fun _ => h.pure _)
    fun _ _ _ => h.instances _) fun sweep => ?_
  refine h.prepare (h.twoStep (fun _ => h.pure _) (fun _ => h.instances _)
    fun _ _ _ => h.instances _) fun wrap => ?_
  exact h.dischargeInstances g _

theorem proveHistogramDecrease (h : Closed P J) : P proveHistogramDecrease := by
  refine h.known fun _ => h.known fun _ => h.known fun _ => ?_
  refine h.known fun _ => h.known fun _ => h.known fun _ => ?_
  refine h.bind (h.proving fun g => ?_) fun _ => h.pure _
  refine h.prepare (h.proveBoundary _ _ _ _ _) fun _ => h.prepare (h.declare _ _) fun b =>
    h.prepare (h.assume _ _) fun _ => ?_
  exact h.prepare h.proveInstances fun _ => h.dischargeInstances g _

theorem proveLexDecrease (h : Closed P J) : P proveLexDecrease :=
  h.known fun _ => h.known fun _ => h.known fun _ => h.bind h.proveInstances fun _ => h.pure _

theorem proveEventualConvergence (h : Closed P J) : P proveEventualConvergence := by
  refine h.known fun _ => h.known fun _ => h.known fun _ => h.known fun _ => h.known fun _ => ?_
  refine h.wellFounded (fun _ => h.pure _) (fun hints hhints ws => ?_) fun _ hypothesis ws => ?_
  · cases hhints
    exact h.instances _
  · exact h.bind (h.declare _ _) fun _ => h.bind (h.assume _ _) fun _ => h.instances _

theorem proveConvergence (h : Closed P J) : P proveConvergence :=
  h.known fun _ => h.known fun _ => h.bind h.proveInstances fun _ => h.pure _

theorem proveUniformAtConvergence (h : Closed P J) : P proveUniformAtConvergence :=
  h.known fun _ => h.known fun _ => h.bind h.proveInstances fun _ => h.pure _

/-- **A closed property holds of every step of the standard plan.** -/
theorem lemmas (h : Closed P J) : ∀ step ∈ Plan.lemmas, P (step.prove v) := by
  simp only [Plan.lemmas, List.forall_mem_cons, List.not_mem_nil, false_implies, implies_true,
    and_true]
  exact ⟨h.proveStateInvariant, h.proveMaxNonincreasing, h.proveMinNondecreasing,
    h.proveAboveMinStaysAbove, h.proveGainsFromRicherNeighbor, h.proveVariantBounded,
    h.proveHistogramDecrease, h.proveLexDecrease, h.proveEventualConvergence, h.proveConvergence,
    h.proveUniformAtConvergence⟩

end CandyCircle.Proof.Closed
