/-
**Properties of proofs that are closed.**

Proofs are put together from few parts: facts are looked up, constants are declared, formulas and
facts are assumed, goals are discharged, claims are established, and facts are concluded, one after
another and inside layers.  A property of proofs that is closed under these parts holds of the
induction schemes, too.

Main definitions:

* `CandyCircle.Proof.Closed` — **a property of proofs is closed** under the parts of proofs.

Main results:

* `CandyCircle.Proof.Closed.prove`, `CandyCircle.Proof.Closed.twoStep`,
  `CandyCircle.Proof.Closed.wellFounded` — such a property holds of claims and inductions.
-/
import CandyCircle.Refutation.Induction

set_option autoImplicit false

namespace CandyCircle.Proof

open Logic

/-- **A property `P` of proofs is closed** under the parts that proofs are put together from, where
`J` is a property of what discharges a goal. -/
structure Closed (P : {α : Type} → ProofM α → Prop) (J : Goal → ProofM Unit → Prop) : Prop where
  pure : ∀ {α : Type} (a : α), P (Pure.pure a : ProofM α)
  bind : ∀ {α β : Type} {p : ProofM α} {f : α → ProofM β}, P p → (∀ a, P (f a)) → P (p >>= f)
  require : ∀ {α : Type} (r : Except Failure α), P (require r : ProofM α)
  /-- The name of the innermost layer may be looked at. -/
  layer : P (look fun c => c.current.name : ProofM String)
  fact : ∀ name, P (fact name : ProofM Fact)
  declare : ∀ stem kind, P (declare stem kind : ProofM Symbol)
  assume : ∀ f label, P (assume f label : ProofM Unit)
  assumeFact : ∀ f, P (assumeFact f : ProofM Unit)
  conclude : ∀ f, P (conclude f : ProofM Unit)
  scope : ∀ {α : Type} {name : String} {body : Layer → ProofM α}, (∀ layer, P (body layer)) →
    P (scope name body)
  /-- A goal may be prepared before it is discharged. -/
  prepare : ∀ {α : Type} {g : Goal} {p : ProofM α} {f : α → ProofM Unit}, P p →
    (∀ a, J g (f a)) → J g (p >>= f)
  discharge : ∀ (g : Goal) (hints : List Formula),
    J g (discharge g hints >>= fun _ => Pure.pure ())
  proving : ∀ {claim : Fact} {rule : String} {concluding : Bool} {body : Goal → ProofM Unit},
    (∀ g, J g (body g)) → P (proving claim rule concluding body)

namespace Closed

variable {P : {α : Type} → ProofM α → Prop} {J : Goal → ProofM Unit → Prop}

/-- A claim, if building its hints has the property. -/
theorem prove (h : Closed P J) {claim : Fact} {rule : String} {concluding : Bool}
    {hints : HintsT Id} (hhints : ∀ ws, P (hints ws)) :
    P (prove claim rule hints concluding) :=
  h.proving fun g => h.prepare (hhints g.witnesses) fun hs => h.discharge g hs

theorem requireGuard (h : Closed P J) (shape : Fact) : P (Induction.requireGuard shape) :=
  h.bind (h.require _) fun _ => h.pure ()

/-- **Two-step induction**, if building claims and hints has the property. -/
theorem twoStep (h : Closed P J) {name : String} {claim : AnyTerm → ProofM Fact} {lower : AnyTerm}
    {baseHints : HintsT Id} {stepHints : Induction.StepHintsT Id} {trigger : Option Trigger}
    (hclaim : ∀ t, P (claim t)) (hbase : ∀ ws, P (baseHints ws))
    (hstep : ∀ step hypothesis ws, P (stepHints step hypothesis ws)) :
    P (Induction.twoStep name claim lower baseHints stepHints trigger) := by
  refine h.bind (hclaim lower) fun base => h.bind (h.prove hbase) fun _ =>
    h.bind (h.scope fun _ => ?_) fun _ => h.bind (hclaim _) fun shape =>
    h.bind (h.requireGuard shape) fun _ => h.bind (h.require _) fun conclusion =>
    h.bind (h.conclude conclusion) fun _ => h.pure _
  -- the layer of the successor step
  refine h.bind ?_ fun step => h.bind ?_ fun _ => h.bind (hclaim step.k) fun hypothesis =>
    h.bind (h.assumeFact _) fun _ => h.bind (hclaim step.next) fun successor =>
    h.prove (hstep step _)
  · exact h.bind (h.declare _ _) fun k => h.bind (h.declare _ _) fun next =>
      h.bind h.layer fun layer => h.pure _
  · exact h.bind (h.assume _ _) fun _ => h.assume _ _

/-- **Well-founded induction**, if building claims and hints has the property. -/
theorem wellFounded (h : Closed P J) {name : String} {claim : Pair → ProofM Fact}
    {stepHints : Induction.PairHintsT Id} {baseHints : Option (HintsT Id)}
    (hclaim : ∀ p, P (claim p)) (hbase : ∀ hints ∈ baseHints, ∀ ws, P (hints ws))
    (hstep : ∀ v hypothesis ws, P (stepHints v hypothesis ws)) :
    P (Induction.wellFounded name claim stepHints baseHints) := by
  have hpart : P (Induction.wellFounded name claim stepHints none) := by
    unfold Induction.wellFounded
    dsimp only
    refine h.bind (h.scope fun _ => ?_) fun _ => h.bind (hclaim _) fun shape =>
      h.bind (h.requireGuard shape) fun _ => h.bind (h.conclude _) fun _ => h.pure _
    -- the layer of the pair
    refine h.bind (h.declare _ _) fun v1 => h.bind (h.declare _ _) fun v2 => ?_
    refine h.bind (h.assume _ _) fun _ => h.bind (hclaim _) fun smaller => ?_
    refine h.bind (h.requireGuard smaller) fun _ => h.bind (h.assumeFact _) fun _ => ?_
    exact h.bind (hclaim _) fun step => h.prove (hstep _ _)
  cases baseHints with
  | none => exact hpart
  | some hints =>
      unfold Induction.wellFounded at hpart ⊢
      dsimp only at hpart ⊢
      exact h.bind (hclaim _) fun base => h.bind (h.prove (hbase hints rfl)) fun _ => hpart

end Closed

end CandyCircle.Proof
