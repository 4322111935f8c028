/-
**Induction by refutation queries.**

The solver does no induction.  Each scheme here reduces an induction principle to queries and
concludes what the principle licenses once all of them are refuted: committed at the base, and kept
as a local lemma inside another proof.

* Two-step induction: if a claim holds of a lower bound, and of `x + 1` whenever it holds of some
  `x` from the bound on, it holds of every `x` from the bound on.
* Well-founded induction over pairs of natural numbers: if a claim holds of a pair whenever it holds
  of all lexicographically smaller pairs, it holds of all pairs.

Main definitions:

* `CandyCircle.Induction.requireGuard` — refusing a claim whose guard is no formula;
* `CandyCircle.Induction.twoStep` — two-step induction;
* `CandyCircle.Pair`, `CandyCircle.Pair.domain`, `CandyCircle.Pair.lt` — pairs of natural numbers
  and their lexicographic order;
* `CandyCircle.Induction.wellFounded` — well-founded induction.
-/
import CandyCircle.Refutation.Proof

set_option autoImplicit false

namespace CandyCircle

open Logic

/-! ### Pairs -/

/-- A pair of integer terms. -/
abbrev Pair := IntTerm × IntTerm

namespace Pair

/-- Both components are natural numbers. -/
def domain (p : Pair) : Formula :=
  .all [.atLeast p.1 0, .atLeast p.2 0]

/-- A pair comes before another one lexicographically. -/
def lt (p q : Pair) : Formula :=
  .any [.compare .lt p.1 q.1, .all [.equate p.1 q.1, .compare .lt p.2 q.2]]

/-- The least pair. -/
def bottom : Pair :=
  (.num 0, .num 0)

/-- The pair of the constants of two names. -/
def named (first second : String) : Pair :=
  (.int first, .int second)

end Pair

namespace Induction

open Proof

variable {m : Type → Type} [Monad m]

/-- Refuses a claim whose guard cannot be joined with other conditions. -/
def requireGuard (shape : Fact) : ProofT m Unit := do
  let _ ← require ((Formula.conjunction [shape.guard]).mapError fun fault => .fact (.form fault))

/-! ### Two-step induction -/

/-- Hints for the successor step: from the step, the hypothesis about it, and the witnesses of the
claim about its successor. -/
abbrev StepHintsT (m : Type → Type) := Step → Fact → HintsT m

/-- What two-step induction concludes: the claim about every `x` from the lower bound on. -/
def twoStepConclusion (name : String) (lower : AnyTerm) (shape : Fact) (trigger : Option Trigger) :
    Fact :=
  { name
    vars := .int "x" :: shape.vars
    guard := .all [.compare .ge (.int "x") lower.toInt, shape.guard]
    body := shape.body
    trigger := trigger.orElse fun _ => shape.trigger
    step := none }

/-- Concludes a claim about every integer from a lower bound on, by a base case and a successor
step.  The bound may be a formula, which stands for one or zero except in the base case. -/
def twoStep (name : String) (claim : AnyTerm → ProofT m Fact) (lower : AnyTerm)
    (baseHints : HintsT m) (stepHints : StepHintsT m) (trigger : Option Trigger) :
    ProofT m Fact := do
  let base := (← claim lower).renamed (name ++ "/base")
  prove base "induction-base" baseHints false
  scope (name ++ "/step") fun _ => do
    let step ← declareStep "k"
    assumeStep step lower "k"
    let hypothesis := (← claim step.k).renamed (name ++ "/hypothesis")
    assumeFact hypothesis
    let successor := (← claim step.next).renamed (name ++ "/step")
    prove successor "induction-step" (stepHints step hypothesis) false
  let shape ← claim (.int (.int "x"))
  requireGuard shape
  let conclusion := twoStepConclusion name lower shape trigger
  let conclusion ← require (conclusion.checked.mapError .fact)
  conclude conclusion
  return conclusion

/-! ### Well-founded induction -/

/-- Hints for the step: from the pair, the hypothesis about smaller pairs, and the witnesses of the
claim about the pair. -/
abbrev PairHintsT (m : Type → Type) := Pair → Fact → HintsT m

/-- The hypothesis that a claim holds of all pairs smaller than `v`.  It has no trigger, since the
pair occurs only under arithmetic. -/
def smallerHypothesis (name : String) (v : Pair) (shape : Fact) : Fact :=
  let u := Pair.named "u1" "u2"
  { name := name ++ "/hypothesis"
    vars := .int "u1" :: .int "u2" :: shape.vars
    guard := .all [u.domain, u.lt v, shape.guard]
    body := shape.body
    trigger := none
    step := none }

/-- What well-founded induction concludes: the claim about all pairs. -/
def wellFoundedConclusion (name : String) (shape : Fact) : Fact :=
  let w := Pair.named "w1" "w2"
  { name
    vars := .int "w1" :: .int "w2" :: shape.vars
    guard := .all [w.domain, shape.guard]
    body := shape.body
    trigger := none
    step := none }

/-- Concludes a claim about all pairs of natural numbers.  With hints for it, the least pair is
queried on its own first. -/
def wellFounded (name : String) (claim : Pair → ProofT m Fact) (stepHints : PairHintsT m)
    (baseHints : Option (HintsT m)) : ProofT m Fact := do
  match baseHints with
  | none => pure ()
  | some hints =>
      let base := (← claim Pair.bottom).renamed (name ++ "/base")
      prove base "well-founded-base" hints false
  scope (name ++ "/step") fun _ => do
    let v1 ← declare "v1" .int
    let v2 ← declare "v2" .int
    let v := Pair.named v1.name v2.name
    assume v.domain (name ++ " domain")
    let smaller ← claim (Pair.named "u1" "u2")
    requireGuard smaller
    let hypothesis := smallerHypothesis name v smaller
    assumeFact hypothesis
    let step := (← claim v).renamed (name ++ "/step")
    proving step "well-founded-step" false fun g => do
      let _ ← discharge g (← stepHints v hypothesis g.witnesses)
  let shape ← claim (Pair.named "w1" "w2")
  requireGuard shape
  let conclusion := wellFoundedConclusion name shape
  conclude conclusion
  return conclusion

end Induction

end CandyCircle
