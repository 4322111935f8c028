/-
**Steps of a proof plan.**

A step of a plan establishes one named fact over a vocabulary.  It says which facts it requires
besides the axioms.

Main definitions:

* `CandyCircle.LemmaStep` — the type;
* `CandyCircle.Plan.instances` — instances of facts;
* `CandyCircle.Plan.assumeTransition` — the dynamics of the step that a goal is about.
-/
import CandyCircle.Refutation.Induction
import CandyCircle.Vocabulary

set_option autoImplicit false

namespace CandyCircle

open Logic

/-- One step of a proof plan. -/
structure LemmaStep where
  /-- The name of the fact that it establishes. -/
  name : String
  /-- The stage of the proof that it belongs to. -/
  stage : String
  /-- The facts that it requires besides the axioms. -/
  requires : List String
  /-- Establishes the fact. -/
  prove : Vocabulary → ProofM Fact
  /-- Whether it comes after the theorem. -/
  corollary : Bool := false

namespace Plan

open Proof

/-- Instances of facts, one after another. -/
def instances (pairs : List (Fact × List IntTerm)) : ProofM (List Formula) :=
  pairs.mapM fun p => instanceOf p.1 p.2

/-- Assumes the dynamics of the pair of steps that a goal is about, its first two witnesses. -/
def assumeTransition (v : Vocabulary) (g : Goal) : ProofM Fact := do
  let t ← require (v.transition (.ofInts (g.witness 0) (g.witness 1) g.layer.name))
  assumeFact t
  return t

end Plan

end CandyCircle
