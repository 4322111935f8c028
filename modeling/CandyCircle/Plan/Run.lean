/-
**Running a plan.**

A run commits the base facts and then takes the steps of the plan strictly in order.  A step is
taken only if the facts that it requires are visible, and it has to leave no layer open.  The first
step that fails ends the run.

Main definitions:

* `CandyCircle.Plan.chosen` — the steps that a run takes under given options;
* `CandyCircle.Plan.assertAxioms`, `CandyCircle.Plan.runStep` — the base facts, and one step;
* `CandyCircle.Plan.run` — the whole run, and its report.
-/
import CandyCircle.Plan
import CandyCircle.Report

set_option autoImplicit false

namespace CandyCircle.Plan

open Proof

/-- The steps that a run takes: those of the given plan, or of the standard one if it has none, and
without the corollaries if the options say so. -/
def chosen (steps : List LemmaStep) (s : Settings.Options) : List LemmaStep :=
  let plan := if steps.isEmpty then lemmas else steps
  if s.corollaries then plan else withoutCorollaries plan

/-- Commits the base facts, one after another. -/
def assertAxioms (v : Vocabulary) : ProofM Unit :=
  v.axioms.forM fun f => commit f

/-- The facts that a step requires and that are not visible. -/
def missing (c : Context) (step : LemmaStep) : List String :=
  step.requires.filter fun name => !c.hasFact name

/-- What the log says when a step begins. -/
def stepMessage (index count : Nat) (step : LemmaStep) : String :=
  "[" ++ Decimal.ofNat index ++ "/" ++ Decimal.ofNat count ++ "] " ++ step.name ++ " (" ++
    step.stage ++ ")"

/-- What the log says when a run stops. -/
def stopMessage (index : Nat) (step : LemmaStep) (e : Failure) : String :=
  "proof stopped at lemma " ++ Decimal.ofNat index ++ " (" ++ step.name ++ "): " ++ e.message

/-- Takes one step of a plan of `count` steps. -/
def runStep (v : Vocabulary) (count index : Nat) (step : LemmaStep) : ProofM Fact := do
  match ← look fun c => missing c step with
  | [] => pure ()
  | first :: others => fail (.scope (.missingRequirements step.name (first :: others)))
  log .info .plan (stepMessage index count step)
  let f ← step.prove v
  let c ← look id
  if c.depth ≠ 0 then
    fail (.scope (.layersLeftOpen step.name c.depth c.current.name))
  return f

/-- Takes the steps of a plan one after another, up to the first one that fails.  The outcome is the
theorem, if it was established, and the failure with the place where it struck. -/
def runSteps (v : Vocabulary) (count : Nat) :
    List (LemmaStep × Nat) → Option Fact → ProofM (Option Fact × Option (Stop × Failure))
  | [], conclusion => return (conclusion, none)
  | (step, index) :: rest, conclusion => do
      match ← attempt (runStep v count index step) with
      | .ok f => runSteps v count rest (if step.name == theoremName then some f else conclusion)
      | .error e =>
          if e.ofProof then
            log .error .plan (stopMessage index step e)
            return (conclusion, some (⟨some index, step.name, some e.message⟩, e))
          else
            fail e

/-- Runs a plan.  If a step fails the report says so, or the run fails itself if it is to raise
failures; a failure that is not one of the proof is always raised. -/
def run (v : Vocabulary) (steps : List LemmaStep) (raising : Bool) : ProofM Report := do
  assertAxioms v
  let (conclusion, stop) ← runSteps v steps.length (steps.zipIdx 1) none
  match stop with
  | some (_, e) => if raising then fail e
  | none => pure ()
  let c ← look id
  return { ledger := c.ledger, committed := c.committed, conclusion, stop := stop.map Prod.fst }

end CandyCircle.Plan
