/-
**What the induction schemes ask.**

Two-step induction asks a query for its base case and one for its successor step; the latter is
asked inside a layer that fixes a step and assumes the claim about it.  Well-founded induction asks
a query for the least pair, if hints for it are given, and one inside a layer that fixes a pair and
assumes the claim about all smaller ones.

Main definitions:

* `CandyCircle.Induction.baseCase`, `CandyCircle.Induction.hypothesis`,
  `CandyCircle.Induction.successorCase` — the claims that two-step induction is about;
* `CandyCircle.View.stepping`, `CandyCircle.View.descending` — the views inside the layers of the
  two schemes;
* `CandyCircle.Proof.fixStep`, `CandyCircle.Proof.fixPair` — fixing what stands for all steps, or
  for all pairs;
* `CandyCircle.Proof.stepLayer`, `CandyCircle.Proof.pairLayer` — the parts of the schemes inside
  their layers.

Main results:

* `CandyCircle.Proof.runs_twoStep` — **what two-step induction asks**;
* `CandyCircle.Proof.runs_wellFounded` — **what well-founded induction asks**.
-/
import CandyCircle.Proofs.Refutation.Schemes
import CandyCircle.Refutation.Induction

set_option autoImplicit false

namespace CandyCircle

open Logic

/-! ### The claims of two-step induction -/

namespace Induction

/-- The step that stands for all steps, as the constant of a number. -/
def stepTerm (n : Nat) : IntTerm :=
  .int (Context.freshName "k" n)

/-- Its successor, as the next constant. -/
def nextTerm (n : Nat) : IntTerm :=
  .int (Context.freshName "k_next" (n + 1))

/-- The claim about the lower bound. -/
def baseCase (name : String) (claim : AnyTerm → Fact) (lower : AnyTerm) : Fact :=
  (claim lower).renamed (name ++ "/base")

/-- The claim about the step. -/
def hypothesis (name : String) (claim : AnyTerm → Fact) (n : Nat) : Fact :=
  (claim (.int (stepTerm n))).renamed (name ++ "/hypothesis")

/-- The claim about its successor. -/
def successorCase (name : String) (claim : AnyTerm → Fact) (n : Nat) : Fact :=
  (claim (.int (nextTerm n))).renamed (name ++ "/step")

/-- What the layer of the successor step assumes. -/
def stepAssertions (name : String) (claim : AnyTerm → Fact) (lower : AnyTerm) (n : Nat) :
    List Assertion :=
  [{ formula := .compare .ge (stepTerm n) lower.toInt
     label := "k" ++ " >= " ++ lower.term.display },
    { formula := .eq .int (nextTerm n) (Term.succ (stepTerm n))
      label := "k" ++ "_next = " ++ "k" ++ " + 1" },
    (hypothesis name claim n).assertion]

/-! ### The claims of well-founded induction -/

/-- The claim about the least pair. -/
def leastCase (name : String) (claim : Pair → Fact) : Fact :=
  (claim .bottom).renamed (name ++ "/base")

/-- The pair that stands for all pairs, as constants of a number and the next one. -/
def pairTerm (n : Nat) : Pair :=
  .named (Context.freshName "v1" n) (Context.freshName "v2" (n + 1))

/-- The claim about the pair. -/
def pairCase (name : String) (claim : Pair → Fact) (n : Nat) : Fact :=
  (claim (pairTerm n)).renamed (name ++ "/step")

/-- What the layer of the well-founded step assumes. -/
def pairAssertions (name : String) (claim : Pair → Fact) (n : Nat) : List Assertion :=
  [{ formula := (pairTerm n).domain, label := name ++ " domain" },
    (smallerHypothesis name (pairTerm n) (claim (.named "u1" "u2"))).assertion]

end Induction

open Induction

namespace View

/-- The view inside the layer of the successor step, whose step is the constant of a number. -/
def stepping (V : View) (name : String) (claim : AnyTerm → Fact) (lower : AnyTerm) (n : Nat) :
    View :=
  { V with frames := stepAssertions name claim lower n :: V.frames, issued := n + 2 }

/-- The view inside the layer that fixes a pair, as the constants of a number and the next one. -/
def descending (V : View) (name : String) (claim : Pair → Fact) (n : Nat) : View :=
  { V with frames := pairAssertions name claim n :: V.frames, issued := n + 2 }

end View

namespace Proof

variable {V : View}

theorem runs_requireGuard (shape : Fact) : Runs (requireGuard shape) V [] fun _ V' => V' = V := by
  refine (runs_require _).next fun _ V₁ h₁ => ?_
  obtain ⟨_, rfl⟩ := h₁
  exact ⟨.refl _, (runs_pure ()).mono fun _ V' h => h.2⟩

/-- A fact whose trigger is accepted is the fact itself. -/
theorem eq_of_checked {f g : Fact} (h : f.checked = .ok g) : g = f := by
  unfold Fact.checked at h
  split at h <;> cases h
  rfl

/-- A symbolic step and its successor. -/
theorem runs_declareStep : Runs (declareStep "k") V [] fun step V' =>
    (∃ layer, step = .ofInts (stepTerm V.issued) (nextTerm V.issued) layer) ∧
      V' = V.declare 2 := by
  refine (runs_declare "k" .int).next fun k V₁ h₁ => ?_
  obtain ⟨rfl, rfl⟩ := h₁
  refine ⟨⟨rfl, rfl, rfl⟩, (runs_declare "k_next" .int).next fun next V₂ h₂ => ?_⟩
  obtain ⟨rfl, rfl⟩ := h₂
  refine ⟨⟨rfl, rfl, rfl⟩, (runs_look _).next fun layer V₃ h₃ => ?_⟩
  subst h₃
  refine ⟨.refl _, (runs_pure _).mono fun step V' h => ?_⟩
  obtain ⟨rfl, rfl⟩ := h
  exact ⟨⟨layer, rfl⟩, rfl⟩

/-- What is assumed about a symbolic step. -/
theorem runs_assumeStep (hV : V.frames ≠ []) {k k2 : IntTerm} {layer : String} {lower : AnyTerm} :
    Runs (assumeStep (.ofInts k k2 layer) lower "k") V [] fun _ V' =>
      V' = V.add
        [{ formula := .compare .ge k lower.toInt, label := "k" ++ " >= " ++ lower.term.display },
          { formula := .eq .int k2 (Term.succ k)
            label := "k" ++ "_next = " ++ "k" ++ " + 1" }] := by
  refine (runs_assume hV _ _).next fun _ W h => ?_
  subst h
  refine ⟨sameBase_add _, (runs_assume (frames_add_ne_nil hV _) _ _).mono fun _ W h => ?_⟩
  rw [h, add_add]
  rfl

/-! ### Two-step induction -/

/-- Fixes the step that stands for all steps, and assumes the claim about it. -/
def fixStep (name : String) (claim : AnyTerm → Fact) (lower : AnyTerm) : ProofM Step := do
  let step ← declareStep "k"
  assumeStep step lower "k"
  assumeFact ((claim step.k).renamed (name ++ "/hypothesis"))
  return step

/-- The part of two-step induction inside the layer of its successor step. -/
def stepLayer (name : String) (claim : AnyTerm → Fact) (lower : AnyTerm)
    (stepHints : StepHintsT Id) : ProofM Unit :=
  scope (name ++ "/step") fun _ => do
    let step ← fixStep name claim lower
    prove ((claim step.next).renamed (name ++ "/step")) "induction-step"
      (stepHints step ((claim step.k).renamed (name ++ "/hypothesis"))) false

/-- What two-step induction does once its queries are refuted. -/
def concludeSteps (shape conclusion : Fact) : ProofM Fact := do
  requireGuard shape
  let conclusion ← require (conclusion.checked.mapError .fact)
  conclude conclusion
  return conclusion

theorem twoStep_eq (name : String) (claim : AnyTerm → Fact) (lower : AnyTerm)
    (baseHints : HintsT Id) (stepHints : StepHintsT Id) (trigger : Option Trigger) :
    twoStep name (fun t => pure (claim t)) lower baseHints stepHints trigger =
      prove (baseCase name claim lower) "induction-base" baseHints false >>= fun _ =>
        stepLayer name claim lower stepHints >>= fun _ =>
          concludeSteps (claim (.int (.int "x")))
            (twoStepConclusion name lower (claim (.int (.int "x"))) trigger) := by
  unfold twoStep stepLayer fixStep
  simp only [pure_bind, bind_assoc]
  rfl

/-- Fixing a step asks nothing. -/
theorem runs_fixStep (name : String) (claim : AnyTerm → Fact) (lower : AnyTerm) :
    Runs (fixStep name claim lower) V.push [] fun step V' =>
      (∃ layer, step = .ofInts (stepTerm V.issued) (nextTerm V.issued) layer) ∧
        V' = V.stepping name claim lower V.issued := by
  refine runs_declareStep.next fun step W h => ?_
  obtain ⟨⟨layer, rfl⟩, rfl⟩ := h
  refine ⟨⟨rfl, rfl, rfl⟩, .next (runs_assumeStep (List.cons_ne_nil _ _)) fun _ W h => ?_⟩
  subst h
  refine ⟨⟨rfl, rfl, rfl⟩, ((runs_assumeFact (List.cons_ne_nil _ _) _).returning _).mono
    fun step W h => ?_⟩
  obtain ⟨rfl, _, rfl⟩ := h
  exact ⟨⟨layer, rfl⟩, rfl⟩

/-- What is asked in the layer of the successor step. -/
theorem runs_stepLayer {name : String} {claim : AnyTerm → Fact} {lower : AnyTerm}
    {stepHints : StepHintsT Id} {hs : List Formula} {extra : List Assertion} {n : Nat}
    (hn : n = V.issued)
    (hstep : ∀ layer, Runs
      (stepHints (.ofInts (stepTerm n) (nextTerm n) layer) (hypothesis name claim n)
        ((successorCase name claim n).witnesses (n + 2)))
      ((V.stepping name claim lower n).refuting (successorCase name claim n)) [] fun hs' V' =>
        hs' = hs ∧
          V' = ((V.stepping name claim lower n).refuting (successorCase name claim n)).add extra) :
    Runs (stepLayer name claim lower stepHints) V
      [(V.stepping name claim lower n).refutes (successorCase name claim n) extra hs] fun _ V' =>
        V' = { V with issued := n + 2 + (successorCase name claim n).vars.length } := by
  subst hn
  refine runs_scope
    { V with
      frames := stepAssertions name claim lower V.issued :: V.frames
      issued := V.issued + 2 + (successorCase name claim V.issued).vars.length }
    ⟨rfl, rfl, rfl⟩ fun _ => ?_
  refine (runs_fixStep name claim lower).next fun step W h => ?_
  obtain ⟨⟨layer, rfl⟩, rfl⟩ := h
  refine ⟨⟨rfl, rfl, rfl⟩, (runs_prove (n := 0) (hstep layer)).mono fun _ W h => ?_⟩
  rw [h]
  rfl

/-- Once its queries are refuted two-step induction asks nothing more. -/
theorem runs_concludeSteps (shape conclusion : Fact) :
    Runs (concludeSteps shape conclusion) V [] fun f V' =>
      f = conclusion ∧ V' = V.conclude conclusion := by
  refine (runs_requireGuard _).next fun _ W h => ?_
  subst h
  refine ⟨.refl _, (runs_require _).next fun f W h => ?_⟩
  obtain ⟨hchecked, rfl⟩ := h
  rw [eq_of_checked (ok_of_mapError hchecked)]
  refine ⟨.refl _, ((runs_conclude _).returning _).mono fun f' W h => ?_⟩
  obtain ⟨rfl, _, rfl⟩ := h
  exact ⟨rfl, rfl⟩

/-- **What two-step induction asks**: the base case, and the successor step inside its layer. -/
theorem runs_twoStep {name : String} {claim : AnyTerm → Fact} {lower : AnyTerm}
    {baseHints : HintsT Id} {stepHints : StepHintsT Id} (trigger : Option Trigger)
    {bs hs : List Formula} {extra : List Assertion} {n : Nat}
    (hn : n = V.issued + (claim lower).vars.length)
    (hbase : Runs (baseHints ((baseCase name claim lower).witnesses V.issued))
      (V.refuting (baseCase name claim lower)) [] fun hs' V' =>
        hs' = bs ∧ V' = V.refuting (baseCase name claim lower))
    (hstep : ∀ layer, Runs
      (stepHints (.ofInts (stepTerm n) (nextTerm n) layer) (hypothesis name claim n)
        ((successorCase name claim n).witnesses (n + 2)))
      ((V.stepping name claim lower n).refuting (successorCase name claim n)) [] fun hs' V' =>
        hs' = hs ∧
          V' = ((V.stepping name claim lower n).refuting (successorCase name claim n)).add extra) :
    Runs (twoStep name (fun t => pure (claim t)) lower baseHints stepHints trigger) V
      [V.refutes (baseCase name claim lower) [] bs,
        (V.stepping name claim lower n).refutes (successorCase name claim n) extra hs] fun f V' =>
        f = twoStepConclusion name lower (claim (.int (.int "x"))) trigger ∧
          V' = View.conclude { V with issued := n + 2 + (successorCase name claim n).vars.length }
            (twoStepConclusion name lower (claim (.int (.int "x"))) trigger) := by
  rw [twoStep_eq]
  refine .bind [_] [_] (runs_prove_plain hbase) fun _ W hW => ?_
  subst hW
  refine ⟨⟨rfl, rfl, rfl⟩, .bind [_] [] (runs_stepLayer hn hstep) fun _ W h => ?_⟩
  subst h
  exact ⟨⟨rfl, rfl, rfl⟩, runs_concludeSteps _ _⟩

/-! ### Well-founded induction -/

/-- Fixes the pair that stands for all pairs, and assumes the claim about all smaller ones. -/
def fixPair (name : String) (claim : Pair → Fact) : ProofM Pair := do
  let v1 ← declare "v1" .int
  let v2 ← declare "v2" .int
  let v := Pair.named v1.name v2.name
  assume v.domain (name ++ " domain")
  requireGuard (claim (.named "u1" "u2"))
  assumeFact (smallerHypothesis name v (claim (.named "u1" "u2")))
  return v

/-- The part of well-founded induction inside the layer that fixes a pair. -/
def pairLayer (name : String) (claim : Pair → Fact) (stepHints : PairHintsT Id) : ProofM Unit :=
  scope (name ++ "/step") fun _ => do
    let v ← fixPair name claim
    prove ((claim v).renamed (name ++ "/step")) "well-founded-step"
      (stepHints v (smallerHypothesis name v (claim (.named "u1" "u2")))) false

/-- What well-founded induction does once its queries are refuted. -/
def concludePairs (name : String) (claim : Pair → Fact) : ProofM Fact := do
  requireGuard (claim (.named "w1" "w2"))
  let conclusion := wellFoundedConclusion name (claim (.named "w1" "w2"))
  conclude conclusion
  return conclusion

theorem wellFounded_eq (name : String) (claim : Pair → Fact) (stepHints : PairHintsT Id) :
    wellFounded name (fun p => pure (claim p)) stepHints none =
      pairLayer name claim stepHints >>= fun _ => concludePairs name claim := by
  unfold wellFounded pairLayer fixPair
  simp only [pure_bind, bind_assoc]
  rfl

theorem wellFounded_eq_some (name : String) (claim : Pair → Fact) (stepHints : PairHintsT Id)
    (baseHints : HintsT Id) :
    wellFounded name (fun p => pure (claim p)) stepHints (some baseHints) =
      prove (leastCase name claim) "well-founded-base" baseHints false >>= fun _ =>
        pairLayer name claim stepHints >>= fun _ => concludePairs name claim := by
  unfold wellFounded pairLayer fixPair
  simp only [pure_bind, bind_assoc]
  rfl

/-- Fixing a pair asks nothing. -/
theorem runs_fixPair (name : String) (claim : Pair → Fact) :
    Runs (fixPair name claim) V.push [] fun v V' =>
      v = pairTerm V.issued ∧ V' = V.descending name claim V.issued := by
  refine (runs_declare "v1" .int).next fun v1 W h => ?_
  obtain ⟨rfl, rfl⟩ := h
  refine ⟨⟨rfl, rfl, rfl⟩, (runs_declare "v2" .int).next fun v2 W h => ?_⟩
  obtain ⟨rfl, rfl⟩ := h
  refine ⟨⟨rfl, rfl, rfl⟩, (runs_assume (List.cons_ne_nil _ _) _ _).next fun _ W h => ?_⟩
  subst h
  refine ⟨⟨rfl, rfl, rfl⟩, (runs_requireGuard _).next fun _ W h => ?_⟩
  subst h
  refine ⟨⟨rfl, rfl, rfl⟩, ((runs_assumeFact (List.cons_ne_nil _ _) _).returning _).mono
    fun v W h => ?_⟩
  obtain ⟨rfl, _, rfl⟩ := h
  exact ⟨rfl, rfl⟩

/-- What is asked in the layer that fixes a pair. -/
theorem runs_pairLayer {name : String} {claim : Pair → Fact} {stepHints : PairHintsT Id}
    {hs : List Formula} {extra : List Assertion} {n d : Nat} (hn : n = V.issued)
    (hstep : Runs
      (stepHints (pairTerm n) (smallerHypothesis name (pairTerm n) (claim (.named "u1" "u2")))
        ((pairCase name claim n).witnesses (n + 2)))
      ((V.descending name claim n).refuting (pairCase name claim n)) [] fun hs' V' =>
        hs' = hs ∧ V' =
          (((V.descending name claim n).refuting (pairCase name claim n)).add extra).declare d) :
    Runs (pairLayer name claim stepHints) V
      [(V.descending name claim n).refutes (pairCase name claim n) extra hs] fun _ V' =>
        V' = { V with issued := n + 2 + ((claim (pairTerm n)).vars.length + d) } := by
  subst hn
  refine runs_scope
    { V with
      frames := pairAssertions name claim V.issued :: V.frames
      issued := V.issued + 2 + ((claim (pairTerm V.issued)).vars.length + d) }
    ⟨rfl, rfl, rfl⟩ fun _ => ?_
  refine (runs_fixPair name claim).next fun v W h => ?_
  obtain ⟨rfl, rfl⟩ := h
  refine ⟨⟨rfl, rfl, rfl⟩, (runs_prove hstep).mono fun _ W h => ?_⟩
  rw [h]
  rfl

/-- Once its queries are refuted well-founded induction asks nothing more. -/
theorem runs_concludePairs (name : String) (claim : Pair → Fact) :
    Runs (concludePairs name claim) V [] fun f V' =>
      f = wellFoundedConclusion name (claim (.named "w1" "w2")) ∧
        V' = V.conclude (wellFoundedConclusion name (claim (.named "w1" "w2"))) := by
  refine (runs_requireGuard _).next fun _ W h => ?_
  subst h
  refine ⟨.refl _, ((runs_conclude _).returning _).mono fun f' W h => ?_⟩
  obtain ⟨rfl, _, rfl⟩ := h
  exact ⟨rfl, rfl⟩

/-- **What well-founded induction asks**, with hints for the least pair: that pair, and all pairs
inside the layer that assumes the claim about the smaller ones. -/
theorem runs_wellFounded {name : String} {claim : Pair → Fact} {stepHints : PairHintsT Id}
    {baseHints : HintsT Id} {bs hs : List Formula} {extra : List Assertion} {n d : Nat}
    (hn : n = V.issued + (claim .bottom).vars.length)
    (hbase : Runs (baseHints ((leastCase name claim).witnesses V.issued))
      (V.refuting (leastCase name claim)) [] fun hs' V' =>
        hs' = bs ∧ V' = V.refuting (leastCase name claim))
    (hstep : Runs
      (stepHints (pairTerm n) (smallerHypothesis name (pairTerm n) (claim (.named "u1" "u2")))
        ((pairCase name claim n).witnesses (n + 2)))
      ((V.descending name claim n).refuting (pairCase name claim n)) [] fun hs' V' =>
        hs' = hs ∧ V' =
          (((V.descending name claim n).refuting (pairCase name claim n)).add extra).declare d) :
    Runs (wellFounded name (fun p => pure (claim p)) stepHints (some baseHints)) V
      [V.refutes (leastCase name claim) [] bs,
        (V.descending name claim n).refutes (pairCase name claim n) extra hs] fun f V' =>
        f = wellFoundedConclusion name (claim (.named "w1" "w2")) ∧
          V' = View.conclude { V with issued := n + 2 + ((claim (pairTerm n)).vars.length + d) }
            (wellFoundedConclusion name (claim (.named "w1" "w2"))) := by
  rw [wellFounded_eq_some]
  refine .bind [_] [_] (runs_prove_plain hbase) fun _ W hW => ?_
  subst hW
  refine ⟨⟨rfl, rfl, rfl⟩, .bind [_] [] (runs_pairLayer hn hstep) fun _ W h => ?_⟩
  subst h
  exact ⟨⟨rfl, rfl, rfl⟩, runs_concludePairs _ _⟩

end Proof

end CandyCircle
