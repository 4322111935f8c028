/-
**What the parts of queries say of courses.**

A query states the guard of its claim of fresh constants, denies the body of them, and assumes the
dynamics of a step that is one of them.  Each of these parts reads as a statement about the course
that an interpretation describes and the values of the constants.

Main definitions:

* `CandyCircle.Logic.Steady` — the value of a term does not depend on the constants that variables
  are written as.

Main results:

* `CandyCircle.Vocabulary.satisfies_dynamics` — the dynamics of a step;
* `CandyCircle.Plan.satisfies_smallerHypothesis` — the hypothesis of the well-founded induction;
* `CandyCircle.Plan.satisfies_at_maxNonincreasing` and the other lemmas of this form — the guard and
  the body of a claim about a step.
-/
import CandyCircle.Proofs.Plan.Queries

set_option autoImplicit false

namespace CandyCircle

open Logic Vocabulary

/-! ### Steady terms -/

/-- The value of a term does not depend on the constants that variables are written as. -/
def Logic.Steady (t : IntTerm) : Prop :=
  ∀ (I : Interpretation) (ρ : Valuation) (name : String) (x : Int), '!' ∉ name.toList →
    t.meaning (I.set (.int name) x) ρ = t.meaning I ρ

namespace Logic

theorem steady_fresh (stem : String) (n : Nat) : Steady (.int (Context.freshName stem n)) := by
  intro I ρ name x hname
  simp [Context.freshName_ne hname]

/-- The constants of a query are steady. -/
theorem steady_freshSymbols {vars : List Symbol} : ∀ {n place : Nat}, place < vars.length →
    Steady (witness (freshSymbols vars n) place) := by
  induction vars with
  | nil => exact fun h => absurd h (Nat.not_lt_zero _)
  | cons s rest ih =>
      intro n place hplace
      cases place with
      | zero => exact steady_fresh s.name n
      | succ place => exact ih (Nat.lt_of_succ_lt_succ hplace)

theorem Steady.minChild {k : IntTerm} (hk : Steady k) : Steady (minChild k) := by
  intro I ρ name x hname
  change I.func .int "min_child" [k.meaning (I.set (.int name) x) ρ] =
    I.func .int "min_child" [k.meaning I ρ]
  rw [hk I ρ name x hname]

theorem Steady.min2 {k : IntTerm} (hk : Steady k) : Steady (min2 k) := by
  intro I ρ name x hname
  change I.func .int "m" [(Vocabulary.minChild k).meaning (I.set (.int name) x) ρ,
      k.meaning (I.set (.int name) x) ρ] =
    I.func .int "m" [(Vocabulary.minChild k).meaning I ρ, k.meaning I ρ]
  rw [hk.minChild I ρ name x hname, hk I ρ name x hname]

end Logic

/-! ### The dynamics of a step -/

theorem Vocabulary.satisfies_dynamics {v : Vocabulary} {rule : Int → Int → Int}
    (hv : v.Computes rule) {k k2 : IntTerm} (hk : Steady k) (hk2 : Steady k2) {I : Interpretation}
    {ρ : Valuation} :
    Satisfies I ρ (v.dynamics k k2).formula ↔
      (Course.of I).Follows rule (k.meaning I ρ) (k2.meaning I ρ) := by
  obtain ⟨t, ht⟩ := exists_transition hv (.ofInts k k2 "")
  have hdynamics : v.dynamics k k2 = t := by
    rw [dynamics, ht]
  rw [hdynamics]
  exact satisfies_transition hv ht (fun i => hk I ρ "i" i (by decide))
    fun i => hk2 I ρ "i" i (by decide)

namespace Plan

/-- The third witness of a claim, if that is an integer. -/
def someChild (V : View) (claim : Fact) : IntTerm :=
  witness (claim.witnesses V.issued) 2

section Guards

variable (V : View) {I : Interpretation} {ρ : Valuation}

/-- The variables of a claim about a step, with the constants of its query. -/
def stepBindings (claim : Fact) : List Assignment :=
  [⟨.int "k", firstStep V claim⟩, ⟨.int "k2", secondStep V claim⟩]

/-- The variables of a claim about a step and a child, with the constants of its query. -/
def childBindings (claim : Fact) (name : String) : List Assignment :=
  [⟨.int "k", firstStep V claim⟩, ⟨.int "k2", secondStep V claim⟩, ⟨.int name, someChild V claim⟩]

/-- Guard and body of a claim about a step, of the constants of its query. -/
theorem satisfies_at_step {claim : Fact} {k k2 : Int}
    (hbind : claim.bind ((claim.witnesses V.issued).map Symbol.any) = stepBindings V claim)
    (hk : (firstStep V claim).meaning I ρ = k) (hk2 : (secondStep V claim).meaning I ρ = k2) :
    (Satisfies I ρ (V.guard claim) ↔
      Satisfies ((I.set (.int "k2") k2).set (.int "k") k) ρ claim.guard) ∧
    (Satisfies I ρ (V.body claim) ↔
      Satisfies ((I.set (.int "k2") k2).set (.int "k") k) ρ claim.body) := by
  have hassigned : I.assigned ρ (stepBindings V claim) =
      (I.set (.int "k2") k2).set (.int "k") k := by
    simp only [stepBindings, Interpretation.assigned_cons_int, Interpretation.assigned_nil, hk, hk2]
  rw [View.guard, View.body, Fact.satisfies_guardFor, Fact.satisfies_bodyFor, hbind, hassigned]
  exact ⟨Iff.rfl, Iff.rfl⟩

/-- Guard and body of a claim about a step and a child, of the constants of its query. -/
theorem satisfies_at_child {claim : Fact} {name : String} {k k2 i : Int}
    (hbind : claim.bind ((claim.witnesses V.issued).map Symbol.any) = childBindings V claim name)
    (hk : (firstStep V claim).meaning I ρ = k) (hk2 : (secondStep V claim).meaning I ρ = k2)
    (hi : (someChild V claim).meaning I ρ = i) :
    (Satisfies I ρ (V.guard claim) ↔
      Satisfies (((I.set (.int name) i).set (.int "k2") k2).set (.int "k") k) ρ claim.guard) ∧
    (Satisfies I ρ (V.body claim) ↔
      Satisfies (((I.set (.int name) i).set (.int "k2") k2).set (.int "k") k) ρ claim.body) := by
  have hassigned : I.assigned ρ (childBindings V claim name) =
      ((I.set (.int name) i).set (.int "k2") k2).set (.int "k") k := by
    simp only [childBindings, Interpretation.assigned_cons_int, Interpretation.assigned_nil, hk,
      hk2, hi]
  rw [View.guard, View.body, Fact.satisfies_guardFor, Fact.satisfies_bodyFor, hbind, hassigned]
  exact ⟨Iff.rfl, Iff.rfl⟩

theorem satisfies_at_maxNonincreasing {k k2 : Int}
    (hk : (firstStep V maxNonincreasing).meaning I ρ = k)
    (hk2 : (secondStep V maxNonincreasing).meaning I ρ = k2) :
    (Satisfies I ρ (V.guard maxNonincreasing) ↔ 0 ≤ k ∧ k2 = k + 1) ∧
      (Satisfies I ρ (V.body maxNonincreasing) ↔
        (Course.of I).most k2 ≤ (Course.of I).most k) := by
  obtain ⟨hguard, hbody⟩ := satisfies_at_step V rfl hk hk2
  rw [hguard, hbody]
  constructor <;> simp [maxNonincreasing, Fact.about]

theorem satisfies_at_minNondecreasing {k k2 : Int}
    (hk : (firstStep V minNondecreasing).meaning I ρ = k)
    (hk2 : (secondStep V minNondecreasing).meaning I ρ = k2) :
    (Satisfies I ρ (V.guard minNondecreasing) ↔ 0 ≤ k ∧ k2 = k + 1) ∧
      (Satisfies I ρ (V.body minNondecreasing) ↔
        (Course.of I).least k ≤ (Course.of I).least k2) := by
  obtain ⟨hguard, hbody⟩ := satisfies_at_step V rfl hk hk2
  rw [hguard, hbody]
  constructor <;> simp [minNondecreasing, Fact.about]

theorem satisfies_at_aboveMinStaysAbove {k k2 i : Int}
    (hk : (firstStep V aboveMinStaysAbove).meaning I ρ = k)
    (hk2 : (secondStep V aboveMinStaysAbove).meaning I ρ = k2)
    (hi : (someChild V aboveMinStaysAbove).meaning I ρ = i) :
    (Satisfies I ρ (V.guard aboveMinStaysAbove) ↔
      0 ≤ k ∧ k2 = k + 1 ∧ (Course.of I).IsChild i ∧
        (Course.of I).least k < (Course.of I).held i k) ∧
    (Satisfies I ρ (V.body aboveMinStaysAbove) ↔
      (Course.of I).least k < (Course.of I).held i k2) := by
  obtain ⟨hguard, hbody⟩ := satisfies_at_child V rfl hk hk2 hi
  rw [hguard, hbody]
  constructor <;> simp [aboveMinStaysAbove, Fact.about]

theorem satisfies_at_gainsFromRicherNeighbor {k k2 i : Int}
    (hk : (firstStep V gainsFromRicherNeighbor).meaning I ρ = k)
    (hk2 : (secondStep V gainsFromRicherNeighbor).meaning I ρ = k2)
    (hi : (someChild V gainsFromRicherNeighbor).meaning I ρ = i) :
    (Satisfies I ρ (V.guard gainsFromRicherNeighbor) ↔
      0 ≤ k ∧ k2 = k + 1 ∧ (Course.of I).IsChild i ∧
        (Course.of I).held i k < (Course.of I).held ((Course.of I).right i) k) ∧
    (Satisfies I ρ (V.body gainsFromRicherNeighbor) ↔
      (Course.of I).held i k < (Course.of I).held i k2) := by
  obtain ⟨hguard, hbody⟩ := satisfies_at_child V rfl hk hk2 hi
  rw [hguard, hbody]
  constructor <;> simp [gainsFromRicherNeighbor, Fact.about]

theorem satisfies_at_histogramDecrease {k k2 j : Int}
    (hk : (firstStep V histogramDecrease).meaning I ρ = k)
    (hk2 : (secondStep V histogramDecrease).meaning I ρ = k2)
    (hj : (someChild V histogramDecrease).meaning I ρ = j) :
    (Satisfies I ρ (V.guard histogramDecrease) ↔
      0 ≤ k ∧ k2 = k + 1 ∧ (Course.of I).IsChild j ∧
        (Course.of I).least k < (Course.of I).held j k) ∧
    (Satisfies I ρ (V.body histogramDecrease) ↔
      (Course.of I).holders ((Course.of I).least k) k2 <
        (Course.of I).holders ((Course.of I).least k) k) := by
  obtain ⟨hguard, hbody⟩ := satisfies_at_child V rfl hk hk2 hj
  rw [hguard, hbody]
  constructor <;> simp [histogramDecrease, Fact.about]

/-- That a child with the least count sits left of a richer one. -/
theorem satisfies_boundaryAssertion {k b : Int}
    (hk : (firstStep V histogramDecrease).meaning I ρ = k)
    (hb : (boundaryChild V).meaning I ρ = b) :
    Satisfies I ρ (boundaryAssertion V).formula ↔
      (Course.of I).IsChild b ∧ (Course.of I).held b k = (Course.of I).least k ∧
        (Course.of I).least k < (Course.of I).held ((Course.of I).right b) k := by
  simp only [boundaryAssertion, isBoundary, satisfies_all_cons, satisfies_all_nil, and_true,
    satisfies_isChild, satisfies_eq, satisfies_gt, meaning_m, meaning_min2, meaning_right, hk, hb]

/-- That no child enters the least count of the step of a query. -/
theorem satisfies_noEntryClaim {k k2 : Int}
    (hk : (firstStep V histogramDecrease).meaning I ρ = k)
    (hk2 : (secondStep V histogramDecrease).meaning I ρ = k2) :
    Satisfies I ρ (noEntryClaim V).formula ↔
      (Course.of I).NoEntry ((Course.of I).least k) k k2 := by
  have h1 : Steady (firstStep V histogramDecrease) := steady_fresh _ _
  have h2 : Steady (secondStep V histogramDecrease) := steady_fresh _ _
  rw [noEntryClaim, satisfies_noEntryFact _ (fun j => h1.min2 I ρ "j" j (by decide))
    (fun j => h1 I ρ "j" j (by decide)) fun j => h2 I ρ "j" j (by decide), meaning_min2, hk, hk2]

end Guards

/-! ### Convergence -/

/-- The hypothesis about all pairs that are smaller than a pair. -/
theorem satisfies_smallerHypothesis {I : Interpretation} {ρ : Valuation} {p : Pair}
    (h1 : Steady p.1) (h2 : Steady p.2) :
    Satisfies I ρ (Induction.smallerHypothesis "eventual-convergence" p
        (eventualConvergence (.named "u1" "u2"))).formula ↔
      ∀ u1 u2 k, 0 ≤ u1 → 0 ≤ u2 →
        u1 < p.1.meaning I ρ ∨ u1 = p.1.meaning I ρ ∧ u2 < p.2.meaning I ρ → 0 ≤ k →
          (Course.of I).gap k = u1 → (Course.of I).holders ((Course.of I).least k) k = u2 →
            (Course.of I).Converges := by
  have hsteady {t : IntTerm} (h : Steady t) (u1 u2 k : Int) :
      t.meaning (((I.set (.int "u1") u1).set (.int "u2") u2).set (.int "k") k) ρ =
        t.meaning I ρ := by
    rw [h _ _ "k" k (by decide), h _ _ "u2" u2 (by decide), h _ _ "u1" u1 (by decide)]
  simp [Induction.smallerHypothesis, Pair.domain, Pair.named, Pair.lt, eventualConvergence, variant,
    Fact.about, Fact.satisfies_formula, Course.gap, satisfies_eventuallyConverged, hsteady h1,
    hsteady h2]

end Plan

end CandyCircle
