/-
**The plan is sound for any rule.**

Nothing is known of the rule of a process but that its terms compute it, and nothing of the solver
but that it finds no model only where there is none.  If the plan then reports that the theorem is
proved, every fact that it committed is true of every run of the process, and every run converges.

Each stage is sound on its own.  A stage whose claims are about the dynamics rests on its queries:
the dynamics of the one step that they assume are true of every run.  The other stages conclude what
follows from the laws of a course and the facts that they require, whatever the rule is.

Main definitions:

* `CandyCircle.Course.Obeys` — a fact is true of a course;
* `CandyCircle.View.Truthful` — what a view asserts at the base is true of a course.

Main results:

* `CandyCircle.Plan.obeys_of_stage` — **a stage is sound**;
* `CandyCircle.Plan.obeys_of_proved` — the facts of a plan that is reported as proved are true of
  every run;
* `CandyCircle.Plan.uniform_of_proved` — **a process whose plan is reported as proved converges**.
-/
import CandyCircle.Proofs.Plan.Refuted
import CandyCircle.Proofs.Refutation.Soundness

set_option autoImplicit false

namespace CandyCircle

open Logic Vocabulary Induction

/-! ### Facts that are true of a course -/

/-- A fact is true of a course. -/
def Course.Obeys (c : Course) (f : Fact) : Prop :=
  ∀ I ρ, Course.of I = c → Satisfies I ρ f.formula

/-- Interpretations that differ only in the values of fresh constants describe the same course. -/
theorem Course.of_eq_of_fresh {I J : Interpretation} {n : Nat} (h : I.AgreeOn (¬ Fresh n ·) J) :
    Course.of J = Course.of I :=
  (Course.of_eq_of_agreeOn h (not_fresh_of_plain (by decide) n)).symm

namespace View

/-- A view at the base asserts only what is true of a course. -/
structure Truthful (V : View) (c : Course) : Prop where
  /-- No layer is open. -/
  frames_eq : V.frames = []
  /-- The assertions of the base are true. -/
  base : ∀ a ∈ V.base, ∀ I ρ, Course.of I = c → Satisfies I ρ a.formula

variable {V : View} {c : Course}

/-- Known facts are true. -/
theorem Truthful.obeys (h : V.Truthful c) {known : List Fact} (hhas : V.Has known) :
    ∀ f ∈ known, c.Obeys f :=
  fun f hf => h.base f.assertion (hhas f hf).2

/-- A stage that establishes something true leaves a truthful view. -/
theorem Truthful.after (h : V.Truthful c) {s : Plan.Stage} (hs : c.Obeys s.fact) :
    (s.after V).Truthful c where
  frames_eq := h.frames_eq
  base := List.forall_mem_append.2 ⟨h.base, List.forall_mem_singleton.2 hs⟩

theorem truthful_ofFacts {fs : List Fact} (hfs : ∀ f ∈ fs, c.Obeys f) (n : Nat) :
    (ofFacts fs n).Truthful c where
  frames_eq := rfl
  base := List.forall_mem_map.2 hfs

end View

namespace Plan

open Course

/-- Instances of true facts are true hints. -/
theorem satisfies_of_instances {I : Interpretation} {ρ : Valuation} {fs : List Fact}
    {hs : List Formula} (h : InstancesOf fs hs) (hfs : ∀ f ∈ fs, Satisfies I ρ f.formula) :
    ∀ e ∈ hs, Satisfies I ρ e := by
  intro e he
  obtain ⟨f, hf, terms, rfl⟩ := h e he
  exact Fact.satisfies_matrixFor (hfs f hf) terms

/-! ### Claims about the dynamics -/

section Dynamics

variable {v : Vocabulary} {rule : Int → Int → Int} {c : Course} {V : View} {known : List Fact}
  {l : List Query}

/-- **A claim about a step is true** if its query has no model. -/
theorem obeys_of_step {claim : Fact} (hv : v.Computes rule) (hsteps : c.StepsBy rule)
    (hvars : 1 < claim.vars.length) (hsettled : claim.Settled V.issued) (hV : V.Truthful c)
    (hhas : V.Has known) (hl : StepQueries v V claim known l)
    (hunsat : ∀ x ∈ l, Unsatisfiable x.2.formulas)
    (hguard : ∀ J ρ, Satisfies J ρ (V.guard claim) → 0 ≤ (firstStep V claim).meaning J ρ ∧
      (secondStep V claim).meaning J ρ = (firstStep V claim).meaning J ρ + 1) : c.Obeys claim := by
  obtain ⟨hs, hinstances, rfl⟩ := hl
  intro I ρ hI
  refine View.satisfies_of_unsatisfiable (hunsat _ List.mem_cons_self) hsettled fun J hJ hg => ?_
  have hJc : Course.of J = c := (Course.of_eq_of_fresh hJ).trans hI
  -- the dynamics that the query assumes are those of a step of the course
  have hdynamics : Satisfies J ρ (stepDynamics v V claim).formula := by
    obtain ⟨hk, hk2⟩ := hguard J ρ hg
    refine (satisfies_dynamics hv (steady_freshSymbols (Nat.lt_of_succ_lt hvars))
      (steady_freshSymbols hvars)).2 ?_
    change (Course.of J).Follows rule ((firstStep V claim).meaning J ρ)
      ((secondStep V claim).meaning J ρ)
    rw [hJc, hk2]
    exact hsteps _ hk
  refine ⟨?_, satisfies_of_instances hinstances (List.forall_mem_cons.2 ⟨hdynamics, ?_⟩)⟩
  · rw [hV.frames_eq]
    simp only [List.reverse_nil, List.flatten_nil, List.append_nil, List.forall_mem_append,
      List.forall_mem_singleton]
    exact ⟨fun a ha => hV.base a ha J ρ hJc, hdynamics⟩
  · exact fun f hf => hV.obeys hhas f hf J ρ hJc

/-- The claim about the successor of a step mentions no constants that are declared later. -/
theorem settled_successor (n : Nat) :
    (successorCase "state-invariant" invariantOf n).Settled (n + 2) := by
  refine Fact.settled_of_constants fun s hs => ?_
  change s ∈ [.int "i", .int "i", .int "N", .int "i", .int (Context.freshName "k_next" (n + 1)),
    .int "i", .int (Context.freshName "k_next" (n + 1))] at hs
  have hs : s = .int "i" ∨ s = .int "N" ∨ s = .int (Context.freshName "k_next" (n + 1)) := by
    simp only [List.mem_cons, List.not_mem_nil, or_false] at hs
    tauto
  rcases hs with rfl | rfl | rfl
  · exact not_fresh_of_plain (by decide) _
  · exact not_fresh_of_plain (by decide) _
  · exact not_fresh_of_lt (by omega) _ _

/-- **The invariant is true** if the query of its successor step has no model. -/
theorem obeys_stateInvariant (hv : v.Computes rule) (hlaw : c.Lawful) (hsteps : c.StepsBy rule)
    (hV : V.Truthful c) (hhas : V.Has known) (hl : InvariantQueries v V known l)
    (hunsat : ∀ x ∈ l, Unsatisfiable x.2.formulas) : c.Obeys stateInvariantFact := by
  obtain ⟨bs, hs, _, hinstances, rfl⟩ := hl
  intro I ρ hI
  subst hI
  have hstep := hunsat _ (List.mem_cons_of_mem _ List.mem_cons_self)
  have hk : Steady (stepTerm (invariantStep V)) := steady_fresh _ _
  have hnext : Steady (nextTerm (invariantStep V)) := steady_fresh _ _
  refine satisfies_stateInvariantFact.2 (forall_of_twoStep "state-invariant" invariantOf
    (.int (.num 0)) (I := I) (ρ := ρ) (n := invariantStep V) (fun _ _ => rfl) (fun J hJ => ?_)
    hlaw.start fun J hJ hassumed => ?_)
  · rw [← Course.of_eq_of_fresh hJ]
    simp only [List.forall_mem_cons, List.not_mem_nil, false_implies, implies_true, and_true]
    exact ⟨satisfies_stateInvariant fun i => hk J ρ "i" i (by decide),
      satisfies_stateInvariant fun i => hnext J ρ "i" i (by decide)⟩
  · refine View.satisfies_of_unsatisfiable hstep (settled_successor _) fun J' hJ' _ => ?_
    have hJc : Course.of J' = Course.of I :=
      (Course.of_eq_of_fresh hJ').trans (Course.of_eq_of_fresh hJ)
    have hlayer := hassumed J' hJ'
    -- so are the dynamics of the step of the induction, whatever number it has
    have hdynamics : Satisfies J' ρ (invariantDynamics v V).formula := by
      simp only [stepAssertions, List.forall_mem_cons, satisfies_compare_ge, satisfies_eq,
        meaning_succ] at hlayer
      obtain ⟨hnat, hsucc, _⟩ := hlayer
      refine (satisfies_dynamics hv hk hnext).2 ?_
      rw [hJc, hsucc]
      exact hsteps _ hnat
    refine ⟨?_, satisfies_of_instances hinstances (List.forall_mem_cons.2 ⟨hdynamics,
      List.forall_mem_cons.2 ⟨?_, fun f hf => hV.obeys hhas f hf J' ρ hJc⟩⟩)⟩
    · simp only [View.stepping, hV.frames_eq, List.reverse_singleton, List.flatten_singleton,
        List.forall_mem_append, List.forall_mem_singleton]
      exact ⟨⟨fun a ha => hV.base a ha J' ρ hJc, hlayer⟩, hdynamics⟩
    · exact hlayer (hypothesis "state-invariant" invariantOf (invariantStep V)).assertion
        (by simp [stepAssertions])

end Dynamics

/-! ### Claims that follow from the laws -/

section Laws

variable {c : Course}

theorem obeys_variantBounded (hlaw : c.Lawful) : c.Obeys variantBounded := by
  rintro I ρ rfl
  exact satisfies_variantBounded.2 fun k hk => ⟨gap_nonneg hlaw hk, hlaw.holders_nonneg k _ hk⟩

theorem obeys_histogramDecrease (hlaw : c.Lawful) (hstays : c.Obeys aboveMinStaysAbove)
    (hgains : c.Obeys gainsFromRicherNeighbor) : c.Obeys histogramDecrease := by
  rintro I ρ rfl
  refine satisfies_histogramDecrease.2 fun k k2 j hk hk2 hj habove => ?_
  exact holders_least_lt_of hlaw hk hk2
    (fun i hi => satisfies_aboveMinStaysAbove.1 (hstays I ρ rfl) k k2 i hk hk2 hi)
    (fun i hi => satisfies_gainsFromRicherNeighbor.1 (hgains I ρ rfl) k k2 i hk hk2 hi) hj habove

theorem obeys_lexDecrease (hmost : c.Obeys maxNonincreasing) (hleast : c.Obeys minNondecreasing)
    (hfewer : c.Obeys histogramDecrease) : c.Obeys lexDecrease := by
  rintro I ρ rfl
  refine satisfies_lexDecrease.2 fun k k2 j hk hk2 hj habove => ?_
  exact variant_lt_of (satisfies_maxNonincreasing.1 (hmost I ρ rfl) k k2 hk hk2)
    (satisfies_minNondecreasing.1 (hleast I ρ rfl) k k2 hk hk2)
    (satisfies_histogramDecrease.1 (hfewer I ρ rfl) k k2 j hk hk2 hj habove)

theorem obeys_eventualConvergence (hlaw : c.Lawful) (hdecreases : c.Obeys lexDecrease) :
    c.Obeys eventualConvergenceFact := by
  rintro I ρ rfl
  refine satisfies_eventualConvergenceFact.2 fun _ _ _ _ _ _ _ _ => ?_
  refine converges_of_descent hlaw fun k j hk hj habove => ?_
  exact satisfies_lexDecrease.1 (hdecreases I ρ rfl) k (k + 1) j hk rfl hj habove

theorem obeys_convergence (hbounded : c.Obeys variantBounded)
    (heventually : c.Obeys eventualConvergenceFact) : c.Obeys convergence := by
  rintro I ρ rfl
  have hbounded := satisfies_variantBounded.1 (hbounded I ρ rfl) 0 (Int.le_refl 0)
  exact satisfies_convergence.2 (satisfies_eventualConvergenceFact.1 (heventually I ρ rfl) _ _ 0
    hbounded.1 hbounded.2 (Int.le_refl 0) rfl rfl)

theorem obeys_uniformAtConvergence (hlaw : c.Lawful) : c.Obeys uniformAtConvergence := by
  rintro I ρ rfl
  exact satisfies_uniformAtConvergence.2 fun k i hk hi huniform => held_eq_least hlaw hk hi huniform

end Laws

/-! ### Stages -/

section Stages

variable {v : Vocabulary} {rule : Int → Int → Int} {c : Course}

/-- **A stage is sound**: if its queries have no model, its fact is true of every course that obeys
the laws, takes the steps of the rule, and has only truths in its base. -/
theorem obeys_of_stage (hv : v.Computes rule) (hlaw : c.Lawful) (hsteps : c.StepsBy rule) :
    ∀ s ∈ stages, ∀ {V : View} {l : List Query}, V.Truthful c → V.Has (baseFacts ++ s.required) →
      s.Queries v V l → (∀ x ∈ l, Unsatisfiable x.2.formulas) → c.Obeys s.fact := by
  simp only [stages, List.forall_mem_cons, List.not_mem_nil, false_implies, implies_true, and_true]
  refine ⟨?_, ?_, ?_, ?_, ?_, ?_, ?_, ?_, ?_, ?_, ?_⟩ <;> intro V l hV hhas hl hunsat
  · exact obeys_stateInvariant hv hlaw hsteps hV hhas hl hunsat
  · refine obeys_of_step hv hsteps (by decide) (Fact.settled_of_plain (by decide) _) hV hhas hl
      hunsat ?_
    exact fun J ρ hg => (satisfies_at_maxNonincreasing V (I := J) (ρ := ρ) rfl rfl).1.1 hg
  · refine obeys_of_step hv hsteps (by decide) (Fact.settled_of_plain (by decide) _) hV hhas hl
      hunsat ?_
    exact fun J ρ hg => (satisfies_at_minNondecreasing V (I := J) (ρ := ρ) rfl rfl).1.1 hg
  · refine obeys_of_step hv hsteps (by decide) (Fact.settled_of_plain (by decide) _) hV hhas hl
      hunsat ?_
    intro J ρ hg
    obtain ⟨hk, hk2, _⟩ := (satisfies_at_aboveMinStaysAbove V (I := J) (ρ := ρ) rfl rfl rfl).1.1 hg
    exact ⟨hk, hk2⟩
  · refine obeys_of_step hv hsteps (by decide) (Fact.settled_of_plain (by decide) _) hV hhas hl
      hunsat ?_
    intro J ρ hg
    obtain ⟨hk, hk2, _⟩ :=
      (satisfies_at_gainsFromRicherNeighbor V (I := J) (ρ := ρ) rfl rfl rfl).1.1 hg
    exact ⟨hk, hk2⟩
  · exact obeys_variantBounded hlaw
  · exact obeys_histogramDecrease hlaw (hV.obeys hhas _ (by simp)) (hV.obeys hhas _ (by simp))
  · exact obeys_lexDecrease (hV.obeys hhas _ (by simp)) (hV.obeys hhas _ (by simp))
      (hV.obeys hhas _ (by simp))
  · exact obeys_eventualConvergence hlaw (hV.obeys hhas _ (by simp))
  · exact obeys_convergence (hV.obeys hhas _ (by simp)) (hV.obeys hhas _ (by simp))
  · exact obeys_uniformAtConvergence hlaw

/-- Stages one after another are sound. -/
theorem obeys_of_schedule (hv : v.Computes rule) (hlaw : c.Lawful) (hsteps : c.StepsBy rule)
    {ss : List Stage} : ∀ {V : View} {l : List Query}, (∀ s ∈ ss, s ∈ stages) → V.Truthful c →
      Ready ss V → Schedule v ss V l → (∀ x ∈ l, Unsatisfiable x.2.formulas) →
        ∀ s ∈ ss, c.Obeys s.fact := by
  induction ss with
  | nil =>
      intro V l _ _ _ _ _ s hs
      cases hs
  | cons s rest ih =>
      rintro V l hss hV ⟨hhas, hready⟩ ⟨l₁, l₂, hs, hrest, rfl⟩ hunsat
      have hfact : c.Obeys s.fact :=
        obeys_of_stage hv hlaw hsteps s (hss s List.mem_cons_self) hV hhas hs
          fun x hx => hunsat x (List.mem_append_left _ hx)
      refine List.forall_mem_cons.2 ⟨hfact, ?_⟩
      exact ih (fun t ht => hss t (List.mem_cons_of_mem s ht)) (hV.after hfact) hready hrest
        fun x hx => hunsat x (List.mem_append_right _ hx)

end Stages

end Plan

/-! ### Runs of the plan -/

namespace Plan

section Runs

variable {v : Vocabulary} {rule : Int → Int → Int} {s : Settings.Options} {replies : List Prepared}
  {raising : Bool} {report : Report} {c : Context} {counts : List Int}

/-- The axioms are true of every run of every rule. -/
theorem obeys_axioms (hchildren : v.children = none) {course : Course} (hlaw : course.Lawful) :
    ∀ f ∈ v.axioms, course.Obeys f := by
  rintro f hf I ρ rfl
  exact (satisfies_axioms hchildren).2 hlaw f hf

/-- **If the solver is honest and a plan is reported as proved, its facts are true of every
run.** -/
theorem obeys_of_proved (hchildren : v.children = none) (hv : v.Computes rule)
    (hrun : Proof.outcome (run v (chosen [] s) raising) (Context.start s replies) = (.ok report, c))
    (hproved : report.proved = true) (hhonest : c.Honest) {course : Course}
    (hcounts : Dynamics.Admissible counts) (hcourse : course.IsRun rule counts) :
    ∀ t ∈ chosenStages s, course.Obeys t.fact := by
  have hlaw := hcourse.lawful hcounts
  obtain ⟨l, xs, _, _, hl, hheard, _, _, _, hcompleted⟩ := run_spec v s replies raising
  rw [hrun] at hheard hcompleted
  -- nothing stopped the run, so that all queries were asked and refuted
  obtain ⟨_, hstop⟩ := Bool.and_eq_true_iff.1 hproved
  obtain ⟨rfl, hrefuted, _⟩ := hcompleted report rfl (Option.isNone_iff_eq_none.1 hstop)
  refine obeys_of_schedule hv hlaw hcourse.stepsBy
    (fun t ht => (chosenStages_isPrefix s).subset ht)
    (View.truthful_ofFacts (obeys_axioms hchildren hlaw) 0) (ready_chosenStages v s) hl ?_
  exact List.forall_mem_map.2 fun x hx => hheard.unsatisfiable hhonest hx (hrefuted x hx)

/-- The theorem is among the facts of every run that is not cut short. -/
theorem exists_convergence (s : Settings.Options) : ∃ t ∈ chosenStages s, t.fact = convergence := by
  have hmem : stages[9] ∈ stages.take 10 := by
    simp [stages]
  refine ⟨stages[9], ?_, rfl⟩
  unfold chosenStages
  split
  · exact List.getElem_mem _
  · exact hmem

/-- **A process whose plan is reported as proved converges**, whatever its rule is, if the solver
finds no model only where there is none: from all admissible counts a uniform state is reached. -/
theorem uniform_of_proved (hchildren : v.children = none) (hv : v.Computes rule)
    (hrun : Proof.outcome (run v (chosen [] s) raising) (Context.start s replies) = (.ok report, c))
    (hproved : report.proved = true) (hhonest : c.Honest) (hcounts : Dynamics.Admissible counts) :
    ∃ k, Dynamics.isUniform (Dynamics.afterBy rule counts k) = true := by
  obtain ⟨course, hcourse⟩ := Course.exists_isRun rule hcounts.1
  obtain ⟨t, ht, hfact⟩ := exists_convergence s
  have hconvergence : course.Obeys convergence := by
    rw [← hfact]
    exact obeys_of_proved hchildren hv hrun hproved hhonest hcounts hcourse t ht
  let I := Interpretation.ofCourse course
  have hconverges : (Course.of I).Converges :=
    satisfies_convergence.1 (hconvergence I (fun kind _ => I.const kind "") course.of_ofCourse)
  rw [course.of_ofCourse] at hconverges
  obtain ⟨k, hk, huniform⟩ := hconverges
  obtain ⟨k, rfl⟩ := Int.eq_ofNat_of_zero_le hk
  exact ⟨k, (hcourse.isUniform_iff k).2 huniform⟩

end Runs

/-- A run that is proved has a report that says so. -/
theorem exists_report {r : Except Failure Report × Context}
    (h : r.1.toOption.any Report.proved = true) :
    ∃ report, r = (.ok report, r.2) ∧ report.proved = true := by
  obtain ⟨r, c⟩ := r
  cases r with
  | error e => cases h
  | ok report => exact ⟨report, rfl, h⟩

/-- For the rule of the process such a solver is honest. -/
theorem honest_defaultRun : defaultRun.2.Honest := by
  rw [defaultRun]
  exact fun p hp _ => unsatisfiable_of_asked _ _ _ p hp

/-- So a circle with two, nothing and nothing becomes uniform. -/
theorem uniform_of_defaultRun :
    defaultRun.2.Honest ∧
      ∃ k, Dynamics.isUniform (Dynamics.afterBy Dynamics.nextValue [2, 0, 0] k) = true := by
  obtain ⟨report, hrun, hproved⟩ := exists_report defaultRun_spec.1
  have hcounts : Dynamics.Admissible [2, 0, 0] := ⟨by decide, by decide⟩
  exact ⟨honest_defaultRun, uniform_of_proved rfl computes_standard hrun hproved honest_defaultRun
    hcounts⟩

end Plan

end CandyCircle
