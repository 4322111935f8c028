/-
**The plan is true of every run of the process.**

Every claim of the plan is a theorem about courses that obey the laws and whose steps follow the
rule of the process, and every run of the process is such a course.  So all facts that a run of the
plan commits hold in every interpretation that describes a run of the process, and the fact base has
a model for every circle.

Main results:

* `CandyCircle.Plan.satisfies_conclusions` — the claims of the plan are true of courses of the
  process;
* `CandyCircle.Plan.base_defaultRun` — with a solver that refutes everything, the plan commits all
  its facts;
* `CandyCircle.Plan.facts_true_of_runs` — **every fact is true of every run**.
-/
import CandyCircle.Proofs.Course.Run
import CandyCircle.Proofs.Plan.Stages
import CandyCircle.Settings.Options

set_option autoImplicit false

namespace CandyCircle

open Logic Vocabulary

namespace Plan

open Course

section Truth

variable {I : Interpretation} {ρ : Valuation}

/-- **The claims of the plan are true of courses of the process.** -/
theorem satisfies_conclusions (h : (Course.of I).Lawful)
    (hsteps : (Course.of I).StepsBy Dynamics.nextValue) :
    ∀ f ∈ conclusions, Satisfies I ρ f.formula := by
  have heven (k : Int) (hk : 0 ≤ k) : (Course.of I).EvenAt k := evenAt h hsteps hk
  have hmost (k : Int) (hk : 0 ≤ k) : (Course.of I).most (k + 1) ≤ (Course.of I).most k :=
    most_le h hk (by omega) (hsteps k hk) (heven k hk)
  have hleast (k : Int) (hk : 0 ≤ k) : (Course.of I).least k ≤ (Course.of I).least (k + 1) :=
    least_le h hk (by omega) (hsteps k hk)
  have hfewer (k j : Int) (hk : 0 ≤ k) (hj : (Course.of I).IsChild j)
      (habove : (Course.of I).least k < (Course.of I).held j k) :
      (Course.of I).holders ((Course.of I).least k) (k + 1) <
        (Course.of I).holders ((Course.of I).least k) k :=
    holders_least_lt h hk rfl (hsteps k hk) (heven k hk) hj habove
  have hconverges := Course.converges h hsteps
  simp only [conclusions, List.forall_mem_cons, List.not_mem_nil, false_implies, implies_true,
    and_true, satisfies_stateInvariantFact, satisfies_maxNonincreasing, satisfies_minNondecreasing,
    satisfies_aboveMinStaysAbove, satisfies_gainsFromRicherNeighbor, satisfies_variantBounded,
    satisfies_histogramDecrease, satisfies_lexDecrease, satisfies_eventualConvergenceFact,
    satisfies_convergence, satisfies_uniformAtConvergence]
  refine ⟨heven, ?_, ?_, ?_, ?_, ?_, ?_, ?_, ?_, hconverges, ?_⟩
  · rintro k k2 hk rfl
    exact hmost k hk
  · rintro k k2 hk rfl
    exact hleast k hk
  · rintro k k2 i hk rfl hi habove
    exact above_least h hk (hsteps k hk) (heven k hk) hi habove
  · rintro k k2 i hk rfl hi hpoorer
    exact gains h (hsteps k hk) (heven k hk) hi hpoorer
  · exact fun k hk => ⟨gap_nonneg h hk, h.holders_nonneg k _ hk⟩
  · rintro k k2 j hk rfl hj habove
    exact hfewer k j hk hj habove
  · rintro k k2 j hk rfl hj habove
    exact variant_lt_of (hmost k hk) (hleast k hk) (hfewer k j hk hj habove)
  · exact fun _ _ _ _ _ _ _ _ => hconverges
  · exact fun k i hk hi huniform => held_eq_least h hk hi huniform

end Truth

/-! ### The fact base of a run of the plan -/

/-- What a run of the plan on all circles leaves in the base is among the axioms and the claims. -/
theorem base_of_run (v : Vocabulary) (s : Settings.Options) (replies : List Prepared)
    (raising : Bool) :
    let c := (Proof.outcome (run v (chosen [] s) raising) (Context.start s replies)).2
    ∃ fs n, fs <+: v.axioms ++ conclusions ∧ c.Keeps (.ofFacts fs n) := by
  obtain ⟨_, _, fs, n, _, _, _, hfs, hkeeps, _⟩ := run_spec v s replies raising
  refine ⟨fs, n, hfs.trans ?_, hkeeps⟩
  rw [← map_fact_stages]
  exact (List.prefix_append_right_inj _).2 ((chosenStages_isPrefix s).map _)

/-- The run of the plan with default settings and a solver that refutes every query. -/
def defaultRun : Except Failure Report × Context :=
  Proof.outcome (run standard (chosen [] (Settings.options {})) true)
    (Context.start (Settings.options {}) [])

/-- That run is reported as proved, commits all axioms and claims, and asks about the claims of all
stages. -/
theorem defaultRun_spec :
    defaultRun.1.toOption.any Report.proved = true ∧
      defaultRun.2.committed = (standard.axioms ++ conclusions).map Fact.name ∧
      defaultRun.2.ledger.entries.map Obligation.lemmaName = stages.flatMap Stage.claims := by
  decide +kernel

/-- **With a solver that refutes every query, the plan commits all its facts.** -/
theorem base_defaultRun :
    ∃ n, defaultRun.2.Keeps (.ofFacts (standard.axioms ++ conclusions) n) := by
  obtain ⟨fs, n, hfs, hkeeps⟩ := base_of_run standard (Settings.options {}) [] true
  -- a part of the facts from the beginning that has all names is all of them
  have hnames := defaultRun_spec.2.1.symm.trans hkeeps.committed
  have hlength : (standard.axioms ++ conclusions).length = fs.length := by
    simpa [View.ofFacts] using congrArg List.length hnames
  rw [hfs.eq_of_length hlength.symm] at hkeeps
  exact ⟨n, hkeeps⟩

/-! ### Runs of the process -/

/-- The vocabulary of the process for circles whose size is fixed, or not. -/
def processOn (size : Option CircleSize) : Vocabulary :=
  { standard with children := size.map hasChildren }

section Runs

variable {I : Interpretation} {ρ : Valuation} {counts : List Int}

/-- Besides the axioms for circles of all sizes there is only what fixes the size. -/
theorem mem_axioms {v : Vocabulary} {f : Fact} (hf : f ∈ v.axioms) :
    f ∈ baseFacts ∨ ∃ fixed, v.children = some fixed ∧ f = childrenCount fixed := by
  simp only [axioms, List.mem_append, Option.mem_toList, Option.map_eq_some_iff] at hf
  rcases hf with (hf | ⟨fixed, hfixed, rfl⟩) | hf
  · exact Or.inl (List.mem_append_left (rightNeighbor :: _) hf)
  · exact Or.inr ⟨fixed, hfixed, rfl⟩
  · exact Or.inl (List.mem_cons_of_mem _ hf)

theorem satisfies_axioms_of_isRun (hstart : Dynamics.Admissible counts)
    (h : (Course.of I).IsRun Dynamics.nextValue counts) (size : Option CircleSize)
    (hsize : ∀ n ∈ size, n.val = counts.length) :
    ∀ f ∈ (processOn size).axioms, Satisfies I ρ f.formula := by
  intro f hf
  rcases mem_axioms hf with hf | ⟨fixed, hfixed, rfl⟩
  · rw [← axioms_eq_baseFacts (v := standard) rfl] at hf
    exact (satisfies_axioms rfl).2 (h.lawful hstart) f hf
  · obtain ⟨n, hn, rfl⟩ := Option.map_eq_some_iff.1 hfixed
    rw [satisfies_childrenCount, h.size_eq, hsize n hn]

theorem satisfies_initialCounts_of_isRun (h : (Course.of I).IsRun Dynamics.nextValue counts) :
    Satisfies I ρ (initialCounts counts).formula := by
  rw [satisfies_initialCounts]
  intro i x hx
  have hlt : i < counts.length := (List.getElem?_eq_some_iff.1 hx).1
  have hheld := h.held_eq 0 i hlt
  rw [Dynamics.afterBy, hx] at hheld
  exact (Option.some.inj hheld).symm

/-- The dynamics of a concrete step. -/
theorem satisfies_transition_of_isRun (h : (Course.of I).IsRun Dynamics.nextValue counts)
    (size : Option CircleSize) (k : Nat) (layer : String) :
    ∃ t, (processOn size).transition (.ofInts (.num k) (.num (k + 1)) layer) = .ok t ∧
      Satisfies I ρ t.formula := by
  have hcomputes : (processOn size).Computes Dynamics.nextValue := computes_standard
  obtain ⟨t, ht⟩ := exists_transition hcomputes (.ofInts (.num k) (.num (k + 1)) layer)
  refine ⟨t, ht, ?_⟩
  rw [satisfies_transition hcomputes ht (fun _ => rfl) fun _ => rfl]
  exact h.follows k

theorem satisfies_facts_of_isRun (hstart : Dynamics.Admissible counts)
    (h : (Course.of I).IsRun Dynamics.nextValue counts) :
    ∀ f ∈ standard.axioms ++ conclusions, Satisfies I ρ f.formula := by
  intro f hf
  rcases List.mem_append.1 hf with hf | hf
  · exact satisfies_axioms_of_isRun hstart h none (by simp) f hf
  · exact satisfies_conclusions (h.lawful hstart) h.stepsBy f hf

end Runs

/-- Whatever a run of the plan leaves in the base is true of every run of the process. -/
theorem satisfies_base_of_run {I : Interpretation} {ρ : Valuation} {counts : List Int}
    (hstart : Dynamics.Admissible counts) (h : (Course.of I).IsRun Dynamics.nextValue counts)
    (s : Settings.Options) (replies : List Prepared) (raising : Bool) :
    let c := (Proof.outcome (run standard (chosen [] s) raising) (Context.start s replies)).2
    (∀ entry ∈ c.base.facts, Satisfies I ρ entry.2.formula) ∧
      ∀ a ∈ c.session.base, Satisfies I ρ a.formula := by
  obtain ⟨fs, n, hfs, hkeeps⟩ := base_of_run standard s replies raising
  have htrue (f : Fact) (hf : f ∈ fs) : Satisfies I ρ f.formula :=
    satisfies_facts_of_isRun hstart h f (hfs.subset hf)
  refine ⟨fun entry hentry => ?_, fun a ha => ?_⟩
  · rw [hkeeps.facts] at hentry
    obtain ⟨f, hf, rfl⟩ := List.mem_map.1 hentry
    exact htrue f hf
  · rw [hkeeps.base] at ha
    obtain ⟨f, hf, rfl⟩ := List.mem_map.1 ha
    exact htrue f hf

/-- Every start is described by an interpretation. -/
theorem exists_isRun_of {counts : List Int} (hstart : Dynamics.Admissible counts) :
    ∃ I, (Course.of I).IsRun Dynamics.nextValue counts := by
  obtain ⟨c, hc⟩ := Course.exists_isRun Dynamics.nextValue hstart.1
  exact ⟨.ofCourse c, by rwa [Course.of_ofCourse]⟩

/-- There is a start for every size. -/
theorem admissible_replicate (n : CircleSize) : Dynamics.Admissible (List.replicate n.val 0) := by
  refine ⟨?_, fun c hc => ?_⟩
  · have := n.property
    simp only [ne_eq, List.replicate_eq_nil_iff]
    omega
  · rw [List.eq_of_mem_replicate hc]
    decide

/-- **Every fact is true of every run**: the axioms, for all circles and for those of its size, the
start, the dynamics of every step, and whatever a run of the plan commits, which with a solver that
refutes every query is all axioms and claims.  So the fact base has a model for every size. -/
theorem facts_true_of_runs :
    (∀ counts, Dynamics.Admissible counts →
      (∃ I, (Course.of I).IsRun Dynamics.nextValue counts) ∧
      ∀ I ρ, (Course.of I).IsRun Dynamics.nextValue counts →
        (∀ f ∈ (processOn none).axioms, Satisfies I ρ f.formula) ∧
        (∀ n : CircleSize, n.val = counts.length →
          ∀ f ∈ (processOn (some n)).axioms, Satisfies I ρ f.formula) ∧
        Satisfies I ρ (initialCounts counts).formula ∧
        (∀ size (k : Nat) layer, ∃ t,
          (processOn size).transition (.ofInts (.num k) (.num (k + 1)) layer) = .ok t ∧
            Satisfies I ρ t.formula) ∧
        (∀ f ∈ conclusions, Satisfies I ρ f.formula) ∧
        ∀ s replies raising,
          let c := (Proof.outcome (run standard (chosen [] s) raising) (Context.start s replies)).2
          (∀ entry ∈ c.base.facts, Satisfies I ρ entry.2.formula) ∧
            ∀ a ∈ c.session.base, Satisfies I ρ a.formula) ∧
    defaultRun.2.base.facts = (standard.axioms ++ conclusions).map (fun f => (f.name, f)) ∧
    ∀ n : CircleSize, ∃ I, (Course.of I).size = n.val ∧
      ∀ ρ, ∀ a ∈ defaultRun.2.session.base, Satisfies I ρ a.formula := by
  obtain ⟨_, hkeeps⟩ := base_defaultRun
  refine ⟨fun counts hstart => ⟨exists_isRun_of hstart, fun I ρ h => ?_⟩, hkeeps.facts, fun n => ?_⟩
  · refine ⟨satisfies_axioms_of_isRun hstart h none (by simp), fun n hn => ?_,
      satisfies_initialCounts_of_isRun h, satisfies_transition_of_isRun h,
      satisfies_conclusions (h.lawful hstart) h.stepsBy,
      satisfies_base_of_run hstart h⟩
    exact satisfies_axioms_of_isRun hstart h (some n) (by simpa using hn)
  · obtain ⟨I, h⟩ := exists_isRun_of (admissible_replicate n)
    refine ⟨I, by simpa using h.size_eq, fun ρ => ?_⟩
    exact (satisfies_base_of_run (admissible_replicate n) h _ _ _).2

/-- The histogram axiom is true of the run from two, nothing and nothing. -/
theorem histogramLeaves_true_of_run :
    ∃ I, (Course.of I).IsRun Dynamics.nextValue [2, 0, 0] ∧
      ∀ ρ, Satisfies I ρ histogramLeaves.formula := by
  have hstart : Dynamics.Admissible [2, 0, 0] := by
    refine ⟨by decide, by decide⟩
  obtain ⟨⟨I, hI⟩, htrue⟩ := facts_true_of_runs.1 [2, 0, 0] hstart
  exact ⟨I, hI, fun ρ => (htrue I ρ hI).1 histogramLeaves (by simp [axioms])⟩

end Plan

end CandyCircle
