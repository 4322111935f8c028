/-
**Plans are run as they are given.**

Whatever the steps of a plan do, a run takes them strictly in order, each only if what it requires
is there, and stops at the first one that fails, is not granted what it requires or leaves a layer
open.  The report names that step, and it says that the theorem was proved just if no step failed
and the step of that name was completed.  A plan without steps is not run as it is given: the
standard plan is run in its place.

Main definitions:

* `CandyCircle.Plan.Reports` — what a report says of a run.

Main results:

* `CandyCircle.Plan.operates_lemmas` — the steps of the standard plan go by operations;
* `CandyCircle.Plan.run_cases` — **how a run of a plan goes**;
* `CandyCircle.Plan.run_gated` — **how a run of a plan is gated and where it stops**;
* `CandyCircle.Plan.run_given` — **a plan is run as it is given**;
* `CandyCircle.Plan.proved_nil` — a plan without steps proves the theorem.
-/
import CandyCircle.Proofs.Plan.Calls

set_option autoImplicit false

namespace CandyCircle.Plan

open Logic Proof Vocabulary

variable {v : Vocabulary}

/-- **The steps of the standard plan go by operations.** -/
theorem operates_lemmas : ∀ step ∈ lemmas, Operates (step.prove v) :=
  closed_operates.lemmas

/-! ### How a run goes -/

/-- What a report says of a run that completed some calls and ended in a state. -/
structure Reports (report : Report) (c : Context) (completed : List Call) : Prop where
  /-- It lists what was committed by then. -/
  committed : report.committed = c.committed
  /-- It lists what was asked by then. -/
  ledger : report.ledger = c.ledger
  /-- The theorem is what the last call of its step returned. -/
  conclusion : report.conclusion = established completed
  /-- It was proved just if no step failed and its step was completed. -/
  proved : report.proved = true ↔
    report.stop = none ∧ ∃ call ∈ completed, call.step.name = theoremName

/-- The theorem was established just if its step was completed. -/
theorem isSome_established {completed : List Call} (h : ∀ call ∈ completed, call.Completed) :
    (established completed).isSome = true ↔ ∃ call ∈ completed, call.step.name = theoremName := by
  rw [established, List.getLast?_isSome, Ne, List.filterMap_eq_nil_iff]
  simp only [not_forall, exists_prop]
  refine exists_congr fun call => and_congr_right fun hcall => ?_
  obtain ⟨⟨f, hresult⟩, -⟩ := h call hcall
  rw [Call.conclusion?, hresult]
  simp [Except.toOption]

theorem reports_reportOf {c : Context} {completed : List Call}
    (h : ∀ call ∈ completed, call.Completed) (stop : Option (Stop × Failure)) :
    Reports (reportOf c (established completed, stop)) c completed := by
  refine ⟨rfl, rfl, rfl, ?_⟩
  rw [Report.proved, Bool.and_eq_true, and_comm, ← isSome_established h]
  exact and_congr_left' Option.isNone_iff_eq_none

/-- **How a run of a plan goes**: the axioms are committed, calls are completed one after another,
and either all steps were taken or one of them ends the run. -/
theorem run_cases (v : Vocabulary) (plan : List LemmaStep) (raising : Bool)
    (options : Settings.Options) (replies : List Prepared)
    (hplan : ∀ step ∈ plan, Operates (step.prove v)) :
    let start := Context.start options replies
    let r := outcome (run v plan raising) start
    ∃ c₀ completed c₁, outcome (assertAxioms v) start = (.ok ⟨⟩, c₀) ∧ start.Heard c₀ [] ∧
      c₀.committed = v.axioms.map Fact.name ∧ Called v plan.length 1 c₀ completed c₁ ∧
      (∀ call ∈ completed, call.Completed) ∧
      (completed.map Call.step = plan ∧ r = (.ok (reportOf c₁ (established completed, none)), c₁) ∨
        ∃ step later e calls c₂, plan = completed.map Call.step ++ step :: later ∧
          Fails v plan.length (completed.length + 1) step c₁ e calls c₂ ∧
          let stop : Stop := ⟨some (completed.length + 1 : Nat), step.name, some e.message⟩
          let c₃ := c₂.logged .error .plan (stopMessage (completed.length + 1) step e)
          r = if !e.ofProof then (.error e, c₂)
            else if raising then (.error e, c₃)
            else (.ok (reportOf c₃ (established completed, some (stop, e))), c₃)) := by
  intro start r
  obtain ⟨c₀, haxioms, hheard, hdepth, hcommitted⟩ := assertAxioms_spec v options replies
  obtain ⟨completed, c₁, hcalled, hcompleted, -, h⟩ :=
    runSteps_cases plan.length plan 1 none hplan hdepth
  refine ⟨c₀, completed, c₁, haxioms, hheard, hcommitted, hcalled, hcompleted, ?_⟩
  have hrun : r = outcome
      (runSteps v plan.length (plan.zipIdx 1) none >>= reporting raising) c₀ := by
    change outcome (run v plan raising) start = _
    rw [run_eq, outcome_bind, haxioms]
  rw [hrun, outcome_bind]
  rw [Option.or_none, Nat.add_comm 1] at h
  rcases h with ⟨hall, hr⟩ | ⟨step, later, e, calls, c₂, hsplit, hfails, hr⟩
  · refine .inl ⟨hall, ?_⟩
    rw [hr]
    rfl
  · refine .inr ⟨step, later, e, calls, c₂, hsplit, hfails, ?_⟩
    rw [hr]
    cases e.ofProof with
    | false => rfl
    | true => cases raising <;> rfl

/-! ### Gating and stopping -/

/-- **How a run of a plan is gated and where it stops**, whatever its steps do and whatever the
solver replies.  Calls are made in the order of the plan, each while no layer is open and only if
everything that the step requires is visible.  Either all of them are completed, or the first step
that is not, in one of three ways, is the last one: the report names it and its place and lists what
was committed until then.  Only a failure that is not one of the proof is raised nevertheless, and
it comes from the call of that step. -/
theorem run_gated (steps : List LemmaStep) (s : Settings.Options) (replies : List Prepared)
    (hsteps : ∀ step ∈ chosen steps s, Operates (step.prove v)) :
    let plan := chosen steps s
    let start := Context.start s replies
    ∃ c₀ completed c₁ r c, outcome (assertAxioms v) start = (.ok ⟨⟩, c₀) ∧
      Called v plan.length 1 c₀ completed c₁ ∧ (∀ call ∈ completed, call.Completed) ∧
      outcome (run v plan false) start = (r, c) ∧
      (∀ call ∈ completed, call.after.committed <+: c.committed) ∧
      (completed.map Call.step = plan ∧ c = c₁ ∧
          (∃ report, r = .ok report ∧ Reports report c completed ∧ report.stop = none) ∨
        ∃ step later e calls c₂, plan = completed.map Call.step ++ step :: later ∧
          Fails v plan.length (completed.length + 1) step c₁ e calls c₂ ∧
          (e.ofProof = true ∧
              c = c₂.logged .error .plan (stopMessage (completed.length + 1) step e) ∧
              (∃ report, r = .ok report ∧ Reports report c completed ∧ report.stop =
                some ⟨some (completed.length + 1 : Nat), step.name, some e.message⟩) ∨
            e.ofProof = false ∧ c = c₂ ∧ r = .error e ∧
              ∃ call ∈ calls, call.result = .error e)) := by
  intro plan start
  obtain ⟨c₀, completed, c₁, haxioms, -, -, hcalled, hcompleted, h⟩ :=
    run_cases v plan false s replies hsteps
  have hkept {c : Context} (hcommitted : c₁.committed <+: c.committed) :
      ∀ call ∈ completed, call.after.committed <+: c.committed :=
    fun call hcall => (hcalled.prefix_committed call hcall).trans hcommitted
  rcases h with ⟨hall, hr⟩ | ⟨step, later, e, calls, c₂, hsplit, hfails, hr⟩
  · exact ⟨c₀, completed, c₁, _, c₁, haxioms, hcalled, hcompleted, hr, hkept List.prefix_rfl,
      .inl ⟨hall, rfl, _, rfl, reports_reportOf hcompleted none, rfl⟩⟩
  · have hlater : c₁.committed <+: c₂.committed := by
      rw [hfails.called.1.committed]
      exact List.prefix_append _ _
    cases hproof : e.ofProof with
    | true =>
        rw [hproof] at hr
        exact ⟨c₀, completed, c₁, _, _, haxioms, hcalled, hcompleted, hr, hkept hlater,
          .inr ⟨step, later, e, calls, c₂, hsplit, hfails,
            .inl ⟨hproof, rfl, _, rfl, reports_reportOf hcompleted _, rfl⟩⟩⟩
    | false =>
        rw [hproof] at hr
        have hraised := hfails.ofProof_or.resolve_left (by rw [hproof]; exact Bool.false_ne_true)
        exact ⟨c₀, completed, c₁, _, _, haxioms, hcalled, hcompleted, hr, hkept hlater,
          .inr ⟨step, later, e, calls, c₂, hsplit, hfails, .inr ⟨hproof, rfl, rfl, hraised⟩⟩⟩

/-- The plan that bounds the variants and then goes on at once to the step that needs more than
that. -/
def hasty : List LemmaStep :=
  lemmas.filter fun step => ["variant-bounded", "lex-decrease"].contains step.name

theorem mem_lemmas_of_hasty : ∀ step ∈ hasty, step ∈ lemmas :=
  fun _ hstep => (List.mem_filter.1 hstep).1

/-- A run of that plan stops at the second step, which is not granted what it requires. -/
theorem run_gated_hasty :
    let s := Settings.options {}
    ∃ c₀ completed c₁ report, (outcome (assertAxioms standard) (.start s [])) = (.ok ⟨⟩, c₀) ∧
      Called standard 2 1 c₀ completed c₁ ∧
      (outcome (run standard (chosen hasty s) false) (.start s [])).1 = .ok report ∧
      report.stop.map (fun stop => (stop.index, stop.step)) = some (some 2, "lex-decrease") ∧
      Reports report (outcome (run standard (chosen hasty s) false) (.start s [])).2 completed := by
  intro s
  have hstop : (outcome (run standard (chosen hasty s) false) (.start s [])).1.toOption.map
      (fun report => report.stop.map fun stop => (stop.index, stop.step)) =
        some (some (some 2, "lex-decrease")) := by decide +kernel
  obtain ⟨c₀, completed, c₁, r, c, haxioms, hcalled, -, hr, -, h⟩ := run_gated hasty s []
    fun step hstep => operates_lemmas step (mem_lemmas_of_hasty step hstep)
  rw [hr] at hstop ⊢
  rcases h with ⟨-, -, report, rfl, hreports, hnone⟩ | ⟨step, later, e, calls, c₂, -, -, h⟩
  · exact ⟨c₀, completed, c₁, report, haxioms, hcalled, rfl, Option.some.inj hstop, hreports⟩
  · rcases h with ⟨-, -, report, rfl, hreports, -⟩ | ⟨-, -, rfl, -⟩
    · exact ⟨c₀, completed, c₁, report, haxioms, hcalled, rfl, Option.some.inj hstop, hreports⟩
    · cases hstop

/-! ### Plans as they are given -/

/-- All calls of a run, that of the step that ended it among them, are made of a part of the plan
from its beginning, and the run ends where they end. -/
theorem run_calls (v : Vocabulary) (plan : List LemmaStep) (raising : Bool)
    (options : Settings.Options) (replies : List Prepared)
    (hplan : ∀ step ∈ plan, Operates (step.prove v)) :
    let start := Context.start options replies
    let r := outcome (run v plan raising) start
    ∃ c₀ completed calls c, outcome (assertAxioms v) start = (.ok ⟨⟩, c₀) ∧ start.Heard c₀ [] ∧
      c₀.committed = v.axioms.map Fact.name ∧ Called v plan.length 1 c₀ calls c ∧
      completed <+: calls ∧ calls.map Call.step <+: plan ∧
      r.2.ledger = c.ledger ∧ r.2.committed = c.committed ∧
      ∀ report, r.1 = .ok report → Reports report r.2 completed := by
  intro start r
  obtain ⟨c₀, completed, c₁, haxioms, hheard, hcommitted, hcalled, hcompleted, h⟩ :=
    run_cases v plan raising options replies hplan
  rcases h with ⟨hall, hr⟩ | ⟨step, later, e, calls, c₂, hsplit, hfails, hr⟩
  · have hr : r = _ := hr
    rw [hr]
    refine ⟨c₀, completed, completed, c₁, haxioms, hheard, hcommitted, hcalled, List.prefix_rfl,
      hall ▸ List.prefix_rfl, rfl, rfl, fun report hreport => ?_⟩
    cases hreport
    exact reports_reportOf hcompleted none
  · have hr : r = _ := hr
    obtain ⟨hcalls, hstep⟩ := hfails.called
    rw [Nat.add_comm] at hcalls
    have hprefix : (completed ++ calls).map Call.step <+: plan := by
      rw [hsplit, List.map_append]
      exact (List.prefix_append_right_inj _).2 (hstep.trans (List.prefix_append [step] later))
    rw [hr]
    refine ⟨c₀, completed, completed ++ calls, c₂, haxioms, hheard, hcommitted,
      hcalled.append hcalls, List.prefix_append _ _, hprefix, ?_⟩
    cases e.ofProof with
    | false => exact ⟨rfl, rfl, fun report hreport => by cases hreport⟩
    | true =>
        cases raising with
        | true => exact ⟨rfl, rfl, fun report hreport => by cases hreport⟩
        | false =>
            refine ⟨rfl, rfl, fun report hreport => ?_⟩
            cases hreport
            exact reports_reportOf hcompleted _

/-- **A plan is run as it is given**, if it has steps at all: whatever they do and whatever the
solver replies, calls are made of a part from its beginning, without the corollaries just if the
options say so, and everything that is asked and committed besides the axioms is asked and committed
by these calls.  Unless it has a step of that name, the theorem is not reported as proved. -/
theorem run_given (steps : List LemmaStep) (hne : steps ≠ []) (s : Settings.Options)
    (replies : List Prepared) (raising : Bool)
    (hsteps : ∀ step ∈ steps, Operates (step.prove v)) :
    let plan := if s.corollaries then steps else steps.filter fun step => !step.corollary
    let start := Context.start s replies
    let r := outcome (run v (chosen steps s) raising) start
    ∃ c₀ calls c, outcome (assertAxioms v) start = (.ok ⟨⟩, c₀) ∧
      Called v plan.length 1 c₀ calls c ∧ calls.map Call.step <+: plan ∧
      r.2.ledger.entries = (calls.flatMap fun call => call.exchanges.map Exchange.entry) ∧
      r.2.committed = v.axioms.map Fact.name ++
        (calls.flatMap fun call => call.commits.map Fact.name) ∧
      ∀ report, r.1 = .ok report → report.ledger = r.2.ledger ∧
        report.committed = r.2.committed ∧
        ((∀ step ∈ steps, step.name ≠ theoremName) → report.proved = false) := by
  intro plan start r
  have hplan : chosen steps s = plan := by
    rw [chosen, List.isEmpty_eq_false_iff.2 hne]
    rfl
  have hgiven : ∀ step ∈ chosen steps s, step ∈ steps := by
    intro step hstep
    rw [hplan] at hstep
    change step ∈ (if s.corollaries then steps else _) at hstep
    split at hstep
    · exact hstep
    · exact (List.mem_filter.1 hstep).1
  obtain ⟨c₀, completed, calls, c, haxioms, hheard, hcommitted, hcalled, hcompleted, hprefix,
    hledger, hnames, hreports⟩ := run_calls v (chosen steps s) raising s replies
      fun step hstep => hsteps step (hgiven step hstep)
  rw [← hplan]
  refine ⟨c₀, calls, c, haxioms, hcalled, hprefix, ?_, ?_, fun report hreport => ?_⟩
  · rw [hledger, hcalled.entries, hheard.entries_of_start]
    rfl
  · rw [hnames, hcalled.committed, hcommitted]
  · have hreports := hreports report hreport
    refine ⟨hreports.ledger, hreports.committed, fun hnone => ?_⟩
    rw [Bool.eq_false_iff]
    intro hproved
    obtain ⟨-, call, hcall, hname⟩ := hreports.proved.1 hproved
    have hmem : call.step ∈ chosen steps s :=
      hprefix.subset (List.mem_map_of_mem (hcompleted.subset hcall))
    exact hnone _ (hgiven _ hmem) hname

/-- A plan that leaves the theorem out. -/
def unfinished : List LemmaStep :=
  lemmas.filter fun step => ["variant-bounded", "uniform-at-convergence"].contains step.name

/-- A run of that plan takes all its steps and does not report the theorem as proved. -/
theorem run_given_unfinished :
    let r := outcome (run standard (chosen unfinished (Settings.options {})) true)
      (Context.start (Settings.options {}) [])
    unfinished ≠ [] ∧ ∃ report, r.1 = .ok report ∧ report.stop = none ∧ report.proved = false := by
  intro r
  have hne : unfinished ≠ [] := by decide
  have hcompleted : r.1.toOption.any (fun report => report.stop.isNone) = true := by decide +kernel
  obtain ⟨_, _, _, -, -, -, -, -, hreports⟩ :=
    run_given unfinished hne (Settings.options {}) [] true fun step hstep =>
      operates_lemmas (v := standard) step (List.mem_filter.1 hstep).1
  change ∀ report, r.1 = .ok report → _ at hreports
  generalize r.1 = result at hcompleted hreports ⊢
  cases result with
  | error e => cases hcompleted
  | ok report =>
      obtain ⟨-, -, hproved⟩ := hreports report rfl
      exact ⟨hne, report, rfl, Option.isNone_iff_eq_none.1 hcompleted, hproved (by decide)⟩

/-- **A plan without steps proves the theorem** although no step of it bears its name: the standard
plan is run in its place. -/
theorem proved_nil : ¬ ∀ steps : List LemmaStep, (∀ step ∈ steps, step.name ≠ theoremName) →
    (outcome (run standard (chosen steps (Settings.options {})) true)
      (Context.start (Settings.options {}) [])).1.toOption.any Report.proved = false := by
  intro h
  have hproved := proved_chosen (Settings.options {})
  rw [h [] (by simp)] at hproved
  cases hproved

end CandyCircle.Plan
