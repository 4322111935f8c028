/-
**The calls of a run.**

A run of a plan calls the proofs of its steps, whatever they are, one after another.  A call is made
only while no layer is open and only if everything that the step requires is visible, and between
two calls nothing happens but entries into the log.  The first step that is not called, whose proof
fails or that leaves a layer open ends the run.  So everything that a run asks and commits, besides
the axioms, is asked and committed by its calls.

Main definitions:

* `CandyCircle.Plan.Call` — the call of a step's proof, with everything that it does;
* `CandyCircle.Plan.Call.Made`, `CandyCircle.Plan.Call.Completed` — what every call has in common,
  and a call that does what it should;
* `CandyCircle.Plan.Called` — **calls one after another**;
* `CandyCircle.Plan.Fails` — the three ways in which a step ends a run;
* `CandyCircle.Plan.established` — the theorem that calls established.

Main results:

* `CandyCircle.Plan.runStep_cases`, `CandyCircle.Plan.runSteps_cases` — **how a step and how all
  steps of a plan are taken**;
* `CandyCircle.Plan.Called.entries`, `CandyCircle.Plan.Called.committed` — what calls ask and
  commit.
-/
import CandyCircle.Proofs.Plan.Axioms
import CandyCircle.Proofs.Plan.Growth
import CandyCircle.Proofs.Plan.Outcome
import CandyCircle.Proofs.Refutation.AllOrNothing

set_option autoImplicit false

namespace CandyCircle

open Logic

/-! ### What operations ask -/

namespace Context

variable {c c' : Context}

/-- An operation asks one query at most. -/
theorem Moves.heard (h : Moves c c') : ∃ xs, c.Heard c' xs := by
  cases h with
  | push name => exact ⟨[], Proof.heard_push c name⟩
  | pop hpop =>
      rw [(Proof.eq_of_pop hpop).2]
      exact ⟨[], Proof.heard_closeInnermost c⟩
  | unwind layer => exact ⟨[], (Proof.heard_unwind c layer).1⟩
  | declare stem kind => exact ⟨[], (Adds.declare c stem kind).quiet.1⟩
  | assume hassume => exact ⟨[], (Adds.assume hassume).quiet.1⟩
  | assumeFact hassume => exact ⟨[], (Adds.assumeFact hassume).quiet.1⟩
  | commit hcommit =>
      obtain ⟨-, -, -, rfl⟩ := Proof.inv_of_commit hcommit
      exact ⟨[], .of_eq rfl (c.session.asked_add _)⟩
  | check name rule claim =>
      obtain ⟨xs, hheard, -⟩ := Proof.stops_checkRefuted name rule claim c
      exact ⟨xs, hheard⟩
  | setOutcome layer v => exact ⟨[], .of_eq rfl rfl⟩
  | log level source message => exact ⟨[], .of_eq rfl rfl⟩

theorem Leads.heard (h : c.Leads c') : ∃ xs, c.Heard c' xs := by
  induction h with
  | refl => exact ⟨[], .refl c⟩
  | tail _ hmove ih =>
      obtain ⟨xs, hxs⟩ := ih
      obtain ⟨ys, hys⟩ := hmove.heard
      exact ⟨xs ++ ys, hxs.trans hys⟩

end Context

namespace Plan

open Proof Vocabulary

variable {v : Vocabulary} {count index : Nat} {c c' c'' : Context}

/-! ### Calls -/

/-- The call of a step's proof. -/
structure Call where
  step : LemmaStep
  /-- The state in which the proof begins. -/
  before : Context
  /-- The state in which it ends. -/
  after : Context
  /-- What it returns, or the failure with which it ends. -/
  result : Except Failure Fact
  /-- What it does. -/
  operations : List Operation
  /-- What it asks. -/
  exchanges : List Exchange

namespace Call

/-- The facts that a call commits. -/
def commits (call : Call) : List Fact :=
  Operation.commits call.before call.operations

/-- **A call was made**: no layer was open, everything that the step requires was visible, and its
proof did what it does there. -/
structure Made (v : Vocabulary) (call : Call) : Prop where
  depth : call.before.depth = 0
  granted : ∀ name ∈ call.step.requires, call.before.hasFact name = true
  outcome : outcome (call.step.prove v) call.before = (call.result, call.after)
  operated : call.after = Operation.run call.before call.operations
  heard : call.before.Heard call.after call.exchanges

/-- A call returned a fact and left no layer open. -/
def Completed (call : Call) : Prop :=
  (∃ f, call.result = .ok f) ∧ call.after.depth = 0

/-- The theorem, if it is what a call established. -/
def conclusion? (call : Call) : Option Fact :=
  if call.step.name == theoremName then call.result.toOption else none

end Call

/-- **Calls one after another**, the first of them at some place in the plan: between them nothing
happens but that the log says which step is taken. -/
inductive Called (v : Vocabulary) (count : Nat) : Nat → Context → List Call → Context → Prop where
  | none (index : Nat) (c : Context) : Called v count index c [] c
  | next {index : Nat} {c c' : Context} {call : Call} {calls : List Call} (hmade : call.Made v)
      (hbefore : call.before = c.logged .info .plan (stepMessage index count call.step))
      (hrest : Called v count (index + 1) call.after calls c') :
      Called v count index c (call :: calls) c'

/-- **How a step ends a run**, from one state to another and with at most one call. -/
inductive Fails (v : Vocabulary) (count index : Nat) (step : LemmaStep) (c : Context) :
    Failure → List Call → Context → Prop where
  /-- Something that it requires is not visible, and its proof is not called. -/
  | missing {first : String} {others : List String} (h : missing c step = first :: others) :
      Fails v count index step c (.scope (.missingRequirements step.name (first :: others))) [] c
  /-- Its proof fails. -/
  | raised {call : Call} {e : Failure} (hstep : call.step = step)
      (hcalled : Called v count index c [call] call.after) (hresult : call.result = .error e) :
      Fails v count index step c e [call] call.after
  /-- Its proof returns but leaves layers open. -/
  | leftOpen {call : Call} {f : Fact} (hstep : call.step = step)
      (hcalled : Called v count index c [call] call.after) (hresult : call.result = .ok f)
      (hopen : call.after.depth ≠ 0) :
      Fails v count index step c
        (.scope (.layersLeftOpen step.name call.after.depth call.after.current.name)) [call]
        call.after

/-- The theorem that calls established: what the last call of the step of that name returned. -/
def established (calls : List Call) : Option Fact :=
  (calls.filterMap Call.conclusion?).getLast?

section Calls

variable {call : Call} {calls calls' : List Call}

theorem Called.append (h : Called v count index c calls c')
    (h' : Called v count (index + calls.length) c' calls' c'') :
    Called v count index c (calls ++ calls') c'' := by
  induction h with
  | none index c => exact h'
  | @next index _ _ call calls hmade hbefore _ ih =>
      refine .next hmade hbefore (ih ?_)
      rwa [List.length_cons, Nat.add_comm calls.length, ← Nat.add_assoc] at h'

/-- **What calls ask** is all that is entered into the ledger. -/
theorem Called.entries (h : Called v count index c calls c') : c'.ledger.entries =
    c.ledger.entries ++ calls.flatMap fun call => call.exchanges.map Exchange.entry := by
  induction h with
  | none index c => exact (List.append_nil _).symm
  | next hmade hbefore _ ih =>
      rw [ih, hmade.heard.entries, hbefore, List.flatMap_cons, ← List.append_assoc]
      rfl

/-- **What calls commit** is all that is committed. -/
theorem Called.committed (h : Called v count index c calls c') : c'.committed =
    c.committed ++ calls.flatMap fun call => call.commits.map Fact.name := by
  induction h with
  | none index c => exact (List.append_nil _).symm
  | @next _ _ _ call _ hmade hbefore _ ih =>
      have hcall : call.after.committed =
          call.before.committed ++ call.commits.map Fact.name := by
        rw [hmade.operated]
        exact Operation.committed_run _ _
      rw [ih, hcall, hbefore, List.flatMap_cons, ← List.append_assoc]
      rfl

/-- What was committed once a call had ended stays committed. -/
theorem Called.prefix_committed (h : Called v count index c calls c') :
    ∀ call ∈ calls, call.after.committed <+: c'.committed := by
  induction h with
  | none index c => simp
  | next _ _ hrest ih =>
      refine List.forall_mem_cons.2 ⟨?_, ih⟩
      rw [hrest.committed]
      exact List.prefix_append _ _

/-- A step that ends a run calls its own proof, if any. -/
theorem Fails.called {step : LemmaStep} {e : Failure}
    (h : Fails v count index step c e calls c') :
    Called v count index c calls c' ∧ calls.map Call.step <+: [step] := by
  cases h with
  | missing h => exact ⟨.none index c, List.nil_prefix⟩
  | raised hstep hcalled => exact ⟨hcalled, by rw [← hstep]; exact List.prefix_rfl⟩
  | leftOpen hstep hcalled => exact ⟨hcalled, by rw [← hstep]; exact List.prefix_rfl⟩

/-- A failure that is not one of the proof comes from the step's own proof. -/
theorem Fails.ofProof_or {step : LemmaStep} {e : Failure}
    (h : Fails v count index step c e calls c') :
    e.ofProof = true ∨ ∃ call ∈ calls, call.result = .error e := by
  cases h with
  | missing h => exact .inl rfl
  | raised _ _ hresult => exact .inr ⟨_, List.mem_singleton_self _, hresult⟩
  | leftOpen => exact .inl rfl

end Calls

/-! ### Taking steps -/

/-- A proof that goes by operations can be called while no layer is open and everything that its
step requires is visible. -/
theorem exists_call (count index : Nat) {step : LemmaStep} (hstep : Operates (step.prove v))
    (hdepth : c.depth = 0) (hmissing : missing c step = []) :
    ∃ call : Call, call.step = step ∧ Called v count index c [call] call.after ∧
      outcome (step.prove v) (c.logged .info .plan (stepMessage index count step)) =
        (call.result, call.after) := by
  let before := c.logged .info .plan (stepMessage index count step)
  obtain ⟨ops, hops⟩ := Operation.leads_iff.1 (hstep before)
  obtain ⟨xs, hxs⟩ := (hstep before).heard
  have hgranted : ∀ name ∈ step.requires, c.hasFact name = true := by
    simpa [missing, List.filter_eq_nil_iff] using hmissing
  let call : Call := ⟨step, before, (outcome (step.prove v) before).2,
    (outcome (step.prove v) before).1, ops, xs⟩
  have hmade : call.Made v := ⟨hdepth, hgranted, rfl, hops, hxs⟩
  exact ⟨call, rfl, .next hmade rfl (.none _ _), rfl⟩

/-- A step is taken by a call of its proof if everything that it requires is visible. -/
theorem outcome_runStep {step : LemmaStep} (hmissing : missing c step = []) :
    outcome (runStep v count index step) c =
      match outcome (step.prove v) (c.logged .info .plan (stepMessage index count step)) with
      | (.ok f, c') =>
          if c'.depth ≠ 0 then
            (.error (.scope (.layersLeftOpen step.name c'.depth c'.current.name)), c')
          else (.ok f, c')
      | (.error e, c') => (.error e, c') := by
  rw [runStep, outcome_bind, look, outcome_change]
  simp only [hmissing, outcome_bind, log, outcome_change]
  generalize outcome (step.prove v) _ = r
  obtain ⟨r, c'⟩ := r
  cases r with
  | error e => rfl
  | ok f =>
      simp only [look, outcome_change, id]
      split <;> rfl

/-- **How a step is taken**: its proof is called and completed, or it ends the run. -/
theorem runStep_cases (count index : Nat) {step : LemmaStep} (hstep : Operates (step.prove v))
    (hdepth : c.depth = 0) :
    (∃ (call : Call) (f : Fact), call.step = step ∧ Called v count index c [call] call.after ∧
        call.result = .ok f ∧ call.after.depth = 0 ∧
        outcome (runStep v count index step) c = (.ok f, call.after)) ∨
      ∃ e calls c', Fails v count index step c e calls c' ∧
        outcome (runStep v count index step) c = (.error e, c') := by
  cases hmissing : missing c step with
  | cons first others =>
      refine .inr ⟨_, [], c, .missing hmissing, ?_⟩
      rw [runStep, outcome_bind, look, outcome_change]
      simp only [hmissing]
      rfl
  | nil =>
      obtain ⟨call, hname, hcalled, hout⟩ := exists_call count index hstep hdepth hmissing
      rw [outcome_runStep hmissing, hout]
      cases hresult : call.result with
      | error e => exact .inr ⟨e, [call], _, .raised hname hcalled hresult, rfl⟩
      | ok f =>
          by_cases hopen : call.after.depth = 0
          · exact .inl ⟨call, f, hname, hcalled, hresult, hopen, by simp [hopen]⟩
          · exact .inr ⟨_, [call], _, .leftOpen hname hcalled hresult hopen, by simp [hopen]⟩

/-- A step more was completed before some others. -/
theorem established_cons {call : Call} {f : Fact} (hresult : call.result = .ok f)
    (calls : List Call) (conclusion : Option Fact) :
    (established calls).or (if call.step.name == theoremName then some f else conclusion) =
      (established (call :: calls)).or conclusion := by
  unfold established
  rw [List.filterMap_cons, Call.conclusion?, hresult, Except.toOption]
  split
  · rw [List.getLast?_cons]
    cases (calls.filterMap Call.conclusion?).getLast? <;> rfl
  · rfl

/-- **How the steps of a plan are taken**: all of them are completed, or the first one that is not
ends the run. -/
theorem runSteps_cases (count : Nat) (steps : List LemmaStep) :
    ∀ {c : Context} (index : Nat) (conclusion : Option Fact),
      (∀ step ∈ steps, Operates (step.prove v)) → c.depth = 0 →
      let r := outcome (runSteps v count (steps.zipIdx index) conclusion) c
      ∃ completed c₁, Called v count index c completed c₁ ∧
        (∀ call ∈ completed, call.Completed) ∧ c₁.depth = 0 ∧
        (completed.map Call.step = steps ∧
            r = (.ok ((established completed).or conclusion, none), c₁) ∨
          ∃ step later e calls c₂, steps = completed.map Call.step ++ step :: later ∧
            Fails v count (index + completed.length) step c₁ e calls c₂ ∧
            r = if e.ofProof then
                (.ok ((established completed).or conclusion,
                  some (⟨some (index + completed.length : Nat), step.name, some e.message⟩, e)),
                  c₂.logged .error .plan (stopMessage (index + completed.length) step e))
              else (.error e, c₂)) := by
  induction steps with
  | nil =>
      intro c index conclusion _ hdepth
      exact ⟨[], c, .none index c, by simp, hdepth, .inl ⟨rfl, rfl⟩⟩
  | cons step rest ih =>
      intro c index conclusion hsteps hdepth
      obtain ⟨hstep, hrest⟩ := List.forall_mem_cons.1 hsteps
      rw [List.zipIdx_cons, outcome_runSteps_cons]
      rcases runStep_cases count index hstep hdepth with
        ⟨call, f, rfl, hcalled, hresult, hopen, hout⟩ | ⟨e, calls, c₂, hfails, hout⟩
      · rw [hout]
        obtain ⟨completed, c₁, hcalled', hcompleted, hdepth', h⟩ :=
          ih (index + 1) (if call.step.name == theoremName then some f else conclusion) hrest hopen
        rw [established_cons hresult] at h
        have hindex : index + 1 + completed.length = index + (call :: completed).length := by
          rw [List.length_cons]
          omega
        rw [hindex] at h
        refine ⟨call :: completed, c₁, hcalled.append hcalled',
          List.forall_mem_cons.2 ⟨⟨⟨f, hresult⟩, hopen⟩, hcompleted⟩, hdepth', ?_⟩
        rcases h with ⟨hall, hr⟩ | ⟨step, later, e, calls, c₂, hsplit, hfails, hr⟩
        · exact .inl ⟨by rw [List.map_cons, hall], hr⟩
        · exact .inr ⟨step, later, e, calls, c₂, by rw [hsplit]; rfl, hfails, hr⟩
      · rw [hout]
        exact ⟨[], c, .none index c, by simp, hdepth,
          .inr ⟨step, rest, e, calls, c₂, rfl, hfails, rfl⟩⟩

end Plan

end CandyCircle
