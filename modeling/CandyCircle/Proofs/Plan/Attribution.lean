/-
**Queries are attributed to one step.**

The names of the claims that a step of the plan asks about are its own name or names below it, those
of the nested inductions and of the parts of a lemma among them, and none of them is below the name
of another step.  So however far a run gets, what it enters into the ledger while it takes a step is
what the ledger has under the name of that step, and no entry belongs to two steps.

Main definitions:

* `CandyCircle.Plan.Call.entries` — what a call enters into the ledger;
* `CandyCircle.Plan.Call.Attributed` — its entries belong to its step and to no other one.

Main results:

* `CandyCircle.Plan.Call.Made.attributed`, `CandyCircle.Plan.Called.attributed` — **calls of the
  steps of the plan**, and calls of one step after another;
* `CandyCircle.Plan.filter_flatMap_entries` — the entries of calls by the names of their steps;
* `CandyCircle.Plan.queries_attributed` — **every entry of a run belongs to one step**.
-/
import CandyCircle.Proofs.Ledger.Lemmas
import CandyCircle.Proofs.Plan.Gating

set_option autoImplicit false

namespace CandyCircle.Plan

open Proof

variable {v : Vocabulary} {count index : Nat} {c c' : Context}

/-! ### Calls of the steps of the plan -/

namespace Call

/-- What a call enters into the ledger. -/
def entries (call : Call) : List Obligation :=
  call.exchanges.map Exchange.entry

/-- **The entries of a call belong to its step**, and to no other one of the plan. -/
def Attributed (call : Call) : Prop :=
  ∀ o ∈ call.entries, BelongsTo call.step o.lemmaName

/-- **A call of a step of the plan** asks about the claims of its stage, and if it returns the fact
of the stage is known from then on. -/
theorem Made.attributed {call : Call} (hmade : call.Made v) {s : Stage} (hs : s ∈ stages)
    (hstep : call.step = s.step) {V : View} (hV : V.frames = [])
    (hhas : V.Has (baseFacts ++ s.required)) (hshows : call.before.Shows V) :
    call.Attributed ∧ ((∃ f, call.result = .ok f) → call.after.Shows (s.after V)) := by
  obtain ⟨l, hl, hruns⟩ := s.poses (v := v) hV hhas
  -- what is asked is a part of the queries of the stage, whether the call returns or not
  have hattributed {xs : List Exchange} (hheard : call.before.Heard call.after xs)
      (hxs : xs.map Exchange.query <+: l) : call.Attributed := by
    obtain rfl := hmade.heard.unique hheard
    intro o ho
    obtain ⟨x, hx, rfl⟩ := List.mem_map.1 ho
    have hclaim : x.entry.lemmaName ∈ s.claims := by
      rw [← s.names_queries hl]
      exact List.mem_map_of_mem (f := Prod.fst) (hxs.subset (List.mem_map_of_mem hx))
    rw [BelongsTo, hstep]
    exact belongsTo_claims s hs _ hclaim
  have hasks := hruns _ hshows
  rw [Asks, ← hstep, hmade.outcome] at hasks
  cases hresult : call.result with
  | error e =>
      rw [hresult] at hasks
      obtain ⟨⟨xs, hheard, hxs⟩, -⟩ := hasks
      refine ⟨hattributed hheard hxs, ?_⟩
      rintro ⟨f, ⟨⟩⟩
  | ok f =>
      rw [hresult] at hasks
      obtain ⟨xs, hheard, hxs, -, V', hshows', -, rfl⟩ := hasks
      exact ⟨hattributed hheard (hxs ▸ List.prefix_rfl), fun _ => hshows'⟩

end Call

/-- An entry into the log changes nothing that matters. -/
theorem shows_logged {V : View} (hc : c.Shows V) (level : LogLevel) (source : LogSource)
    (message : String) : (c.logged level source message).Shows V :=
  ⟨hc.facts, hc.committed, hc.base, hc.frames, hc.depth, hc.issued⟩

/-- **Calls of one step after another**, all of which but the last one are completed: each of them
belongs to its step, and once it is completed the fact of that name is committed. -/
theorem Called.attributed {calls : List Call} (h : Called v count index c calls c') :
    ∀ {ss : List Stage} {V : View}, calls.map Call.step <+: ss.map Stage.step →
      (∀ call ∈ calls.dropLast, call.Completed) → (∀ s ∈ ss, s ∈ stages) → V.frames = [] →
      Ready ss V → c.Shows V →
      ∀ call ∈ calls, call.Attributed ∧
        (call.Completed → call.step.name ∈ call.after.committed) := by
  induction h with
  | none index c => simp
  | @next _ _ _ call calls hmade hbefore _ ih =>
      intro ss V hsteps hcompleted hss hV hready hshows
      cases ss with
      | nil => cases List.prefix_nil.1 hsteps
      | cons s rest =>
          obtain ⟨hstep, hrest⟩ := List.cons_prefix_cons.1 hsteps
          obtain ⟨hs, hss⟩ := List.forall_mem_cons.1 hss
          obtain ⟨hattributed, hafter⟩ := hmade.attributed hs hstep hV hready.1
            (hbefore ▸ shows_logged hshows _ _ _)
          refine List.forall_mem_cons.2 ⟨⟨hattributed, fun h => ?_⟩, ?_⟩
          · rw [(hafter h.1).committed, hstep, ← s.name_fact]
            exact List.mem_append_right _ (List.mem_singleton_self _)
          · cases hcalls : calls with
            | nil => simp
            | cons second others =>
                -- there is another call, so that this one was completed
                rw [hcalls, List.dropLast_cons_cons] at hcompleted
                obtain ⟨⟨hreturned, -⟩, hcompleted⟩ := List.forall_mem_cons.1 hcompleted
                subst hcalls
                exact ih (V := s.after V) hrest hcompleted hss hV hready.2 (hafter hreturned)

/-! ### Entries by the names of steps -/

theorem nodup_names_lemmas : (lemmas.map LemmaStep.name).Nodup := by
  decide

/-- Steps of the plan are told apart by their names. -/
theorem eq_of_name_eq {s t : LemmaStep} (hs : s ∈ lemmas) (ht : t ∈ lemmas)
    (h : s.name = t.name) : s = t :=
  List.inj_on_of_nodup_map nodup_names_lemmas hs ht h

/-- **The entries of calls by the names of their steps**: each call has its own. -/
theorem filter_flatMap_entries {calls : List Call} (hnodup : (calls.map Call.step).Nodup)
    (hsteps : ∀ call ∈ calls, call.step ∈ lemmas) (hcalls : ∀ call ∈ calls, call.Attributed)
    {call : Call} (hcall : call ∈ calls) :
    ((calls.flatMap Call.entries).filter fun o => Ledger.belongsTo call.step.name o.lemmaName) =
      call.entries := by
  have hnone {others : List Call} (hothers : ∀ other ∈ others, other ∈ calls)
      (hne : call.step ∉ others.map Call.step) : (others.flatMap Call.entries).filter
        (fun o => Ledger.belongsTo call.step.name o.lemmaName) = [] := by
    refine List.filter_eq_nil_iff.2 fun o ho => ?_
    obtain ⟨other, hother, ho⟩ := List.mem_flatMap.1 ho
    have hmem := hothers other hother
    rw [hcalls other hmem o ho _ (hsteps call hcall), beq_iff_eq]
    intro hname
    refine hne (List.mem_map.2 ⟨other, hother, ?_⟩)
    exact (eq_of_name_eq (hsteps call hcall) (hsteps other hmem) hname).symm
  obtain ⟨before, after, rfl⟩ := List.mem_iff_append.1 hcall
  rw [List.map_append, List.map_cons] at hnodup
  have hbefore : call.step ∉ before.map Call.step := fun h =>
    List.disjoint_of_nodup_append hnodup h List.mem_cons_self
  have hafter := (List.nodup_cons.1 hnodup.of_append_right).1
  rw [List.flatMap_append, List.flatMap_cons, List.filter_append, List.filter_append,
    hnone (fun _ h => List.mem_append_left _ h) hbefore,
    hnone (fun _ h => List.mem_append_right _ (List.mem_cons_of_mem _ h)) hafter,
    List.nil_append, List.append_nil]
  refine List.filter_eq_self.2 fun o ho => ?_
  rw [hcalls call hcall o ho _ (hsteps call hcall)]
  exact beq_self_eq_true _

/-! ### The whole run -/

theorem chosen_isPrefix (s : Settings.Options) : chosen [] s <+: lemmas := by
  rw [chosen_nil, ← map_step_stages]
  exact (chosenStages_isPrefix s).map Stage.step

/-- Once the axioms are committed a state shows them and nothing else. -/
theorem shows_axioms {s : Settings.Options} {replies : List Prepared}
    (h : outcome (assertAxioms v) (.start s replies) = (.ok ⟨⟩, c)) :
    c.Shows (.ofFacts v.axioms 0) := by
  have hnothing : (Context.start s replies).Shows (.ofFacts [] 0) :=
    ⟨rfl, rfl, rfl, rfl, rfl, rfl⟩
  obtain ⟨_, -, -, -, hok⟩ := commits_spec v.axioms hnothing
  have hshows := (hok ⟨⟩ (congrArg Prod.fst h)).1
  have hstate : (outcome (v.axioms.forM fun f => commit f) (.start s replies)).2 = c :=
    congrArg Prod.snd h
  rwa [hstate] at hshows

/-- **The calls of a run of the plan**: completed ones, and the one that ended the run if there is
such a call. -/
theorem run_completed (v : Vocabulary) (s : Settings.Options) (replies : List Prepared)
    (raising : Bool) :
    let plan := chosen [] s
    let start := Context.start s replies
    let r := outcome (run v plan raising) start
    ∃ c₀ completed failed c, outcome (assertAxioms v) start = (.ok ⟨⟩, c₀) ∧
      Called v plan.length 1 c₀ (completed ++ failed) c ∧
      (completed ++ failed).map Call.step <+: plan ∧ failed.length ≤ 1 ∧
      (∀ call ∈ completed, call.Completed) ∧
      r.2.ledger.entries = (completed ++ failed).flatMap Call.entries ∧
      r.2.committed = c.committed ∧
      ∀ report, r.1 = .ok report → report.ledger = r.2.ledger ∧
        report.committed = r.2.committed ∧
        ∀ call ∈ failed, report.stop.map Stop.step = some call.step.name := by
  intro plan start r
  obtain ⟨c₀, completed, c₁, haxioms, hheard, -, hcalled, hcompleted, h⟩ :=
    run_cases v plan raising s replies fun step hstep =>
      operates_lemmas step ((chosen_isPrefix s).subset hstep)
  have hentries {calls : List Call} {c : Context} (h : Called v plan.length 1 c₀ calls c) :
      c.ledger.entries = calls.flatMap Call.entries := by
    rw [h.entries, hheard.entries_of_start]
    rfl
  rcases h with ⟨hall, hr⟩ | ⟨step, later, e, failed, c₂, hsplit, hfails, hr⟩
  · have hr : r = _ := hr
    rw [hr]
    refine ⟨c₀, completed, [], c₁, haxioms, ?_⟩
    rw [List.append_nil]
    refine ⟨hcalled, hall ▸ List.prefix_rfl, by simp, hcompleted, hentries hcalled, rfl, ?_⟩
    rintro report hreport
    cases hreport
    exact ⟨rfl, rfl, by simp⟩
  · obtain ⟨hfailed, hstep⟩ := hfails.called
    rw [Nat.add_comm] at hfailed
    have hcalls := hcalled.append hfailed
    have hledger := hentries hcalls
    have hinitial : (completed ++ failed).map Call.step <+: plan := by
      rw [hsplit, List.map_append]
      exact (List.prefix_append_right_inj _).2 (hstep.trans (List.prefix_append [step] later))
    have hlength : failed.length ≤ 1 := by
      simpa using hstep.length_le
    have hr : r = _ := hr
    rw [hr]
    refine ⟨c₀, completed, failed, c₂, haxioms, hcalls, hinitial, hlength, hcompleted, ?_⟩
    have hname : ∀ call ∈ failed, call.step.name = step.name := fun call hcall =>
      congrArg LemmaStep.name (by simpa using hstep.subset (List.mem_map_of_mem hcall))
    cases e.ofProof with
    | false => exact ⟨hledger, rfl, fun report hreport => by cases hreport⟩
    | true =>
        cases raising with
        | true => exact ⟨hledger, rfl, fun report hreport => by cases hreport⟩
        | false =>
            refine ⟨hledger, rfl, fun report hreport => ?_⟩
            cases hreport
            exact ⟨rfl, rfl, fun call hcall => congrArg some (hname call hcall).symm⟩

/-- **Queries are attributed to one step.**  In any ledger a lemma has the entries of its
sub-lemmas, and lemmas of which none is below the other one have no entry in common, all of them in
the order of the ledger.  In a run of the plan, whatever the solver replies, what the ledger has
under the name of a step is what was asked while that step was taken, and every entry belongs to one
step of the plan only: to one that was completed and whose fact is committed, or to the one that
ended the run and that the report names. -/
theorem queries_attributed :
    (∀ (l : Ledger) (a b : String), (l.forLemma a).Sublist l.entries ∧
      (Ledger.Above a b → (l.forLemma b).Sublist (l.forLemma a)) ∧
      (¬ Ledger.Above a b → ¬ Ledger.Above b a → (l.forLemma a).Disjoint (l.forLemma b))) ∧
    ∀ (v : Vocabulary) (s : Settings.Options) (replies : List Prepared) (raising : Bool),
      let plan := chosen [] s
      let start := Context.start s replies
      let r := outcome (run v plan raising) start
      ∃ c₀ completed failed c, outcome (assertAxioms v) start = (.ok ⟨⟩, c₀) ∧
        Called v plan.length 1 c₀ (completed ++ failed) c ∧
        (completed ++ failed).map Call.step <+: plan ∧ failed.length ≤ 1 ∧
        (∀ call ∈ completed, call.Completed ∧ call.step.name ∈ r.2.committed) ∧
        (∀ report, r.1 = .ok report → report.ledger = r.2.ledger ∧
          report.committed = r.2.committed ∧
          ∀ call ∈ failed, report.stop.map Stop.step = some call.step.name) ∧
        (∀ call ∈ completed ++ failed, r.2.ledger.forLemma call.step.name = call.entries) ∧
        ∀ o ∈ r.2.ledger.entries, ∃ call ∈ completed ++ failed, o ∈ call.entries ∧
          ∀ step ∈ plan, o ∈ r.2.ledger.forLemma step.name ↔ step = call.step := by
  refine ⟨fun l a b => ⟨l.forLemma_sublist_entries a, Ledger.forLemma_sublist,
    Ledger.disjoint_forLemma⟩, fun v s replies raising => ?_⟩
  intro plan start r
  obtain ⟨c₀, completed, failed, c, haxioms, hcalled, hinitial, hlength, hcompleted, hentries,
    hcommitted, hreport⟩ := run_completed v s replies raising
  have hbefore : ∀ call ∈ (completed ++ failed).dropLast, call.Completed := by
    intro call hcall
    have hnil : failed.dropLast = [] :=
      List.length_eq_zero_iff.1 (by rw [List.length_dropLast]; omega)
    rw [List.dropLast_append, hnil, List.append_nil] at hcall
    split at hcall
    · exact hcompleted call ((List.dropLast_sublist _).subset hcall)
    · exact hcompleted call hcall
  have hattributed := hcalled.attributed (chosen_nil s ▸ hinitial) hbefore
    (fun t ht => (chosenStages_isPrefix s).subset ht) rfl (ready_chosenStages v s)
    (shows_axioms haxioms)
  have hplan : ∀ step ∈ plan, step ∈ lemmas := fun step hstep => (chosen_isPrefix s).subset hstep
  have hsteps : ∀ call ∈ completed ++ failed, call.step ∈ lemmas := fun call hcall =>
    hplan _ (hinitial.subset (List.mem_map_of_mem hcall))
  have hnodup : ((completed ++ failed).map Call.step).Nodup :=
    ((nodup_names_lemmas.of_map _).sublist (chosen_isPrefix s).sublist).sublist hinitial.sublist
  have hown : ∀ call ∈ completed ++ failed, r.2.ledger.forLemma call.step.name = call.entries := by
    intro call hcall
    rw [Ledger.forLemma, hentries]
    exact filter_flatMap_entries hnodup hsteps (fun call hcall => (hattributed call hcall).1) hcall
  refine ⟨c₀, completed, failed, c, haxioms, hcalled, hinitial, hlength, fun call hcall => ?_,
    hreport, hown, fun o ho => ?_⟩
  · have hmem := List.mem_append_left failed hcall
    refine ⟨hcompleted call hcall, ?_⟩
    rw [hcommitted]
    exact (hcalled.prefix_committed call hmem).subset
      ((hattributed call hmem).2 (hcompleted call hcall))
  · have hcall := hentries ▸ ho
    obtain ⟨call, hcall, hmem⟩ := List.mem_flatMap.1 hcall
    refine ⟨call, hcall, hmem, fun step hstep => ?_⟩
    have hbelongs := (hattributed call hcall).1 o hmem step (hplan step hstep)
    rw [Ledger.mem_forLemma, ← Ledger.belongsTo_iff, hbelongs, beq_iff_eq]
    constructor
    · exact fun h => eq_of_name_eq (hplan step hstep) (hsteps call hcall) h.2
    · rintro rfl
      exact ⟨ho, rfl⟩

end CandyCircle.Plan
