/-
**How a run of the plan ends.**

With a solver that refutes every query the plan runs to its end.  With any other one it does the
same up to the first query that is not refuted, and this is the last one: it may be asked four
layers deep, but the report names the step of the plan that asked it, all layers are closed again,
and the base holds the axioms and the facts of the steps before that one.

Main definitions:

* `CandyCircle.Plan.StopsAt` — a step ends a run with a query;
* `CandyCircle.Plan.HoldsOnly` — no layer is open, and the base holds some facts and nothing else.

Main results:

* `CandyCircle.Plan.follows_stages` — every step stops at the first of its queries that is not
  refuted;
* `CandyCircle.Plan.runSteps_outcome` — how the steps of a plan end;
* `CandyCircle.Plan.run_outcome` — **how a run of the plan ends**, whatever the solver replies.
-/
import CandyCircle.Proofs.Plan.Refuted
import CandyCircle.Proofs.Plan.Traversal
import CandyCircle.Proofs.Refutation.Comparing

set_option autoImplicit false

namespace CandyCircle.Plan

open Logic Proof Vocabulary

variable {v : Vocabulary}

/-! ### The steps of the plan -/

/-- **Every step of the plan** stops at the first of its queries that is not refuted. -/
theorem follows_stages : ∀ s ∈ stages, Follows (s.step.prove v) := by
  have hsteps : stages.map Stage.step = lemmas := rfl
  exact fun s hs => closed_follows.lemmas s.step (hsteps ▸ List.mem_map_of_mem hs)

/-- So does taking a step, which looks at the state before it and after it. -/
theorem follows_runStep {step : LemmaStep} (h : Follows (step.prove v)) (count index : Nat) :
    Follows (runStep v count index step) := by
  unfold runStep
  refine Follows.bind (follows_look fun _ _ => rfl) fun names => ?_
  split
  · refine Follows.bind (follows_log _ _ _) fun _ => Follows.bind h fun f =>
      tracks_look_bind (fun c => ?_) fun _ _ => rfl
    simp only
    split
    · exact tracks_fail_bind
    · exact follows_pure f
  · exact tracks_fail_bind

theorem follows_assertAxioms : Follows (assertAxioms v) := by
  unfold assertAxioms
  induction v.axioms with
  | nil => exact follows_pure _
  | cons f rest ih => exact Follows.bind (follows_commit f) fun _ => ih

/-! ### Taking the steps -/

/-- **A step ends a run with a query**: the steps before it are taken without a failure, and it asks
the query and fails. -/
def StopsAt (v : Vocabulary) (count : Nat) (before : List (LemmaStep × Nat))
    (conclusion : Option Fact) (step : LemmaStep) (index : Nat) (c : Context)
    (xs : List Exchange) (y : Exchange) : Prop :=
  ∃ f ys c₀ zs e c₁, outcome (runSteps v count before conclusion) c = (.ok (f, none), c₀) ∧
    c.Heard c₀ ys ∧ outcome (runStep v count index step) c₀ = (.error e, c₁) ∧
    c₀.Heard c₁ (zs ++ [y]) ∧ xs = ys ++ (zs ++ [y])

theorem outcome_runSteps_cons (count : Nat) (step : LemmaStep) (i : Nat)
    (rest : List (LemmaStep × Nat)) (conclusion : Option Fact) (c : Context) :
    outcome (runSteps v count ((step, i) :: rest) conclusion) c =
      match outcome (runStep v count i step) c with
      | (.ok f, c₁) =>
          outcome (runSteps v count rest (if step.name == theoremName then some f else conclusion))
            c₁
      | (.error e, c₁) =>
          if e.ofProof then
            (.ok (conclusion, some (⟨some i, step.name, some e.message⟩, e)),
              c₁.logged .error .plan (stopMessage i step e))
          else (.error e, c₁) := by
  simp only [runSteps, outcome_bind, outcome_attempt]
  generalize outcome (runStep v count i step) c = r
  obtain ⟨r, c₁⟩ := r
  cases r with
  | ok f => rfl
  | error e =>
      simp only
      split <;> rfl

/-- A step that ends a run after another one was taken. -/
theorem StopsAt.cons {count : Nat} {first step : LemmaStep} {i index : Nat}
    {before : List (LemmaStep × Nat)} {conclusion : Option Fact} {f : Fact} {c c₁ : Context}
    {xs zs : List Exchange} {y : Exchange}
    (hfirst : outcome (runStep v count i first) c = (.ok f, c₁)) (hheard : c.Heard c₁ xs)
    (h : StopsAt v count before (if first.name == theoremName then some f else conclusion) step
      index c₁ zs y) :
    StopsAt v count ((first, i) :: before) conclusion step index c (xs ++ zs) y := by
  obtain ⟨g, ys, c₀, zs, e, c₂, hbefore, hys, hstep, hzs, rfl⟩ := h
  refine ⟨g, xs ++ ys, c₀, zs, e, c₂, ?_, hheard.trans hys, hstep, hzs, by simp⟩
  rw [outcome_runSteps_cons, hfirst]
  exact hbefore

/-- **How the steps of a plan end** if they would all be taken were every query refuted. -/
theorem runSteps_outcome (count : Nat) (ss : List Stage) :
    ∀ {V : View} {c d : Context} (i : Nat) (conclusion : Option Fact),
      (∀ s ∈ ss, Follows (s.step.prove v)) → V.frames = [] → Ready ss V → c.Shows V →
      c.Abreast d →
      (∃ f, (outcome (runSteps v count ((ss.map Stage.step).zipIdx i) conclusion) d).1 =
        .ok (f, none)) →
      let r := outcome (runSteps v count ((ss.map Stage.step).zipIdx i) conclusion) c
      ∃ xs, c.Went r.2 xs ∧
        ((∀ x ∈ xs, x.Refuted) ∧ r.2.Keeps (afterAll ss V) ∧
            r.1 = (outcome (runSteps v count ((ss.map Stage.step).zipIdx i) conclusion) d).1 ∨
          ∃ done s rest y f depth, ss = done ++ s :: rest ∧ y.Ends xs ∧
            StopsAt v count ((done.map Stage.step).zipIdx i) conclusion s.step (i + done.length) c
              xs y ∧
            y.entry.lemmaName ∈ s.claims ∧ r.2.Keeps (afterAll done V) ∧
            r.1 = .ok (f, some (⟨some (i + done.length : Nat), s.step.name,
              some (y.failure depth).message⟩, y.failure depth))) := by
  induction ss with
  | nil =>
      intro V c d i conclusion _ _ _ hc _ _
      exact ⟨[], .refl c, Or.inl ⟨by simp, hc.keeps, rfl⟩⟩
  | cons s rest ih =>
      rintro V c d i conclusion hfollows hV ⟨hhas, hready⟩ hc hcd hd
      obtain ⟨hs, hrest⟩ := List.forall_mem_cons.1 hfollows
      obtain ⟨l, hl, hasks⟩ := poses_runStep (v := v) s count i hV hhas
      have hasks := hasks c hc
      obtain ⟨xs, hwent, h⟩ := follows_runStep hs count i c d hcd
      simp only [List.map_cons, List.zipIdx_cons, outcome_runSteps_cons] at hd ⊢
      unfold Asks at hasks
      generalize hfirst : outcome (runStep v count i s.step) c = r at hasks hwent h ⊢
      generalize outcome (runStep v count i s.step) d = r' at h hd ⊢
      obtain ⟨r, c₁⟩ := r
      obtain ⟨r', d₁⟩ := r'
      rcases h with ⟨href, hr, hcd₁⟩ | ⟨y, hy, hstruck⟩
      · obtain rfl : r = r' := hr
        cases r with
        | error e =>
            -- then the run in which everything is refuted would stop too
            obtain ⟨f, hf⟩ := hd
            simp only at hf
            split at hf <;> cases hf
        | ok a =>
            obtain ⟨_, _, _, _, V', hshows, rfl, rfl⟩ := hasks
            obtain ⟨zs, hwent', h⟩ := ih (V := s.after V) (i + 1)
              (if s.step.name == theoremName then some s.fact else conclusion) hrest hV hready
              hshows hcd₁ hd
            refine ⟨xs ++ zs, hwent.trans hwent', ?_⟩
            rcases h with ⟨href', hkeeps, hr⟩ | ⟨done, t, rest', y, f, depth, rfl, hy, hstops,
              hclaim, hkeeps, hr⟩
            · refine Or.inl ⟨fun x hx => ?_, hkeeps, hr⟩
              exact (List.mem_append.1 hx).elim (href x) (href' x)
            · have hindex : i + 1 + done.length = i + (s :: done).length := by
                simp only [List.length_cons]
                omega
              rw [hindex] at hstops hr
              obtain ⟨ys, rfl, href', hy⟩ := hy
              refine Or.inr ⟨s :: done, t, rest', y, f, depth, rfl, ⟨xs ++ ys, ?_, ?_, hy⟩,
                hstops.cons hfirst hwent.heard, hclaim, hkeeps, hr⟩
              · rw [List.append_assoc]
              · exact fun x hx => (List.mem_append.1 hx).elim (href x) (href' x)
      · cases r with
        | ok a => exact hstruck.elim
        | error e =>
            obtain ⟨depth, rfl⟩ := hstruck
            obtain ⟨⟨xs', hheard', hl'⟩, hbase⟩ := hasks
            obtain rfl := hwent.heard.unique hheard'
            obtain ⟨ys, rfl, href, hy⟩ := hy
            -- the query that ended the run is one of those that the step asks
            have hclaim : y.entry.lemmaName ∈ s.claims := by
              rw [← s.names_queries hl]
              have hmem : y.query ∈ l := hl'.subset (by simp)
              exact List.mem_map_of_mem (f := Prod.fst) hmem
            have hproof : (y.failure depth).ofProof = true := rfl
            simp only [hproof, if_true]
            refine ⟨ys ++ [y], ?_, Or.inr ⟨[], s, rest, y, conclusion, depth, rfl,
              ⟨ys, rfl, href, hy⟩, ?_, hclaim, ?_, rfl⟩⟩
            · have hlogged : c₁.Went (c₁.logged .error .plan
                  (stopMessage i s.step (y.failure depth))) [] := .of_eq rfl rfl rfl ⟨rfl, rfl⟩
              simpa using hwent.trans hlogged
            · exact ⟨conclusion, [], c, ys, _, c₁, rfl, .refl c, hfirst, hwent.heard, rfl⟩
            · exact (hc.keeps.of_sameBase hbase).of_sameBase ⟨rfl, rfl, rfl⟩

/-! ### The whole run -/

/-- What a run returns once its steps were taken. -/
def reporting (raising : Bool) (r : Option Fact × Option (Stop × Failure)) : ProofM Report := do
  match r.2 with
  | some (_, e) => if raising then fail e
  | none => pure ()
  let c ← look id
  return { ledger := c.ledger, committed := c.committed, conclusion := r.1,
           stop := r.2.map Prod.fst }

theorem run_eq (steps : List LemmaStep) (raising : Bool) : run v steps raising =
    assertAxioms v >>= fun _ => runSteps v steps.length (steps.zipIdx 1) none >>=
      reporting raising := rfl

/-- The report on what the steps of a run returned. -/
def reportOf (c : Context) (r : Option Fact × Option (Stop × Failure)) : Report where
  ledger := c.ledger
  committed := c.committed
  conclusion := r.1
  stop := r.2.map Prod.fst

/-- A report is refused only if failures are to be raised. -/
theorem outcome_reporting (raising : Bool) (r : Option Fact × Option (Stop × Failure))
    (c : Context) :
    outcome (reporting raising r) c = (.ok (reportOf c r), c) ∨
      raising = true ∧ ∃ e, outcome (reporting raising r) c = (.error e, c) := by
  obtain ⟨conclusion, stop⟩ := r
  cases stop with
  | none => exact Or.inl rfl
  | some x =>
      cases raising with
      | false => exact Or.inl rfl
      | true => exact Or.inr ⟨rfl, x.2, rfl⟩

/-- If a run is reported as proved, all its steps were taken. -/
theorem taken_of_proved {steps : List LemmaStep} {raising : Bool} {d : Context}
    (h : (outcome (run v steps raising) d).1.toOption.any Report.proved = true) :
    ∃ d₁ f, outcome (assertAxioms v) d = (.ok ⟨⟩, d₁) ∧
      (outcome (runSteps v steps.length (steps.zipIdx 1) none) d₁).1 = .ok (some f, none) := by
  rw [run_eq, outcome_bind] at h
  generalize outcome (assertAxioms v) d = r at h ⊢
  obtain ⟨r, d₁⟩ := r
  cases r with
  | error e => cases h
  | ok u =>
      simp only [outcome_bind] at h
      generalize hsteps : outcome (runSteps v steps.length (steps.zipIdx 1) none) d₁ = r at h
      obtain ⟨r, d₂⟩ := r
      cases r with
      | error e => cases h
      | ok r =>
          simp only at h
          rcases outcome_reporting raising r d₂ with hr | ⟨-, e, he⟩
          · rw [hr] at h
            obtain ⟨conclusion, stop⟩ := r
            obtain ⟨hconclusion, hstop⟩ := Bool.and_eq_true_iff.1 h
            obtain ⟨f, rfl⟩ := Option.isSome_iff_exists.1 hconclusion
            cases stop with
            | none => exact ⟨d₁, f, rfl, congrArg Prod.fst hsteps⟩
            | some x => cases hstop
          · rw [he] at h
            cases h

/-- A run without corollaries is reported as proved too if every query is refuted. -/
theorem proved_withoutCorollaries :
    (outcome (run standard (withoutCorollaries lemmas) true)
      (Context.start (Settings.options {}) [])).1.toOption.any Report.proved = true := by
  decide +kernel

/-- Whatever the options say, the plan is proved if every query is refuted. -/
theorem proved_chosen (s : Settings.Options) :
    (outcome (run standard (chosen [] s) true)
      (Context.start (Settings.options {}) [])).1.toOption.any Report.proved = true := by
  unfold chosen
  cases s.corollaries with
  | true => exact defaultRun_spec.1
  | false => exact proved_withoutCorollaries

/-- No layer is open, and the base holds some facts and nothing else. -/
structure HoldsOnly (c : Context) (fs : List Fact) : Prop where
  depth : c.depth = 0
  frames : c.session.frames = []
  committed : c.committed = fs.map Fact.name
  facts : c.base.facts = fs.map fun f => (f.name, f)
  asserted : c.session.base.map Assertion.formula = fs.map Fact.formula

/-- Once stages were completed and all layers are closed, the base holds the axioms and the facts of
the stages, under the names of their steps. -/
theorem holdsOnly_of_keeps {c c' : Context} {done : List Stage} {axioms : List Fact}
    (hc : c.opened = []) (hframes : c.session.frames = []) (hrests : c.Rests c')
    (hkeeps : c'.Keeps (afterAll done (.ofFacts axioms 0))) :
    HoldsOnly c' (axioms ++ done.map Stage.fact) ∧
      c'.committed = axioms.map Fact.name ++ (done.map Stage.step).map LemmaStep.name := by
  obtain ⟨m, hm⟩ := View.afterAll_ofFacts done axioms 0
  rw [hm] at hkeeps
  have hopened : c'.opened = [] := List.map_eq_nil_iff.1 (by rw [hrests.opened, hc]; rfl)
  have hnames : (done.map Stage.fact).map Fact.name = (done.map Stage.step).map LemmaStep.name := by
    rw [List.map_map, List.map_map]
    exact List.map_congr_left fun t _ => t.name_fact
  refine ⟨⟨congrArg List.length hopened, ?_, hkeeps.committed, hkeeps.facts, ?_⟩, ?_⟩
  · exact List.length_eq_zero_iff.1 (by rw [hrests.frames, hframes]; rfl)
  · rw [hkeeps.base]
    simp [View.ofFacts, Fact.assertion, Function.comp_def]
  · rw [hkeeps.committed, ← hnames, ← List.map_append]
    rfl

/-- The base facts are committed without a query, so that runs stay abreast. -/
theorem assertAxioms_abreast {c d d₁ : Context} (hcd : c.Abreast d)
    (hnothing : c.Shows (.ofFacts [] 0)) (hd : outcome (assertAxioms v) d = (.ok ⟨⟩, d₁)) :
    ∃ c₁, outcome (assertAxioms v) c = (.ok ⟨⟩, c₁) ∧ c.Went c₁ [] ∧
      c₁.Shows (.ofFacts v.axioms 0) ∧ c₁.Abreast d₁ := by
  obtain ⟨xs, hwent, haxioms⟩ := follows_assertAxioms (v := v) c d hcd
  obtain ⟨_, _, hheard, _, hcommitted⟩ := commits_spec v.axioms hnothing
  obtain rfl : xs = [] := hwent.heard.unique hheard
  obtain ⟨-, hr, hcd₁⟩ : _ ∧ _ ∧ _ := haxioms.resolve_right (by simp [Exchange.Ends])
  rw [hd] at hr hcd₁
  obtain ⟨hshows, -⟩ := hcommitted _ hr
  rw [List.nil_append] at hshows
  exact ⟨(outcome (assertAxioms v) c).2, Prod.ext hr rfl, hwent, hshows, hcd₁⟩

/-- Scripted replies give the answers, and an exhausted script refutes. -/
theorem answers_of_replied {c c' : Context} {replies : List Reply} {xs : List Exchange}
    (hc : c.session.replies = replies.map .ok) (h : c.Replied c' xs) (i : Nat)
    (hi : i < xs.length) : xs[i].answer = (replies.getD i .exhausted).answer := by
  obtain ⟨millis, hreply⟩ := h.answer i hi
  have hscript : (replies.map (Except.ok (ε := KindFault))).getD i (.ok .exhausted) =
      .ok (replies.getD i .exhausted) := by
    rw [List.getD_eq_getElem?_getD, List.getD_eq_getElem?_getD, List.getElem?_map]
    cases replies[i]? <;> rfl
  rw [hc] at hreply
  exact (congrArg Reply.answer (Except.ok.inj (hscript.symm.trans hreply))).symm

/-- **How a run of the plan ends**, whatever the solver replies.  If every query is refuted, the
theorem is proved and all facts of the plan are committed.  Otherwise the first query that is not
refuted is the last one, the report names the step that asked it, and exactly the facts of the steps
before that one are committed.  In both cases nothing but the committed facts is left. -/
theorem run_outcome (s : Settings.Options) (replies : List Reply) :
    let steps := chosen [] s
    let start := Context.start s (replies.map .ok)
    ∃ report c fs xs, outcome (run standard steps false) start = (.ok report, c) ∧
      HoldsOnly c fs ∧ report.ledger = c.ledger ∧ report.committed = c.committed ∧
      start.Heard c xs ∧
      (∀ (i : Nat) (h : i < xs.length), xs[i].answer = (replies.getD i .exhausted).answer) ∧
      ((∀ x ∈ xs, x.Refuted) ∧ report.proved = true ∧
          c.committed = standard.axioms.map Fact.name ++ steps.map LemmaStep.name ∨
        ∃ before step after y depth, steps = before ++ step :: after ∧ y.Ends xs ∧
          StopsAt standard steps.length (before.zipIdx 1) none step (before.length + 1)
            (outcome (assertAxioms standard) start).2 xs y ∧
          BelongsTo step y.entry.lemmaName ∧
          report.stop = some ⟨some (before.length + 1 : Nat), step.name,
            some (y.failure depth).message⟩ ∧
          report.proved = false ∧
          c.committed = standard.axioms.map Fact.name ++ before.map LemmaStep.name) := by
  intro steps start
  let d := Context.start (Settings.options {}) []
  have hstart : start.Abreast d := by
    refine ⟨⟨d, rfl⟩, fun r hr => ?_, rfl⟩
    obtain ⟨reply, -, rfl⟩ := List.mem_map.1 hr
    exact ⟨reply, rfl⟩
  obtain ⟨d₁, f, hd, hsteps⟩ := taken_of_proved (proved_chosen s)
  obtain ⟨c₁, hout, hwent₀, hshows, hcd⟩ :=
    assertAxioms_abreast hstart ⟨rfl, rfl, rfl, rfl, rfl, rfl⟩ hd
  rw [hout]
  -- the steps are taken in one of them, and so they are in the other one up to the first query
  -- that is not refuted
  have hsteps' : steps = (chosenStages s).map Stage.step := chosen_nil s
  obtain ⟨xs, hwent, h⟩ := runSteps_outcome steps.length (chosenStages s) 1 none
    (fun t ht => follows_stages t ((chosenStages_isPrefix s).subset ht)) rfl
    (ready_chosenStages standard s) hshows hcd ⟨some f, by rw [← hsteps']; exact hsteps⟩
  rw [← hsteps'] at hwent h
  have hwent := hwent₀.trans hwent
  rw [List.nil_append] at hwent
  have hrun : outcome (run standard steps false) start =
      outcome (runSteps standard steps.length (steps.zipIdx 1) none >>= reporting false) c₁ := by
    rw [run_eq, outcome_bind, hout]
  rw [hrun, outcome_bind]
  generalize outcome (runSteps standard steps.length (steps.zipIdx 1) none) c₁ = r at hwent h ⊢
  obtain ⟨r, c⟩ := r
  have hreport (x : Option Fact × Option (Stop × Failure)) :
      outcome (reporting false x) c = (.ok (reportOf c x), c) :=
    (outcome_reporting false x c).resolve_right fun h => Bool.false_ne_true h.1
  have hscripted : start.session.replies = replies.map .ok := rfl
  have hanswers := answers_of_replied hscripted hwent.replied
  rcases h with ⟨href, hkeeps, hr⟩ | ⟨done, t, rest, y, g, depth, hss, hy, hstops, hclaim, hkeeps,
    hr⟩
  · obtain rfl : r = .ok (some f, none) := hr.trans hsteps
    obtain ⟨hholds, hnames⟩ := holdsOnly_of_keeps rfl rfl hwent.rests hkeeps
    rw [← hsteps'] at hnames
    exact ⟨_, c, _, xs, hreport _, hholds, rfl, rfl, hwent.heard, hanswers,
      Or.inl ⟨href, rfl, hnames⟩⟩
  · obtain rfl : r = _ := hr
    obtain ⟨hholds, hnames⟩ := holdsOnly_of_keeps rfl rfl hwent.rests hkeeps
    have ht : t ∈ stages := (chosenStages_isPrefix s).subset (by rw [hss]; simp)
    refine ⟨_, c, _, xs, hreport _, hholds, rfl, rfl, hwent.heard, hanswers,
      Or.inr ⟨done.map Stage.step, t.step, rest.map Stage.step, y, depth, ?_, hy, ?_,
        belongsTo_claims t ht _ hclaim, ?_, ?_, hnames⟩⟩
    · rw [hsteps', hss, List.map_append, List.map_cons]
    · rw [List.length_map, Nat.add_comm]
      exact hstops
    · rw [List.length_map, Nat.add_comm]
      rfl
    · simp [Report.proved, reportOf]

end CandyCircle.Plan
