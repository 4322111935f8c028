/-
**What a run of the plan asks.**

The plan is a list of stages.  A stage knows the facts that its step requires, the fact that it
establishes, and what it asks; from any state in which the facts of the stages before it are known
it runs as it should.  A run of the plan therefore asks the queries of its stages one after another,
up to the first one that is not refuted, and commits the facts of the stages that were completed.

Main definitions:

* `CandyCircle.Plan.Stage`, `CandyCircle.Plan.stages` — stages, and those of the plan;
* `CandyCircle.Plan.Ready` — the facts that stages require are there in time;
* `CandyCircle.Plan.Schedule` — the queries of stages, with the view in which each stage begins;
* `CandyCircle.Context.Keeps` — a state has the base of a view.

Main results:

* `CandyCircle.Plan.runSteps_spec` — what the steps of a plan ask and commit;
* `CandyCircle.Plan.run_spec` — **what a run of the plan asks and commits**, whatever the solver
  replies.
-/
import CandyCircle.Plan.Run
import CandyCircle.Proofs.Plan.Queries
import Mathlib.Data.List.Nodup

set_option autoImplicit false

namespace CandyCircle

open Logic Proof Vocabulary

namespace Plan

/-! ### Stages -/

/-- A stage of the plan: a step with the facts that it requires besides the axioms, the fact that it
establishes, and what it asks. -/
structure Stage where
  step : LemmaStep
  required : List Fact
  /-- The fact that it establishes. -/
  fact : Fact
  /-- How many constants it declares. -/
  declared : Nat
  /-- The names of the claims that it asks about. -/
  claims : List String
  /-- What it asks. -/
  Queries : Vocabulary → View → List Query → Prop
  /-- The facts are those that the step names. -/
  names_required : required.map Fact.name = step.requires
  /-- The fact bears the name of the step. -/
  name_fact : fact.name = step.name
  /-- The queries are about the claims. -/
  names_queries : ∀ {v : Vocabulary} {V : View} {l : List Query}, Queries v V l →
    l.map Prod.fst = claims
  /-- The step asks this, and commits the fact. -/
  poses : ∀ {v : Vocabulary} {V : View}, V.frames = [] → V.Has (baseFacts ++ required) →
    Poses (step.prove v) V (Queries v V) fun f V' =>
      f = fact ∧ V' = (V.declare declared).commit fact

namespace Stage

/-- The view once a stage is completed. -/
def after (s : Stage) (V : View) : View :=
  (V.declare s.declared).commit s.fact

end Stage

/-! ### The names of queries -/

theorem PlainQueries.names {V : View} {claim : Fact} {known : List Fact} {l : List Query}
    (h : PlainQueries V claim known l) : l.map Prod.fst = [claim.name] := by
  obtain ⟨hs, _, rfl⟩ := h
  rfl

theorem StepQueries.names {v : Vocabulary} {V : View} {claim : Fact} {known : List Fact}
    {l : List Query} (h : StepQueries v V claim known l) : l.map Prod.fst = [claim.name] := by
  obtain ⟨hs, _, rfl⟩ := h
  rfl

theorem InvariantQueries.names {v : Vocabulary} {V : View} {known : List Fact} {l : List Query}
    (h : InvariantQueries v V known l) :
    l.map Prod.fst = ["state-invariant/base", "state-invariant/step"] := by
  obtain ⟨bs, hs, _, _, rfl⟩ := h
  rfl

theorem HistogramQueries.names {V : View} {known : List Fact} {l : List Query}
    (h : HistogramQueries V known l) : l.map Prod.fst =
      ["histogram-decrease/sweep/base", "histogram-decrease/sweep/step",
        "histogram-decrease/wrap/base", "histogram-decrease/wrap/step",
        "histogram-decrease/boundary", "histogram-decrease/no-entry", "histogram-decrease"] := by
  obtain ⟨_, _, _, ⟨_, _, _, _, _, _, _, _, rfl⟩, _, _, rfl⟩ := h
  rfl

theorem ConvergenceQueries.names {V : View} {known : List Fact} {l : List Query}
    (h : ConvergenceQueries V known l) :
    l.map Prod.fst = ["eventual-convergence/base", "eventual-convergence/step"] := by
  obtain ⟨bs, hs, _, _, rfl⟩ := h
  rfl

/-! ### The stages of the plan -/

/-- The stages of the plan. -/
def stages : List Stage :=
  [ { step := lemmas[0], required := []
      fact := stateInvariantFact, declared := 4
      claims := ["state-invariant/base", "state-invariant/step"]
      Queries := fun v V => InvariantQueries v V baseFacts
      names_required := rfl, name_fact := rfl
      names_queries := InvariantQueries.names
      poses := poses_proveStateInvariant },
    { step := lemmas[1], required := [stateInvariantFact]
      fact := maxNonincreasing, declared := 2
      claims := ["max-nonincreasing"]
      Queries := fun v V => StepQueries v V maxNonincreasing (baseFacts ++ [stateInvariantFact])
      names_required := rfl, name_fact := rfl
      names_queries := StepQueries.names
      poses := poses_proveMaxNonincreasing },
    { step := lemmas[2], required := []
      fact := minNondecreasing, declared := 2
      claims := ["min-nondecreasing"]
      Queries := fun v V => StepQueries v V minNondecreasing baseFacts
      names_required := rfl, name_fact := rfl
      names_queries := StepQueries.names
      poses := poses_proveMinNondecreasing },
    { step := lemmas[3], required := [stateInvariantFact]
      fact := aboveMinStaysAbove, declared := 3
      claims := ["above-min-stays-above"]
      Queries := fun v V => StepQueries v V aboveMinStaysAbove (baseFacts ++ [stateInvariantFact])
      names_required := rfl, name_fact := rfl
      names_queries := StepQueries.names
      poses := poses_proveAboveMinStaysAbove },
    { step := lemmas[4], required := [stateInvariantFact]
      fact := gainsFromRicherNeighbor, declared := 3
      claims := ["gains-from-richer-neighbor"]
      Queries := fun v V =>
        StepQueries v V gainsFromRicherNeighbor (baseFacts ++ [stateInvariantFact])
      names_required := rfl, name_fact := rfl
      names_queries := StepQueries.names
      poses := poses_proveGainsFromRicherNeighbor },
    { step := lemmas[5], required := []
      fact := variantBounded, declared := 1
      claims := ["variant-bounded"]
      Queries := fun _ V => PlainQueries V variantBounded baseFacts
      names_required := rfl, name_fact := rfl
      names_queries := PlainQueries.names
      poses := poses_proveVariantBounded },
    { step := lemmas[6], required := [aboveMinStaysAbove, gainsFromRicherNeighbor]
      fact := histogramDecrease, declared := 9
      claims := ["histogram-decrease/sweep/base", "histogram-decrease/sweep/step",
        "histogram-decrease/wrap/base", "histogram-decrease/wrap/step",
        "histogram-decrease/boundary", "histogram-decrease/no-entry", "histogram-decrease"]
      Queries := fun _ V =>
        HistogramQueries V (baseFacts ++ [aboveMinStaysAbove, gainsFromRicherNeighbor])
      names_required := rfl, name_fact := rfl
      names_queries := HistogramQueries.names
      poses := poses_proveHistogramDecrease },
    { step := lemmas[7], required := [maxNonincreasing, minNondecreasing, histogramDecrease]
      fact := lexDecrease, declared := 3
      claims := ["lex-decrease"]
      Queries := fun _ V => PlainQueries V lexDecrease
        (baseFacts ++ [maxNonincreasing, minNondecreasing, histogramDecrease])
      names_required := rfl, name_fact := rfl
      names_queries := PlainQueries.names
      poses := poses_proveLexDecrease },
    { step := lemmas[8], required := [variantBounded, lexDecrease]
      fact := eventualConvergenceFact, declared := 5
      claims := ["eventual-convergence/base", "eventual-convergence/step"]
      Queries := fun _ V => ConvergenceQueries V (baseFacts ++ [variantBounded, lexDecrease])
      names_required := rfl, name_fact := rfl
      names_queries := ConvergenceQueries.names
      poses := poses_proveEventualConvergence },
    { step := lemmas[9], required := [variantBounded, eventualConvergenceFact]
      fact := convergence, declared := 0
      claims := ["convergence"]
      Queries := fun _ V => PlainQueries V convergence
        (baseFacts ++ [variantBounded, eventualConvergenceFact])
      names_required := rfl, name_fact := rfl
      names_queries := PlainQueries.names
      poses := poses_proveConvergence },
    { step := lemmas[10], required := []
      fact := uniformAtConvergence, declared := 2
      claims := ["uniform-at-convergence"]
      Queries := fun _ V => PlainQueries V uniformAtConvergence baseFacts
      names_required := rfl, name_fact := rfl
      names_queries := PlainQueries.names
      poses := poses_proveUniformAtConvergence } ]

theorem map_step_stages : stages.map Stage.step = lemmas := rfl

theorem map_fact_stages : stages.map Stage.fact = conclusions := rfl

/-- The claims that a stage asks about belong to its step and to no other one. -/
theorem belongsTo_claims : ∀ s ∈ stages, ∀ claim ∈ s.claims, ∀ t ∈ lemmas,
    Ledger.belongsTo t.name claim = (t.name == s.step.name) := by
  decide +kernel

/-- The view once stages are completed one after another. -/
def afterAll (ss : List Stage) (V : View) : View :=
  ss.foldl (fun W s => s.after W) V

/-- The facts that stages require are known when they begin. -/
def Ready : List Stage → View → Prop
  | [], _ => True
  | s :: rest, V => V.Has (baseFacts ++ s.required) ∧ Ready rest (s.after V)

/-- The queries of stages, one stage after another. -/
def Schedule (v : Vocabulary) : List Stage → View → List Query → Prop
  | [], _, l => l = []
  | s :: rest, V, l => ∃ l₁ l₂, s.Queries v V l₁ ∧ Schedule v rest (s.after V) l₂ ∧ l = l₁ ++ l₂

/-- Every query belongs to a stage, which begins in a view in which it is ready. -/
theorem Schedule.exists_stage {v : Vocabulary} : ∀ {ss : List Stage} {V : View} {l : List Query},
    Schedule v ss V l → V.frames = [] → Ready ss V → ∀ x ∈ l, ∃ s ∈ ss, ∃ W l',
      W.frames = [] ∧ W.Has (baseFacts ++ s.required) ∧ s.Queries v W l' ∧ x ∈ l' := by
  intro ss
  induction ss with
  | nil =>
      rintro V l rfl _ _ x hx
      cases hx
  | cons s rest ih =>
      rintro V l ⟨l₁, l₂, hs, hrest, rfl⟩ hV ⟨hhas, hready⟩ x hx
      rcases List.mem_append.1 hx with hx | hx
      · exact ⟨s, List.mem_cons_self, V, l₁, hV, hhas, hs, hx⟩
      · obtain ⟨s', hs', h⟩ := ih hrest hV hready x hx
        exact ⟨s', List.mem_cons_of_mem s hs', h⟩

end Plan

/-! ### The base -/

/-- A state has the base of a view. -/
structure Context.Keeps (c : Context) (V : View) : Prop where
  facts : c.base.facts = V.facts
  committed : c.committed = V.committed
  /-- It has the assertions of the base. -/
  base : c.session.base = V.base

theorem Context.Shows.keeps {c : Context} {V : View} (h : c.Shows V) : c.Keeps V :=
  ⟨h.facts, h.committed, h.base⟩

theorem Context.Keeps.of_sameBase {c c' : Context} {V : View} (h : c.Keeps V)
    (hc : c.SameBase c') : c'.Keeps V :=
  ⟨hc.facts.trans h.facts, hc.committed.trans h.committed, hc.asserted.trans h.base⟩

namespace View

/-- The view at the base with some facts committed, once some constants were declared. -/
def ofFacts (fs : List Fact) (n : Nat) : View where
  facts := fs.map fun f => (f.name, f)
  committed := fs.map Fact.name
  base := fs.map Fact.assertion
  frames := []
  issued := n

theorem commit_ofFacts (fs : List Fact) (n : Nat) (f : Fact) :
    (ofFacts fs n).commit f = ofFacts (fs ++ [f]) n := by
  simp [ofFacts, commit]

theorem after_ofFacts (s : Plan.Stage) (fs : List Fact) (n : Nat) :
    s.after (ofFacts fs n) = ofFacts (fs ++ [s.fact]) (n + s.declared) := by
  rw [← commit_ofFacts]
  rfl

theorem afterAll_ofFacts (ss : List Plan.Stage) : ∀ (fs : List Fact) (n : Nat),
    ∃ m, Plan.afterAll ss (ofFacts fs n) = ofFacts (fs ++ ss.map Plan.Stage.fact) m := by
  induction ss with
  | nil => exact fun fs n => ⟨n, by simp [Plan.afterAll]⟩
  | cons s rest ih =>
      intro fs n
      obtain ⟨m, hm⟩ := ih (fs ++ [s.fact]) (n + s.declared)
      refine ⟨m, ?_⟩
      rw [← after_ofFacts] at hm
      simpa [Plan.afterAll] using hm

/-- Committed facts are known if no two of them have the same name. -/
theorem has_ofFacts {fs gs : List Fact} (hnodup : (fs.map Fact.name).Nodup)
    (hgs : ∀ f ∈ gs, f ∈ fs) (n : Nat) : (ofFacts fs n).Has gs := by
  intro f hf
  have hmem := hgs f hf
  refine ⟨?_, List.mem_map_of_mem hmem⟩
  -- what is found under the name can only be the fact
  have hunique (g : Fact) (hg : g ∈ fs) (hname : g.name = f.name) : g = f :=
    List.inj_on_of_nodup_map hnodup hg hmem hname
  have hsome : (fs.find? fun g => g.name == f.name).isSome :=
    List.find?_isSome.2 ⟨f, hmem, beq_self_eq_true _⟩
  obtain ⟨g, hg⟩ := Option.isSome_iff_exists.1 hsome
  have hgf := hunique g (List.mem_of_find?_eq_some hg) (by simpa using List.find?_some hg)
  rw [hgf] at hg
  simp only [find?, ofFacts, List.find?_map, Option.map_map]
  change Option.map _ (fs.find? fun g => g.name == f.name) = some f
  rw [hg]
  rfl

end View

namespace Plan

/-! ### Taking the steps -/

section Steps

variable {v : Vocabulary} {V : View}

theorem runs_log (level : LogLevel) (source : LogSource) (message : String) :
    Runs (log level source message) V [] fun _ V' => V' = V := by
  refine runs_change fun c u c' hc hf => ?_
  cases hf
  exact ⟨.of_eq rfl rfl, V, ⟨hc.facts, hc.committed, hc.base, hc.frames, hc.depth, hc.issued⟩, rfl⟩

/-- **A step of the plan** asks what its stage asks and commits its fact. -/
theorem poses_runStep (s : Stage) (count index : Nat) (hV : V.frames = [])
    (hhas : V.Has (baseFacts ++ s.required)) :
    Poses (runStep v count index s.step) V (s.Queries v V) fun f V' =>
      f = s.fact ∧ V' = s.after V := by
  obtain ⟨l, hl, hruns⟩ := s.poses (v := v) hV hhas
  refine ⟨l, hl, ?_⟩
  unfold runStep
  refine (runs_look _).next fun missing W h => ?_
  subst h
  refine ⟨.refl _, ?_⟩
  simp only
  split
  · refine (runs_log _ _ _).next fun _ U h => ?_
    subst h
    refine ⟨.refl _, (hruns.ending (g := id) fun f c' V' hc' hf => ?_).mono fun f V' h => ?_⟩
    · -- no layer is open any more
      have hdepth : c'.depth = 0 := by
        rw [Context.depth, hc'.depth, hf.2]
        exact congrArg List.length hV
      simp only [outcome_bind, look, outcome_change, id, hdepth]
      rfl
    · obtain ⟨g, rfl, hg⟩ := h
      exact hg
  · exact fun c _ => asks_fail

end Steps

/-- From one state to another stages were taken as far as possible: a part of their queries was
asked and a part of their facts committed, each from the beginning.  If the stages were completed
that is all of them, and all queries were refuted. -/
def Taken (ss : List Stage) (V : View) (l : List Query) (completed : Prop) (c c' : Context) :
    Prop :=
  ∃ xs done, c.Heard c' xs ∧ xs.map Exchange.query <+: l ∧ done <+: ss ∧
    c'.Keeps (afterAll done V) ∧
    (completed → xs.map Exchange.query = l ∧ (∀ x ∈ xs, x.Refuted) ∧ done = ss)

section Runs

variable {v : Vocabulary}

theorem outcome_attempt {α : Type} (p : ProofM α) (c : Context) :
    outcome (attempt p) c = (.ok (outcome p c).1, (outcome p c).2) := rfl

/-- Once a step failed nothing more is asked or committed, and what is returned says so. -/
theorem outcome_stop (i : Nat) (step : LemmaStep) (conclusion : Option Fact) (e : Failure)
    (c : Context) :
    let r := outcome (if e.ofProof then do
        log .error .plan (stopMessage i step e)
        return (conclusion, some (⟨some i, step.name, some e.message⟩, e))
      else fail e : ProofM (Option Fact × Option (Stop × Failure))) c
    c.Heard r.2 [] ∧ c.SameBase r.2 ∧ ∀ f, r.1 ≠ .ok (f, none) := by
  split
  · refine ⟨.of_eq rfl rfl, ⟨rfl, rfl, rfl⟩, fun f h => ?_⟩
    cases h
  · refine ⟨.refl c, .refl c, fun f h => ?_⟩
    cases h

/-- **What the steps of a plan ask and commit.** -/
theorem runSteps_spec (count : Nat) (ss : List Stage) :
    ∀ {V : View} (i : Nat) (conclusion : Option Fact), V.frames = [] → Ready ss V →
      ∃ l, Schedule v ss V l ∧ ∀ c, c.Shows V → Taken ss V l
        (∃ f, (outcome (runSteps v count ((ss.map Stage.step).zipIdx i) conclusion) c).1 =
          .ok (f, none))
        c (outcome (runSteps v count ((ss.map Stage.step).zipIdx i) conclusion) c).2 := by
  induction ss with
  | nil =>
      intro V i conclusion hV _
      refine ⟨[], rfl, fun c hc => ?_⟩
      refine ⟨[], [], .refl c, List.nil_prefix, List.nil_prefix, hc.keeps, ?_⟩
      exact fun _ => ⟨rfl, by simp, rfl⟩
  | cons s rest ih =>
      rintro V i conclusion hV ⟨hhas, hready⟩
      obtain ⟨l₁, hl₁, hruns⟩ := poses_runStep (v := v) s count i hV hhas
      obtain ⟨l₂, hl₂, hrest⟩ := ih (V := s.after V) (i + 1)
        (if s.step.name == theoremName then some s.fact else conclusion) hV hready
      refine ⟨l₁ ++ l₂, ⟨l₁, l₂, hl₁, hl₂, rfl⟩, fun c hc => ?_⟩
      have hfirst := hruns c hc
      simp only [List.map_cons, List.zipIdx_cons, runSteps, outcome_bind, outcome_attempt]
      unfold Asks at hfirst
      generalize outcome (runStep v count i s.step) c = r at hfirst ⊢
      obtain ⟨r, c₁⟩ := r
      cases r with
      | error e =>
          -- the run stops here, and no stage after this one is taken
          obtain ⟨⟨xs, hxs, hl⟩, hbase⟩ := hfirst
          obtain ⟨hheard, hsame, hstop⟩ := outcome_stop i s.step conclusion e c₁
          refine ⟨xs, [], ?_, hl.trans (List.prefix_append _ _), List.nil_prefix, ?_, ?_⟩
          · simpa using hxs.trans hheard
          · exact (hc.keeps.of_sameBase hbase).of_sameBase hsame
          · rintro ⟨f, hf⟩
            exact absurd hf (hstop f)
      | ok f =>
          obtain ⟨xs, hxs, rfl, href, V', hshows, rfl, rfl⟩ := hfirst
          obtain ⟨ys, done, hys, hl, hdone, hkeeps, hcompleted⟩ := hrest c₁ hshows
          refine ⟨xs ++ ys, s :: done, hxs.trans hys, ?_, ?_, hkeeps, fun h => ?_⟩
          · rw [List.map_append]
            exact (List.prefix_append_right_inj _).2 hl
          · exact (List.cons_prefix_cons).2 ⟨rfl, hdone⟩
          · obtain ⟨rfl, href', rfl⟩ := hcompleted h
            refine ⟨List.map_append, fun x hx => ?_, rfl⟩
            rcases List.mem_append.1 hx with hx | hx
            · exact href x hx
            · exact href' x hx

/-- Facts committed one after another, up to the first one that is refused. -/
theorem commits_spec (fs : List Fact) : ∀ {gs : List Fact} {n : Nat} {c : Context},
    c.Shows (.ofFacts gs n) →
      let r := outcome (fs.forM fun f => commit f) c
      ∃ done, done <+: fs ∧ c.Heard r.2 [] ∧ r.2.Keeps (.ofFacts (gs ++ done) n) ∧
        ∀ u, r.1 = .ok u → r.2.Shows (.ofFacts (gs ++ fs) n) ∧ done = fs := by
  induction fs with
  | nil =>
      intro gs n c hc
      refine ⟨[], List.nil_prefix, .refl c, ?_, fun _ _ => ⟨?_, rfl⟩⟩
      · rw [List.append_nil]
        exact hc.keeps
      · rw [List.append_nil]
        exact hc
  | cons f rest ih =>
      intro gs n c hc
      have hfirst := runs_commit (V := .ofFacts gs n) rfl f c hc
      have hcons : (f :: rest).forM (fun f => commit f) =
          (commit f >>= fun _ => rest.forM fun f => commit f : ProofM PUnit) := rfl
      rw [hcons, outcome_bind]
      unfold Asks at hfirst
      generalize outcome (commit f) c = r at hfirst ⊢
      obtain ⟨r, c₁⟩ := r
      cases r with
      | error e =>
          obtain ⟨⟨xs, hxs, hl⟩, hbase⟩ := hfirst
          obtain rfl : xs = [] := by simpa using hl
          refine ⟨[], List.nil_prefix, hxs, ?_, fun u h => by cases h⟩
          rw [List.append_nil]
          exact hc.keeps.of_sameBase hbase
      | ok u =>
          obtain ⟨xs, hxs, hl, _, V', hshows, rfl⟩ := hfirst
          obtain rfl : xs = [] := by simpa using hl
          rw [View.commit_ofFacts] at hshows
          obtain ⟨done, hdone, hheard, hkeeps, hok⟩ := ih hshows
          refine ⟨f :: done, List.cons_prefix_cons.2 ⟨rfl, hdone⟩, hxs.trans hheard, ?_, ?_⟩
          · simpa using hkeeps
          · intro u h
            obtain ⟨hall, rfl⟩ := hok u h
            exact ⟨by simpa using hall, rfl⟩

end Runs

/-! ### Facts in time -/

/-- The facts that stages require are among some facts and those of the stages before. -/
def Supplied : List Stage → List Fact → Prop
  | [], _ => True
  | s :: rest, fs => (∀ f ∈ baseFacts ++ s.required, f ∈ fs) ∧ Supplied rest (fs ++ [s.fact])

theorem Supplied.ready {ss : List Stage} : ∀ {fs : List Fact} {n : Nat}, Supplied ss fs →
    ((fs ++ ss.map Stage.fact).map Fact.name).Nodup → Ready ss (.ofFacts fs n) := by
  induction ss with
  | nil => exact fun _ _ => trivial
  | cons s rest ih =>
      rintro fs n ⟨hs, hrest⟩ hnodup
      refine ⟨View.has_ofFacts ?_ hs n, ?_⟩
      · rw [List.map_append] at hnodup
        exact hnodup.of_append_left
      · rw [View.after_ofFacts]
        exact ih hrest (by simpa using hnodup)

theorem Ready.take {ss : List Stage} (m : Nat) :
    ∀ {V : View}, Ready ss V → Ready (ss.take m) V := by
  induction ss generalizing m with
  | nil =>
      intro V _
      rw [List.take_nil]
      trivial
  | cons s rest ih =>
      rintro V ⟨hs, hrest⟩
      cases m with
      | zero => trivial
      | succ m => exact ⟨hs, ih m hrest⟩

theorem baseFacts_subset_axioms (v : Vocabulary) : ∀ f ∈ baseFacts, f ∈ v.axioms := by
  simp [baseFacts, axioms]

theorem supplied_stages {fs : List Fact} (h : ∀ f ∈ baseFacts, f ∈ fs) : Supplied stages fs := by
  simp +contextual [stages, Supplied, or_imp, h]

theorem nodup_names (v : Vocabulary) :
    ((v.axioms ++ stages.map Stage.fact).map Fact.name).Nodup := by
  cases hv : v.children with
  | none =>
      simp only [axioms, hv]
      decide
  | some fixed =>
      -- the name of the axiom about the size says nothing of the size
      have hnames : (v.axioms ++ stages.map Stage.fact).map Fact.name =
          ((⟨some (.lit true), v.nextValue⟩ : Vocabulary).axioms ++
            stages.map Stage.fact).map Fact.name := by
        rw [axioms, hv]
        rfl
      rw [hnames]
      simp only [axioms]
      decide

/-! ### The whole run -/

/-- The stages that a run takes under given options. -/
def chosenStages (s : Settings.Options) : List Stage :=
  if s.corollaries then stages else stages.take 10

theorem chosen_nil (s : Settings.Options) : chosen [] s = (chosenStages s).map Stage.step := by
  unfold chosen chosenStages
  cases s.corollaries <;> rfl

theorem ready_chosenStages (v : Vocabulary) (s : Settings.Options) :
    Ready (chosenStages s) (.ofFacts v.axioms 0) := by
  have hready : Ready stages (.ofFacts v.axioms 0) :=
    (supplied_stages (baseFacts_subset_axioms v)).ready (nodup_names v)
  unfold chosenStages
  split
  · exact hready
  · exact hready.take 10

theorem chosenStages_isPrefix (s : Settings.Options) : chosenStages s <+: stages := by
  unfold chosenStages
  split
  · exact List.prefix_rfl
  · exact List.take_prefix 10 stages

/-- **What a run of the plan asks and commits**, whatever the solver replies: a part of the queries
of its stages and of their facts, each from the beginning, and all of them if nothing stops it. -/
theorem run_spec (v : Vocabulary) (s : Settings.Options) (replies : List Prepared)
    (raising : Bool) :
    let start := Context.start s replies
    let r := outcome (run v (chosen [] s) raising) start
    ∃ l xs fs m, Schedule v (chosenStages s) (.ofFacts v.axioms 0) l ∧
      start.Heard r.2 xs ∧ xs.map Exchange.query <+: l ∧
      fs <+: v.axioms ++ (chosenStages s).map Stage.fact ∧ r.2.Keeps (.ofFacts fs m) ∧
      ∀ report, r.1 = .ok report → report.stop = none →
        xs.map Exchange.query = l ∧ (∀ x ∈ xs, x.Refuted) ∧
          fs = v.axioms ++ (chosenStages s).map Stage.fact := by
  have hstart : (Context.start s replies).Shows (.ofFacts [] 0) := ⟨rfl, rfl, rfl, rfl, rfl, rfl⟩
  obtain ⟨l, hl, hsteps⟩ := runSteps_spec (v := v) (chosen [] s).length (chosenStages s)
    (V := .ofFacts v.axioms 0) 1 none rfl (ready_chosenStages v s)
  obtain ⟨done, hdone, hheard, hkeeps, hok⟩ := commits_spec v.axioms hstart
  rw [← chosen_nil] at hsteps
  simp only [run, assertAxioms, outcome_bind]
  generalize outcome (v.axioms.forM fun f => commit f) (Context.start s replies) = r
    at hheard hkeeps hok ⊢
  obtain ⟨r, c₁⟩ := r
  cases r with
  | error e =>
      refine ⟨l, [], done, 0, hl, hheard, List.nil_prefix,
        hdone.trans (List.prefix_append _ _), hkeeps, ?_⟩
      intro report h
      cases h
  | ok u =>
      obtain ⟨hshows, _⟩ := hok u rfl
      obtain ⟨xs, taken, hxs, hxl, htaken, hkeeps, hcompleted⟩ := hsteps c₁ hshows
      obtain ⟨m, hm⟩ := View.afterAll_ofFacts taken v.axioms 0
      rw [List.nil_append] at *
      rw [hm] at hkeeps
      simp only
      generalize outcome (runSteps v _ _ none) c₁ = r at hxs hkeeps hcompleted ⊢
      obtain ⟨r, c₂⟩ := r
      have hfacts : v.axioms ++ taken.map Stage.fact <+:
          v.axioms ++ (chosenStages s).map Stage.fact :=
        (List.prefix_append_right_inj _).2 (htaken.map _)
      have hheard : (Context.start s replies).Heard c₂ xs := hheard.trans hxs
      cases r with
      | error e =>
          exact ⟨l, xs, _, m, hl, hheard, hxl, hfacts, hkeeps, fun report h => by cases h⟩
      | ok r =>
          obtain ⟨conclusion, stop⟩ := r
          cases stop with
          | none =>
              refine ⟨l, xs, _, m, hl, hheard, hxl, hfacts, hkeeps, fun report _ _ => ?_⟩
              obtain ⟨hall, href, rfl⟩ := hcompleted ⟨conclusion, rfl⟩
              exact ⟨hall, href, rfl⟩
          | some stop =>
              cases raising with
              | true =>
                  exact ⟨l, xs, _, m, hl, hheard, hxl, hfacts, hkeeps, fun report h => by cases h⟩
              | false =>
                  refine ⟨l, xs, _, m, hl, hheard, hxl, hfacts, hkeeps, fun report h hstop => ?_⟩
                  cases h
                  cases hstop

end Plan

end CandyCircle
