/-
**What the query about a witness establishes.**

To ask whether a step is a convergence witness, the base facts, the start and the dynamics of all
steps before it are committed, and the solver is asked once, inside a layer of its own, whether the
least and the greatest count can differ at the step.  They cannot if and only if the state after so
many steps is uniform: in every model of the facts the children hold up to the step what they hold
in the run, and the run itself is a model.  The hints that are asserted besides are true of the run
and so exclude nothing.

Main definitions:

* `CandyCircle.Witness.facts`, `CandyCircle.Witness.instances` — what is committed, and the hints;
* `CandyCircle.Witness.question` — **what is asked**;
* `CandyCircle.Context.Right` — the solver was right whenever it gave a definite answer.

Main results:

* `CandyCircle.Witness.unsatisfiable_question_iff` — **the question has no model just if the state
  is uniform**;
* `CandyCircle.Witness.completes_check` — what is asked, and what is returned;
* `CandyCircle.Witness.check_faithful` — **the query decides whether a step is a convergence
  witness**.
-/
import CandyCircle.Proofs.Dynamics.Convergence
import CandyCircle.Proofs.Plan.Axioms
import CandyCircle.Proofs.Plan.Truth
import CandyCircle.Witness

set_option autoImplicit false

namespace CandyCircle

open Logic Proof Vocabulary

/-- The solver was right whenever it gave a definite answer. -/
structure Context.Right (c : Context) : Prop where
  /-- It found no model only where there is none. -/
  honest : c.Honest
  /-- It found a model only where there is one. -/
  model : ∀ p ∈ c.session.asked, Verdict.ofAnswer p.2 = .sat → ¬ Unsatisfiable p.1.formulas

namespace Witness

variable {counts : List Int} {step : Nat}

/-! ### What is committed -/

/-- The dynamics of the step from `t` to `t + 1`, as they are committed. -/
def dynamics (t : Nat) : Fact :=
  let i := Term.int "i"
  let k : IntTerm := .num t
  let next : IntTerm := .num (t + 1)
  { name := "transition[" ++ (Step.ofInts k next ScopeFault.base).display ++ "]"
    vars := [.int "i"]
    guard := isChild i
    body := .equate (m i next) (halfToppedUp (m i k) (m (right i) k))
    trigger := some (.ofInts (m i next) [])
    step := some (.ofInts k next ScopeFault.base) }

theorem transitionAt_eq (counts : List Int) (t : Nat) :
    transitionAt (vocabulary counts) t = .ok (dynamics t) := rfl

/-- The base facts that are committed. -/
def known (counts : List Int) : List Fact :=
  (vocabulary counts).axioms.filter fun f => baseFacts.contains f.name

/-- What is committed: base facts, the start, and the dynamics of the steps before the one that is
asked about. -/
def facts (counts : List Int) (step : Nat) : List Fact :=
  known counts ++ [initialCounts counts] ++ (List.range step).map dynamics

/-- The size of the circle. -/
def size (h : counts ≠ []) : CircleSize :=
  ⟨counts.length, List.length_pos_iff.2 h⟩

theorem vocabulary_eq (h : counts ≠ []) : vocabulary counts = Plan.processOn (some (size h)) := by
  have hsize : circleSize? counts.length = some (size h) := by
    have hpos := List.length_pos_iff.2 h
    simp [circleSize?, size, hpos]
  rw [vocabulary, hsize]
  rfl

theorem known_eq (h : counts ≠ []) : known counts =
    [childrenExist, childrenCount (hasChildren (size h)), rightNeighbor, maxChildExists,
      minChildExists, maxDominates, minDominated] := by
  rw [known, vocabulary_eq h]
  rfl

theorem mem_facts (h : counts ≠ []) :
    ∀ f ∈ [childrenExist, childrenCount (hasChildren (size h)), rightNeighbor, maxChildExists,
      minChildExists, maxDominates, minDominated, initialCounts counts], f ∈ facts counts step := by
  intro f hf
  rw [facts, known_eq h]
  exact List.mem_append_left _ hf

theorem dynamics_mem_facts {t : Nat} (ht : t < step) : dynamics t ∈ facts counts step :=
  List.mem_append_right _ (List.mem_map_of_mem (List.mem_range.2 ht))

/-- The name of the dynamics of a step begins with the numeral of the step. -/
theorem toList_name_dynamics (t : Nat) : (dynamics t).name.toList =
    "transition[".toList ++ (Nat.toDigits 10 t ++ ' ' :: ("-> ".toList ++
      (Nat.toDigits 10 (t + 1) ++ "]".toList))) := by
  have hdisplay (n : Nat) : Term.display (.num n : IntTerm) = Decimal.ofNat n := by
    simp [Term.display, Expr.printed, Printed.ofText, Printed.text, Decimal.ofInt]
  have hnext : Term.display (.num (t + 1) : IntTerm) = Decimal.ofNat (t + 1) := hdisplay (t + 1)
  simp [dynamics, Step.display, Step.ofInts, AnyTerm.int, hdisplay, hnext, Decimal.ofNat]

theorem dynamics_name_inj {t t' : Nat} (h : (dynamics t).name = (dynamics t').name) : t = t' := by
  -- the numeral is what stands between the bracket and the first blank
  have hdigits (n : Nat) :
      ((dynamics n).name.toList.drop 11).takeWhile (· != ' ') = Nat.toDigits 10 n := by
    rw [toList_name_dynamics, List.drop_left' (by decide), List.takeWhile_append_of_pos]
    · simp
    · intro c hc
      have := Nat.isDigit_of_mem_toDigits (by omega) (by omega) hc
      rw [bne_iff_ne]
      rintro rfl
      exact absurd this (by decide)
  have heq : Nat.toDigits 10 t = Nat.toDigits 10 t' := by
    rw [← hdigits t, ← hdigits t', h]
  rw [← Nat.ofDigitChars_ten_toDigits (n := t), heq, Nat.ofDigitChars_ten_toDigits]

theorem map_name_known (h : counts ≠ []) :
    (known counts ++ [initialCounts counts]).map Fact.name =
      ["children-exist", "children-count", "right-neighbor", "max-child-exists",
        "min-child-exists", "max-dominates", "min-dominated", "initial-counts"] := by
  rw [known_eq h]
  rfl

theorem nodup_facts (h : counts ≠ []) (step : Nat) :
    ((facts counts step).map Fact.name).Nodup := by
  rw [facts, List.map_append, map_name_known h, List.map_map, List.nodup_append]
  refine ⟨by decide, List.nodup_range.map fun t t' => dynamics_name_inj, ?_⟩
  -- the names of dynamics begin with a letter with which no other name begins
  intro name hname name' hname' heq
  obtain ⟨t, -, rfl⟩ := List.mem_map.1 hname'
  have hfirst : name.toList.head? = some 't' := by
    rw [heq, Function.comp_apply, toList_name_dynamics]
    rfl
  clear heq
  revert name
  decide

theorem fault?_facts : ∀ f ∈ facts counts step, f.fault? = none := by
  intro f hf
  rcases List.mem_append.1 hf with hf | hf
  · rcases List.mem_append.1 hf with hf | hf
    · exact Plan.fault?_axioms f (List.mem_filter.1 hf).1
    · rw [List.mem_singleton.1 hf]
      rfl
  · obtain ⟨t, -, rfl⟩ := List.mem_map.1 hf
    rfl

/-! ### What is asked -/

/-- The instances of a fact for all children. -/
def forAll (counts : List Int) (f : Fact) : List Formula :=
  (children counts).map fun i => f.matrixFor [.int i]

/-- The hints: neighbours and dynamics of all children, and that a child holds the most and one the
least. -/
def instances (counts : List Int) (step : Nat) : List Formula :=
  let last : IntTerm := .num step
  forAll counts rightNeighbor ++
    (((List.range step).map dynamics).map (forAll counts)).flatten ++
      [maxChildExists.matrixFor [.int last], minChildExists.matrixFor [.int last]] ++
        [isSomeChild counts (maxChild last), isSomeChild counts (minChild last)]

/-- What is assumed in the layer of the query: that the extremes differ, and the hints. -/
def assumptions (counts : List Int) (step : Nat) : List Assertion :=
  { formula := .not (converged (.num step)), label := "not converged at " ++ Decimal.ofNat step } ::
    (instances counts step).map fun f =>
      { formula := f, label := name step ++ " hint", hint := true }

/-- **What is asked.** -/
def question (counts : List Int) (step : Nat) : Question where
  base := (facts counts step).map Fact.assertion
  inner := assumptions counts step

/-! ### What the question establishes -/

section Meaning

variable {I : Interpretation} {ρ : Valuation}

theorem satisfies_question :
    (∀ f ∈ (question counts step).formulas, Satisfies I ρ f) ↔
      (∀ f ∈ facts counts step, Satisfies I ρ f.formula) ∧
        (Course.of I).least step ≠ (Course.of I).most step ∧
          ∀ f ∈ instances counts step, Satisfies I ρ f := by
  simp only [Question.formulas, question, assumptions, List.map_append, List.map_cons,
    List.map_map, List.forall_mem_append, List.forall_mem_cons, List.forall_mem_map,
    Function.comp_apply, Fact.assertion, satisfies_not, satisfies_converged, meaning_num, ne_eq]

/-- The dynamics of a step say that it follows the rule of the process. -/
theorem satisfies_dynamics (t : Nat) : Satisfies I ρ (dynamics t).formula ↔
    (Course.of I).Follows Dynamics.nextValue t (t + 1) :=
  satisfies_transition computes_standard (transitionAt_eq [] t) (fun _ => rfl) fun _ => rfl

theorem satisfies_isSomeChild {t : IntTerm} : Satisfies I ρ (isSomeChild counts t) ↔
    ∃ place : Nat, place < counts.length ∧ (t.meaning I ρ : Int) = place + 1 := by
  simp [isSomeChild, meaning_any, children]

/-- **In every model of the facts** the children hold up to the step what they hold in the run. -/
theorem holdsAt_of_satisfies (hne : counts ≠ [])
    (hfacts : ∀ f ∈ facts counts step, Satisfies I ρ f.formula) {k : Nat} (hk : k ≤ step) :
    (Course.of I).HoldsAt k (Dynamics.after counts k) := by
  have hknown := fun f hf => hfacts f (mem_facts hne f hf)
  have hsize : (Course.of I).size = counts.length :=
    (satisfies_childrenCount (size hne)).1 (hknown _ (by simp))
  have hright := satisfies_rightNeighbor.1 (hknown rightNeighbor (by simp))
  have hstart := (satisfies_initialCounts counts).1 (hknown (initialCounts counts) (by simp))
  have hsteps : ∀ t : Nat, t < step → (Course.of I).Follows Dynamics.nextValue t (t + 1) :=
    fun t ht => (satisfies_dynamics t).1 (hfacts _ (dynamics_mem_facts ht))
  refine Course.HoldsAt.afterBy ⟨hsize, fun i hi => ?_⟩ hright hsteps hk
  have hget := List.getElem?_eq_getElem hi
  rw [hget, hstart i _ hget]

/-- **The run is a model of the facts.** -/
theorem satisfies_facts_of_isRun (hstart : Dynamics.Admissible counts)
    (h : (Course.of I).IsRun Dynamics.nextValue counts) :
    ∀ f ∈ facts counts step, Satisfies I ρ f.formula := by
  intro f hf
  rcases List.mem_append.1 hf with hf | hf
  · rcases List.mem_append.1 hf with hf | hf
    · -- the base facts are among the axioms for circles of this size
      have haxiom := (List.mem_filter.1 hf).1
      rw [vocabulary_eq hstart.1] at haxiom
      refine Plan.satisfies_axioms_of_isRun hstart h _ (fun n hn => ?_) f haxiom
      rw [← Option.some.inj hn]
      rfl
    · rw [List.mem_singleton.1 hf]
      exact Plan.satisfies_initialCounts_of_isRun h
  · obtain ⟨t, -, rfl⟩ := List.mem_map.1 hf
    exact (satisfies_dynamics t).2 (h.follows t)

/-- The hints are true of the run, being instances of true facts, or about its extremes. -/
theorem satisfies_instances_of_isRun (hstart : Dynamics.Admissible counts)
    (h : (Course.of I).IsRun Dynamics.nextValue counts) :
    ∀ f ∈ instances counts step, Satisfies I ρ f := by
  have hfacts : ∀ f ∈ facts counts step, Satisfies I ρ f.formula :=
    satisfies_facts_of_isRun hstart h
  have hknown := fun f hf => hfacts f (mem_facts hstart.1 f hf)
  have hall {f : Fact} (hf : Satisfies I ρ f.formula) :
      ∀ e ∈ forAll counts f, Satisfies I ρ e := by
    intro e he
    obtain ⟨i, -, rfl⟩ := List.mem_map.1 he
    exact Fact.satisfies_matrixFor hf _
  have hchild {i : Int} (hi : (Course.of I).IsChild i) :
      ∃ place : Nat, place < counts.length ∧ i = place + 1 := Course.exists_place h.size_eq hi
  simp only [instances, List.forall_mem_append, List.forall_mem_cons, List.not_mem_nil,
    false_implies, implies_true, and_true, satisfies_isSomeChild]
  refine ⟨⟨⟨hall (hknown rightNeighbor (by simp)), fun e he => ?_⟩, ?_, ?_⟩, ?_, ?_⟩
  · obtain ⟨es, hes, he⟩ := List.mem_flatten.1 he
    obtain ⟨f, hf, rfl⟩ := List.mem_map.1 hes
    exact hall (hfacts f (List.mem_append_right _ hf)) e he
  · exact Fact.satisfies_matrixFor (hknown maxChildExists (by simp)) _
  · exact Fact.satisfies_matrixFor (hknown minChildExists (by simp)) _
  · exact hchild (h.richest step).1
  · exact hchild (h.poorest step).1

end Meaning

/-- **The question has no model just if the state is uniform.** -/
theorem unsatisfiable_question_iff (h : Dynamics.Admissible counts) (step : Nat) :
    Unsatisfiable (question counts step).formulas ↔
      Dynamics.isUniform (Dynamics.after counts step) = true := by
  constructor
  · intro hunsat
    obtain ⟨I, hI⟩ := Plan.exists_isRun_of h
    by_contra hne
    -- otherwise the run is a model
    refine hunsat I (fun kind _ => kind.filler) (satisfies_question.2 ⟨?_, ?_, ?_⟩)
    · exact satisfies_facts_of_isRun h hI
    · exact fun heq => hne ((hI.isUniform_iff step).2 heq)
    · exact satisfies_instances_of_isRun h hI
  · intro huniform I ρ hall
    obtain ⟨hfacts, hne, -⟩ := satisfies_question.1 hall
    have hstate := holdsAt_of_satisfies h.1 hfacts (Nat.le_refl step)
    have hknown := fun f hf => hfacts f (mem_facts h.1 f hf)
    have hrichest := satisfies_maxChildExists.1 (hknown maxChildExists (by simp)) step
      (Int.natCast_nonneg step)
    have hpoorest := satisfies_minChildExists.1 (hknown minChildExists (by simp)) step
      (Int.natCast_nonneg step)
    -- richest and poorest child hold counts of a uniform state
    exact hne (Dynamics.isUniform_iff_forall.1 huniform _ (hstate.mem hpoorest) _
      (hstate.mem hrichest))

/-! ### Asking it -/

variable {replies : List Prepared}

theorem completes_prepare (h : counts ≠ []) :
    Completes (prepare counts step) (.ofFacts [] 0) (.ofFacts [] replies) [] fun ts V σ =>
      ts = (List.range step).map dynamics ∧ V = .ofFacts (facts counts step) 0 ∧
        σ = .ofFacts (facts counts step) replies := by
  have hnodup := nodup_facts h step
  have hfaults : ∀ f ∈ facts counts step, f.fault? = none := fault?_facts
  unfold facts at hnodup hfaults
  obtain ⟨hfaultsStart, hfaultsSteps⟩ := List.forall_mem_append.1 hfaults
  obtain ⟨hfaultsKnown, hfaultStart⟩ := List.forall_mem_append.1 hfaultsStart
  have hnodupStart : ((known counts ++ [initialCounts counts]).map Fact.name).Nodup := by
    rw [List.map_append] at hnodup
    exact hnodup.of_append_left
  have hnodupKnown : ((known counts).map Fact.name).Nodup := by
    rw [List.map_append] at hnodupStart
    exact hnodupStart.of_append_left
  have hnewStart : (initialCounts counts).name ∉ (known counts).map Fact.name := by
    intro hmem
    rw [List.map_append] at hnodupStart
    exact List.disjoint_of_nodup_append hnodupStart hmem (List.mem_singleton_self _)
  unfold prepare
  refine (completes_commits (known counts) hnodupKnown hfaultsKnown).next fun _ V σ hV => ?_
  obtain ⟨rfl, rfl⟩ := hV
  refine (completes_commit hnewStart (hfaultStart _ (List.mem_singleton_self _))).next
    fun _ V σ hV => ?_
  obtain ⟨rfl, rfl⟩ := hV
  refine Yields.bind (yields_mapM fun t _ => yields_require (transitionAt_eq counts t)) ?_
  refine (completes_commits _ hnodup hfaultsSteps).next fun _ V σ hV => ?_
  obtain ⟨rfl, rfl⟩ := hV
  exact yields_pure _

theorem yields_hints (h : counts ≠ []) :
    Yields (hints counts step ((List.range step).map dynamics)) (.ofFacts (facts counts step) 0)
      (.ofFacts (facts counts step) replies) (instances counts step) := by
  have hnodup := nodup_facts h step
  have hfact (f : Fact) (hf : f ∈ facts counts step) :
      Yields (fact f.name) (.ofFacts (facts counts step) 0)
        (.ofFacts (facts counts step) replies) f := yields_fact hnodup hf
  have hall (f : Fact) (hvars : f.vars = [.int "i"]) (hfault : f.matrixFault? = none) :
      Yields ((children counts).mapM fun i => instanceOf f [i]) (.ofFacts (facts counts step) 0)
        (.ofFacts (facts counts step) replies) (forAll counts f) :=
    yields_mapM fun i _ => yields_instanceOf hvars hfault i
  have hdynamics : ∀ f ∈ (List.range step).map dynamics,
      Yields ((children counts).mapM fun i => instanceOf f [i]) (.ofFacts (facts counts step) 0)
        (.ofFacts (facts counts step) replies) (forAll counts f) := by
    intro f hf
    obtain ⟨t, -, rfl⟩ := List.mem_map.1 hf
    exact hall (dynamics t) rfl rfl
  unfold hints
  refine Yields.bind (hfact rightNeighbor (mem_facts h _ (by simp))) ?_
  refine Yields.bind (hfact maxChildExists (mem_facts h _ (by simp))) ?_
  refine Yields.bind (hfact minChildExists (mem_facts h _ (by simp))) ?_
  refine Yields.bind (hall rightNeighbor rfl rfl) ?_
  refine Yields.bind (yields_mapM hdynamics) ?_
  refine Yields.bind (yields_instanceOf rfl rfl _) ?_
  refine Yields.bind (yields_instanceOf rfl rfl _) ?_
  exact yields_pure _

theorem completes_ask {r : Reply} (hreply : (Stance.ofFacts [] replies).reply = .ok r) :
    Completes (scope (name step) fun _ => do
        assume (.not (converged (.num step))) ("not converged at " ++ Decimal.ofNat step)
        assumeHints (instances counts step) (name step ++ " hint")
        checkRefuted (name step) "witness" (claim step))
      (.ofFacts (facts counts step) 0) (.ofFacts (facts counts step) replies)
      [((name step, question counts step), r.answer)] fun v _ _ => v = .ofAnswer r.answer := by
  have hopen : (View.ofFacts (facts counts step) 0).push.frames ≠ [] := List.cons_ne_nil _ _
  have hadmits (f : Formula) : (Stance.ofFacts (facts counts step) replies).push.Admits f :=
    fun _ _ => List.not_mem_nil
  have hreply : (Stance.ofFacts (facts counts step) replies).push.reply = .ok r := hreply
  refine .scope fun layer _ => ?_
  refine (Completes.of_runs (runs_assume hopen _ _) (returns_assume (hadmits _) _)).next
    fun _ V σ h => ?_
  obtain ⟨rfl, rfl⟩ := h
  refine (Completes.of_runs (runs_assumeHints _ _ (frames_add_ne_nil hopen _))
    (returns_assumeHints _ fun f _ => hadmits f)).next fun _ V σ h => ?_
  obtain ⟨rfl, rfl⟩ := h
  rw [add_add]
  change Completes _ ((View.ofFacts (facts counts step) 0).push.add (assumptions counts step)) _ _ _
  have hquestion : ((View.ofFacts (facts counts step) 0).push.add
      (assumptions counts step)).question [] = question counts step := by
    rw [View.question_add hopen, List.append_nil]
    rfl
  rw [← hquestion]
  refine (completes_checkRefuted hreply _ _ _).mono fun v V σ h => ?_
  obtain ⟨hv, -, rfl⟩ := h
  exact ⟨rfl, hv⟩

/-- **What is asked, and what is returned.** -/
theorem completes_check (h : Dynamics.Admissible counts) {r : Reply}
    (hreply : (Stance.ofFacts [] replies).reply = .ok r) :
    Completes (check (counts.map Data.int) step) (.ofFacts [] 0) (.ofFacts [] replies)
      [((name step, question counts step), r.answer)] fun v _ _ => v = .ofAnswer r.answer := by
  have hvalid : validate (counts.map Data.int) step = .ok (counts, step) := by
    rw [validate, Dynamics.validate_of_admissible h]
    rfl
  unfold check
  refine Yields.bind (yields_require hvalid) ?_
  unfold query
  refine (completes_prepare h.1).next fun ts V σ hV => ?_
  obtain ⟨rfl, rfl, rfl⟩ := hV
  refine Yields.bind (yields_hints h.1) ?_
  refine (completes_ask hreply).ending fun v V σ hv => ?_
  refine (Completes.of_runs (Plan.runs_log _ _ _) (returns_log _ _ _)).next fun _ V' σ' _ => ?_
  exact (yields_pure v).mono fun _ _ _ h => h.1.trans hv

/-- **The query decides whether a step is a convergence witness.**  From any admissible counts it is
one query, whatever the solver replies to it.  The question has no model just if the state at the
step is uniform, and it is uniform from the convergence step on, which exists.  So with a solver
that is right the verdict, if it is a definite one, is the one that running the process gives. -/
theorem check_faithful (h : Dynamics.Admissible counts) (step : Nat) :
    (Unsatisfiable (question counts step).formulas ↔
      Dynamics.isUniform (Dynamics.after counts step) = true) ∧
    (∃ first : Nat, ∀ maxSteps : Int, first ≤ maxSteps →
      Dynamics.convergenceStep (counts.map Data.int) maxSteps = .ok first) ∧
    (∀ maxSteps first, Dynamics.convergenceStep (counts.map Data.int) maxSteps = .ok first →
      (Unsatisfiable (question counts step).formulas ↔ first ≤ step)) ∧
    ∀ options replies r, (Context.start options replies).session.reply = .ok r →
      let start := Context.start options replies
      let run := outcome (check (counts.map Data.int) step) start
      (∃ x : Exchange, start.Heard run.2 [x] ∧ x.query = (name step, question counts step) ∧
        x.answer = r.answer) ∧
      run.1 = .ok (.ofAnswer r.answer) ∧
      (run.2.Right → Verdict.ofAnswer r.answer ≠ .unknown → run.1 = .ok (decide counts step)) := by
  have huniform := unsatisfiable_question_iff h step
  refine ⟨huniform, Dynamics.exists_convergenceStep h, fun maxSteps first hfirst => ?_,
    fun options replies r hreply => ?_⟩
  · exact huniform.trans (Dynamics.isUniform_after_iff h hfirst step)
  intro start run
  obtain ⟨v, xs, c', hout, hheard, hsaid, _, _, rfl⟩ := completes_check h hreply start
    ⟨rfl, rfl, rfl, rfl, rfl, rfl⟩ rfl
  obtain ⟨x, rfl, hx⟩ := List.map_eq_singleton_iff.1 hsaid
  obtain ⟨hquery, hanswer⟩ := Prod.mk.inj hx
  have hrun : run = (.ok (.ofAnswer r.answer), c') := hout
  rw [hrun]
  refine ⟨⟨x, hheard, hquery, hanswer⟩, rfl, fun hright hdefinite => ?_⟩
  have hquestion : x.question = question counts step := congrArg Prod.snd hquery
  have hasked : (question counts step, r.answer) ∈ c'.session.asked := by
    rw [hheard.asked_of_start, ← hanswer, ← hquestion]
    exact List.mem_singleton_self _
  -- a definite verdict says whether the question has a model
  cases hverdict : Verdict.ofAnswer r.answer with
  | unsat =>
      have hunsat := hright.honest _ hasked hverdict
      rw [decide, if_pos (huniform.1 hunsat)]
  | sat =>
      have hsat := hright.model _ hasked hverdict
      rw [decide, if_neg fun hu => hsat (huniform.2 hu)]
  | unknown => exact absurd hverdict hdefinite

/-- From two candies at one of three children the second step is a convergence witness, and the
first one is not; a solver that refutes every query is right about the second one. -/
theorem check_faithful_two_of_three : Dynamics.Admissible [2, 0, 0] ∧
    Unsatisfiable (question [2, 0, 0] 2).formulas ∧
    ¬ Unsatisfiable (question [2, 0, 0] 1).formulas ∧
    (outcome (check ([2, 0, 0].map Data.int) (2 : Nat))
      (Context.start (Settings.options {}) [])).1 = .ok .unsat := by
  have h : Dynamics.Admissible [2, 0, 0] := ⟨by decide, by decide⟩
  have hconverges : Dynamics.convergenceStep ([2, 0, 0].map Data.int) 2 = .ok 2 := by
    rw [Dynamics.convergenceStep, Dynamics.run_of_admissible h]
    rfl
  refine ⟨h, ((check_faithful h 2).2.2.1 2 2 hconverges).2 (Nat.le_refl 2), fun hunsat => ?_, ?_⟩
  · exact absurd ((check_faithful h 1).1.1 hunsat) (by decide)
  · exact ((check_faithful h 2).2.2.2 (Settings.options {}) [] .exhausted rfl).2.1

end Witness

end CandyCircle
