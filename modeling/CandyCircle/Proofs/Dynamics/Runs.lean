/-
**What a run returns, and when it is refused.**

Counts of any kind are looked through child by child, and the first that is no whole number, is
negative or is odd is named.  From counts that pass, every state is admissible again, so that the
states on the way pass, too, and a uniform state is its own successor.  There is a first uniform
state, and a run goes from the start to that one and no further.  Its limit counts steps: as many as
are taken suffice, one less does not, and a start that is uniform already needs none, so that any
limit will do, negative ones included.

Main definitions:

* `CandyCircle.Dynamics.Unfit`, `CandyCircle.Dynamics.Refused` — why a count and why counts are
  refused;
* `CandyCircle.Dynamics.runChecked` — a run that looks through its counts again before every step;
* `CandyCircle.Dynamics.FirstUniform` — the number of steps to the first uniform state;
* `CandyCircle.Dynamics.statesUpTo` — the states up to a step.

Main results:

* `CandyCircle.Dynamics.validate_error_iff`, `CandyCircle.Dynamics.validate_ok_iff` — which counts
  are refused, and why;
* `CandyCircle.Dynamics.Admissible.next`, `CandyCircle.Dynamics.Admissible.after` — **admissible
  counts stay admissible**;
* `CandyCircle.Dynamics.run_eq_runChecked` — looking through the counts again makes no difference;
* `CandyCircle.Dynamics.runFor_eq` — a run within a number of steps;
* `CandyCircle.Dynamics.run_exact` — **what a run returns**, and when and why it is refused.
-/
import CandyCircle.Proofs.Dynamics.Convergence

set_option autoImplicit false

namespace CandyCircle.Dynamics

/-! ### Counts that are refused -/

/-- Why a count is refused. -/
inductive Unfit : Data → CountsFault → Prop where
  | notWhole {d : Data} (h : ∀ n, d ≠ .int n) : Unfit d (.notWhole d)
  | negative {n : Int} (h : n < 0) : Unfit (.int n) (.negative n)
  | odd {n : Int} (h : 0 ≤ n) (hodd : n % 2 ≠ 0) : Unfit (.int n) (.odd n)

/-- Why counts are refused: there are none, or it is on account of the first unfit one. -/
inductive Refused : List Data → CountsFault → Prop where
  | noChildren : Refused [] .noChildren
  | first {before : List Int} {d : Data} {others : List Data} {fault : CountsFault}
      (hbefore : ∀ c ∈ before, 0 ≤ c ∧ c % 2 = 0) (h : Unfit d fault) :
      Refused (before.map Data.int ++ d :: others) fault

theorem validateCount_of_unfit {d : Data} {fault : CountsFault} (h : Unfit d fault) :
    validateCount d = .error fault := by
  cases h with
  | notWhole h => cases d <;> first | rfl | exact absurd rfl (h _)
  | negative h => rw [validateCount, if_pos h]
  | odd h hodd => rw [validateCount, if_neg (by omega), if_pos hodd]

/-- Every count is fit or unfit. -/
theorem fit_or_unfit (d : Data) :
    (∃ n : Int, d = .int n ∧ 0 ≤ n ∧ n % 2 = 0) ∨ ∃ fault, Unfit d fault := by
  by_cases hint : ∃ n, d = .int n
  · obtain ⟨n, rfl⟩ := hint
    by_cases hneg : n < 0
    · exact .inr ⟨_, .negative hneg⟩
    · by_cases hodd : n % 2 = 0
      · exact .inl ⟨n, rfl, by omega, hodd⟩
      · exact .inr ⟨_, .odd (by omega) hodd⟩
  · exact .inr ⟨_, .notWhole fun n hn => hint ⟨n, hn⟩⟩

/-- A list of counts holds fit ones only, or some fit ones before an unfit one. -/
theorem split_at_unfit (items : List Data) :
    (∃ counts : List Int, items = counts.map Data.int ∧ ∀ c ∈ counts, 0 ≤ c ∧ c % 2 = 0) ∨
      ∃ (before : List Int) (d : Data) (others : List Data) (fault : CountsFault),
        items = before.map Data.int ++ d :: others ∧ (∀ c ∈ before, 0 ≤ c ∧ c % 2 = 0) ∧
          Unfit d fault := by
  induction items with
  | nil => exact .inl ⟨[], rfl, by simp⟩
  | cons d rest ih =>
      rcases fit_or_unfit d with ⟨n, rfl, hfit⟩ | ⟨fault, hunfit⟩
      · rcases ih with ⟨counts, rfl, hcounts⟩ | ⟨before, d, others, fault, rfl, hbefore, hd⟩
        · exact .inl ⟨n :: counts, rfl, List.forall_mem_cons.2 ⟨hfit, hcounts⟩⟩
        · exact .inr ⟨n :: before, d, others, fault, rfl,
            List.forall_mem_cons.2 ⟨hfit, hbefore⟩, hd⟩
      · exact .inr ⟨[], d, rest, fault, rfl, by simp, hunfit⟩

/-- Every list of counts is admissible, or refused for some reason. -/
theorem admissible_or_refused (items : List Data) :
    (∃ counts, items = counts.map Data.int ∧ Admissible counts) ∨
      ∃ fault, Refused items fault := by
  rcases split_at_unfit items with ⟨counts, rfl, hcounts⟩ | ⟨before, d, others, fault, rfl, hbefore,
    hd⟩
  · cases counts with
    | nil => exact .inr ⟨_, .noChildren⟩
    | cons first others => exact .inl ⟨_, rfl, List.cons_ne_nil _ _, hcounts⟩
  · exact .inr ⟨fault, .first hbefore hd⟩

theorem validate_of_refused {items : List Data} {fault : CountsFault} (h : Refused items fault) :
    validate items = .error fault := by
  cases h with
  | noChildren => rfl
  | @first before d others fault hbefore h =>
      have hmapM : (before.map Data.int ++ d :: others).mapM validateCount = .error fault := by
        induction before with
        | nil =>
            rw [List.map_nil, List.nil_append, List.mapM_cons, validateCount_of_unfit h]
            rfl
        | cons c rest ih =>
            obtain ⟨hc, hrest⟩ := List.forall_mem_cons.1 hbefore
            rw [List.map_cons, List.cons_append, List.mapM_cons, validateCount_int hc, ih hrest]
            rfl
      rw [validate, if_neg (by simp), hmapM]

/-- **Which counts are refused**, and why. -/
theorem validate_error_iff {items : List Data} {fault : CountsFault} :
    validate items = .error fault ↔ Refused items fault := by
  refine ⟨fun h => ?_, validate_of_refused⟩
  rcases admissible_or_refused items with ⟨counts, rfl, hcounts⟩ | ⟨fault', hrefused⟩
  · rw [validate_of_admissible hcounts] at h
    cases h
  · rw [validate_of_refused hrefused] at h
    cases h
    exact hrefused

/-- **Which counts pass**: admissible ones. -/
theorem validate_ok_iff {items : List Data} {counts : List Int} :
    validate items = .ok counts ↔ items = counts.map Data.int ∧ Admissible counts := by
  constructor
  · intro h
    rcases admissible_or_refused items with ⟨counts', rfl, hcounts⟩ | ⟨fault, hrefused⟩
    · rw [validate_of_admissible hcounts] at h
      cases h
      exact ⟨rfl, hcounts⟩
    · rw [validate_of_refused hrefused] at h
      cases h
  · rintro ⟨rfl, hcounts⟩
    exact validate_of_admissible hcounts

/-- Counts are refused if there are none, or if one of them is no whole number, negative or odd. -/
theorem exists_refused_iff {items : List Data} :
    (∃ fault, Refused items fault) ↔
      items = [] ∨ ∃ d ∈ items, ∀ n : Int, d = .int n → n < 0 ∨ n % 2 ≠ 0 := by
  constructor
  · rintro ⟨fault, h⟩
    cases h with
    | noChildren => exact .inl rfl
    | first hbefore h =>
        refine .inr ⟨_, List.mem_append_right _ List.mem_cons_self, fun n hn => ?_⟩
        cases h with
        | notWhole h => exact absurd hn (h n)
        | negative h => cases hn; exact .inl h
        | odd h hodd => cases hn; exact .inr hodd
  · intro h
    rcases admissible_or_refused items with ⟨counts, rfl, hcounts⟩ | hrefused
    · -- admissible counts are neither
      rcases h with hnil | ⟨d, hd, hunfit⟩
      · exact absurd (List.map_eq_nil_iff.1 hnil) hcounts.1
      · obtain ⟨n, hn, rfl⟩ := List.mem_map.1 hd
        have hfit := hcounts.2 n hn
        have := hunfit n rfl
        omega
    · exact hrefused

/-! ### Admissible counts stay admissible -/

/-- **A step from admissible counts** leads to admissible counts. -/
theorem Admissible.next {counts : List Int} (h : Admissible counts) :
    Admissible (Dynamics.next counts) := by
  refine ⟨fun hnil => h.1 (List.length_eq_zero_iff.1 ?_), fun x hx => ?_⟩
  · rw [← length_next counts, hnil]
    rfl
  · obtain ⟨own, hown, neighbour, hnb, rfl⟩ := exists_of_mem_next hx
    exact ⟨le_nextValue (h.2 own hown).1 (h.2 neighbour hnb).1, nextValue_even own neighbour⟩

/-- **Every state of a run from admissible counts** is admissible. -/
theorem Admissible.after {counts : List Int} (h : Admissible counts) (k : Nat) :
    Admissible (Dynamics.after counts k) := by
  induction k with
  | zero => exact h
  | succ k ih => exact ih.next

theorem step_of_admissible {counts : List Int} (h : Admissible counts) :
    step (counts.map Data.int) = .ok (next counts) := by
  rw [step, validate_of_admissible h]
  rfl

/-- A uniform state is its own successor. -/
theorem next_of_isUniform {counts : List Int} (h : Admissible counts)
    (huniform : isUniform counts = true) : next counts = counts := by
  obtain ⟨first, hfirst⟩ := List.exists_mem_of_ne_nil counts h.1
  have hsame := isUniform_iff_forall.1 huniform
  have hnext : nextValue first first = first := by
    have := (h.2 first hfirst).2
    unfold nextValue topUp
    split <;> omega
  -- both are as many copies of one count
  have hcounts : counts = List.replicate counts.length first :=
    List.eq_replicate_iff.2 ⟨rfl, fun x hx => hsame x hx first hfirst⟩
  refine Eq.trans ?_ hcounts.symm
  refine List.eq_replicate_iff.2 ⟨length_next counts, fun x hx => ?_⟩
  obtain ⟨own, hown, neighbour, hnb, rfl⟩ := exists_of_mem_next hx
  rw [hsame own hown first hfirst, hsame neighbour hnb first hfirst, hnext]

/-! ### Looking through every state -/

/-- The states up to the first uniform one, within a number of steps, if each state is looked
through again before the step from it. -/
def runForChecked : Nat → List Int → Except CountsFault (Option (List (List Int)))
  | fuel, state =>
      if isUniform state then .ok (some [state])
      else
        match fuel with
        | 0 => .ok none
        | fuel + 1 => do
            let later ← step (state.map Data.int)
            return (← runForChecked fuel later).map (state :: ·)

/-- A run that looks through its counts again before every step. -/
def runChecked (items : List Data) (maxSteps : Int) : Except CountsFault (List (List Int)) := do
  let counts ← validate items
  match ← runForChecked maxSteps.toNat counts with
  | some states => return states
  | none => .error (.noConvergence (.int maxSteps))

/-- From admissible counts **no state on the way is refused**. -/
theorem runForChecked_eq {fuel : Nat} : ∀ {counts : List Int}, Admissible counts →
    runForChecked fuel counts = .ok (runFor fuel counts) := by
  induction fuel with
  | zero =>
      intro counts _
      unfold runForChecked runFor
      split <;> rfl
  | succ fuel ih =>
      intro counts h
      rw [runForChecked, runFor]
      split
      · rfl
      · rw [step_of_admissible h]
        simp only [Bind.bind, Except.bind, ih h.next]
        rfl

/-- **Looking through the counts again** before every step makes no difference. -/
theorem run_eq_runChecked (items : List Data) (maxSteps : Int) :
    run items maxSteps = runChecked items maxSteps := by
  rcases admissible_or_refused items with ⟨counts, rfl, hcounts⟩ | ⟨fault, hrefused⟩
  · rw [run_of_admissible hcounts, runChecked, validate_of_admissible hcounts]
    simp only [Bind.bind, Except.bind, runForChecked_eq hcounts]
    cases runFor maxSteps.toNat counts <;> rfl
  · rw [run, runChecked, validate_of_refused hrefused]
    rfl

/-! ### The states of a run -/

/-- The first uniform state is so many steps away. -/
structure FirstUniform (counts : List Int) (steps : Nat) : Prop where
  uniform : isUniform (after counts steps) = true
  before : ∀ k < steps, isUniform (after counts k) = false

theorem FirstUniform.unique {counts : List Int} {steps steps' : Nat}
    (h : FirstUniform counts steps) (h' : FirstUniform counts steps') : steps = steps' := by
  refine Nat.le_antisymm (Nat.le_of_not_lt fun hlt => ?_) (Nat.le_of_not_lt fun hlt => ?_)
  · exact Bool.eq_false_iff.1 (h.before _ hlt) h'.uniform
  · exact Bool.eq_false_iff.1 (h'.before _ hlt) h.uniform

/-- The states from the start up to a step. -/
def statesUpTo (counts : List Int) (steps : Nat) : List (List Int) :=
  (List.range (steps + 1)).map (after counts)

theorem statesUpTo_succ (counts : List Int) (steps : Nat) :
    statesUpTo counts (steps + 1) = counts :: statesUpTo (next counts) steps := by
  rw [statesUpTo, List.range_succ_eq_map, List.map_cons, List.map_map, statesUpTo]
  exact congrArg (List.cons _) (List.map_congr_left fun k _ => after_succ counts k)

/-- There is a first uniform state. -/
theorem exists_firstUniform {counts : List Int} (h : Admissible counts) :
    ∃ steps, FirstUniform counts steps := by
  obtain ⟨steps, -, huniform⟩ := exists_uniform_within h
  obtain ⟨states, hrun, -⟩ := runFor_of_isUniform steps (Nat.le_refl steps) huniform
  obtain ⟨first, -, hfirst, hbefore⟩ := exists_first_of_runFor hrun
  exact ⟨first, hfirst, fun k hk => by simpa using hbefore k hk⟩

/-- **A run within a number of steps** goes up to the first uniform state, if that is within
reach. -/
theorem runFor_eq {steps : Nat} : ∀ (fuel : Nat) {counts : List Int}, FirstUniform counts steps →
    runFor fuel counts = if steps ≤ fuel then some (statesUpTo counts steps) else none := by
  induction steps with
  | zero =>
      intro fuel counts h
      unfold runFor
      rw [if_pos (Nat.zero_le fuel)]
      exact if_pos h.uniform
  | succ steps ih =>
      intro fuel counts h
      have hnot : ¬ isUniform counts = true :=
        Bool.eq_false_iff.1 (h.before 0 (Nat.succ_pos steps))
      have hrest : FirstUniform (next counts) steps :=
        ⟨after_succ counts steps ▸ h.uniform,
          fun k hk => after_succ counts k ▸ h.before (k + 1) (Nat.succ_lt_succ hk)⟩
      cases fuel with
      | zero =>
          unfold runFor
          rw [if_neg hnot, if_neg (Nat.not_succ_le_zero steps)]
      | succ fuel =>
          rw [runFor, if_neg hnot, ih fuel hrest, statesUpTo_succ]
          by_cases hle : steps ≤ fuel
          · rw [if_pos hle, if_pos (Nat.succ_le_succ hle)]
            rfl
          · rw [if_neg hle, if_neg fun h => hle (Nat.le_of_succ_le_succ h)]
            rfl

/-- A run from admissible counts goes up to the first uniform state, if its limit allows that or
the start is uniform. -/
theorem run_of_firstUniform {counts : List Int} (h : Admissible counts) {steps : Nat}
    (hsteps : FirstUniform counts steps) (maxSteps : Int) :
    run (counts.map Data.int) maxSteps =
      if steps = 0 ∨ (steps : Int) ≤ maxSteps then .ok (statesUpTo counts steps)
      else .error (.noConvergence (.int maxSteps)) := by
  have hiff : steps ≤ maxSteps.toNat ↔ steps = 0 ∨ (steps : Int) ≤ maxSteps := by omega
  rw [run_of_admissible h, runFor_eq _ hsteps]
  by_cases hle : steps ≤ maxSteps.toNat
  · rw [if_pos hle, if_pos (hiff.1 hle)]
  · rw [if_neg hle, if_neg fun h => hle (hiff.2 h)]

/-- What a run returns are the states up to the first uniform one, whatever its limit. -/
theorem eq_statesUpTo_of_run {counts : List Int} (h : Admissible counts) {steps : Nat}
    (hsteps : FirstUniform counts steps) {maxSteps : Int} {states : List (List Int)}
    (hrun : run (counts.map Data.int) maxSteps = .ok states) : states = statesUpTo counts steps := by
  rw [run_of_firstUniform h hsteps] at hrun
  split at hrun
  · exact (Except.ok.inj hrun).symm
  · cases hrun

/-- **What a run returns, and when and why it is refused.**  A run that looks through its counts
before every step comes to the same.  Counts are refused before anything is done just if there are
none or one of them is no even natural number, and the first such one is named.  Otherwise there is
a first uniform state; the run returns the states up to it if the limit allows as many steps or none
is needed, and says that it did not converge if not.  Every state passes the checks, the step from
it leads to the next one, and the last one is its own successor. -/
theorem run_exact (items : List Data) :
    (∀ maxSteps, run items maxSteps = runChecked items maxSteps) ∧
    ((∃ fault, Refused items fault) ↔
      items = [] ∨ ∃ d ∈ items, ∀ n : Int, d = .int n → n < 0 ∨ n % 2 ≠ 0) ∧
    (∀ fault, Refused items fault → ∀ maxSteps, run items maxSteps = .error fault) ∧
    ((¬ ∃ fault, Refused items fault) → ∃ counts steps,
      items = counts.map Data.int ∧ FirstUniform counts steps ∧
      (∀ maxSteps : Int, run items maxSteps =
        if steps = 0 ∨ (steps : Int) ≤ maxSteps then .ok (statesUpTo counts steps)
        else .error (.noConvergence (.int maxSteps))) ∧
      (∀ k, validate ((after counts k).map Data.int) = .ok (after counts k) ∧
        step ((after counts k).map Data.int) = .ok (after counts (k + 1))) ∧
      step ((after counts steps).map Data.int) = .ok (after counts steps)) := by
  refine ⟨run_eq_runChecked items, exists_refused_iff, fun fault h maxSteps => ?_, fun h => ?_⟩
  · rw [run, validate_of_refused h]
    rfl
  · obtain ⟨counts, rfl, hcounts⟩ := (admissible_or_refused items).resolve_right h
    obtain ⟨steps, hsteps⟩ := exists_firstUniform hcounts
    refine ⟨counts, steps, rfl, hsteps, run_of_firstUniform hcounts hsteps, fun k => ?_, ?_⟩
    · exact ⟨validate_of_admissible (hcounts.after k), step_of_admissible (hcounts.after k)⟩
    · rw [step_of_admissible (hcounts.after steps),
        next_of_isUniform (hcounts.after steps) hsteps.uniform]

/-- From two candies at one of three children it takes two steps: a limit of two suffices, a limit
of one does not, and after a fault nothing else is looked at. -/
theorem run_exact_two_of_three :
    run ([2, 0, 0].map Data.int) 2 = .ok [[2, 0, 0], [2, 0, 2], [2, 2, 2]] ∧
      run ([2, 0, 0].map Data.int) 1 = .error (.noConvergence (.int 1)) ∧
      run [.int 2, .bool true, .int (-2)] (-1) = .error (.notWhole (.bool true)) := by
  have hunfit : Unfit (.bool true) (.notWhole (.bool true)) := .notWhole fun n h => by cases h
  have hrefused : Refused [.int 2, .bool true, .int (-2)] (.notWhole (.bool true)) :=
    @Refused.first [2] _ [.int (-2)] _ (by decide) hunfit
  have hadmissible : ¬ ∃ fault, Refused ([2, 0, 0].map Data.int) fault := by
    rw [exists_refused_iff]
    simp
  obtain ⟨counts, steps, hcounts, hsteps, hrun, -, -⟩ :=
    (run_exact ([2, 0, 0].map Data.int)).2.2.2 hadmissible
  obtain rfl : [2, 0, 0] = counts := (List.map_inj_right fun _ _ => Data.int.inj).1 hcounts
  have htwo : FirstUniform [2, 0, 0] 2 := ⟨by decide, by decide⟩
  obtain rfl := hsteps.unique htwo
  refine ⟨(hrun 2).trans ?_, hrun 1, (run_exact _).2.2.1 _ hrefused (-1)⟩
  rw [if_pos (by decide)]
  exact congrArg Except.ok (by decide)

end CandyCircle.Dynamics
