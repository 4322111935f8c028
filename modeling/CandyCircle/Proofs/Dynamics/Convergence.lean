/-
**The process converges, and how soon.**

A state that is not uniform has fewer children at the least count one step later, or a greater least
count; counts are even, so that the distance of the extremes then shrinks by two.  Weighing the
distance by the number of children that can be at the least count gives a potential that every such
step lowers, and with it a bound on the number of steps: half the distance of the extremes for all
children but one.

Main definitions:

* `CandyCircle.Course.potential` — the potential of a step;
* `CandyCircle.Dynamics.spread` — the distance of the extremes of given counts.

Main results:

* `CandyCircle.Course.potential_succ_lt` — **a step from a state that is not uniform lowers the
  potential**;
* `CandyCircle.Course.IsRun.exists_uniform` — so a uniform state is at most as many steps away as
  the potential says;
* `CandyCircle.Dynamics.exists_convergenceStep`, `CandyCircle.Dynamics.isUniform_after_iff` — **the
  states from the convergence step on are the uniform ones**;
* `CandyCircle.Dynamics.converges_within_spread` — **the process converges within the bound**, and
  so does every run that is allowed as many steps.
-/
import CandyCircle.Proofs.Course.Run

set_option autoImplicit false

namespace CandyCircle

namespace Course

open CandyCircle.Dynamics

variable {c : Course}

/-! ### The potential -/

/-- The potential of a step: nothing at a uniform state, and otherwise one for every child at the
least count and as many as there can be of them for every pair of candies between the extremes
but one. -/
def potential (c : Course) (k : Int) : Int :=
  if c.least k = c.most k then 0
  else (c.size - 1) * (c.gap k / 2 - 1) + c.holders (c.least k) k

theorem gap_even (h : c.Lawful) {k : Int} (hk : 0 ≤ k) (heven : c.EvenAt k) : c.gap k % 2 = 0 := by
  have hmost := (heven _ (h.richest_isChild k hk)).2
  have hleast := (heven _ (h.poorest_isChild k hk)).2
  unfold gap most least
  omega

theorem two_le_gap (h : c.Lawful) {k : Int} (hk : 0 ≤ k) (heven : c.EvenAt k)
    (hne : c.least k ≠ c.most k) : 2 ≤ c.gap k := by
  have hgap := gap_nonneg h hk
  have := gap_even h hk heven
  unfold gap at *
  omega

theorem potential_nonneg (h : c.Lawful) {k : Int} (hk : 0 ≤ k) (heven : c.EvenAt k) :
    0 ≤ c.potential k := by
  unfold potential
  split
  case isTrue => exact Int.le_refl 0
  case isFalse hne =>
    have hgap := two_le_gap h hk heven hne
    have hsize := h.size_pos
    have hholders := h.holders_nonneg k (c.least k) hk
    have : 0 ≤ (c.size - 1) * (c.gap k / 2 - 1) := Int.mul_nonneg (by omega) (by omega)
    omega

/-- The potential is at most the number of children but one for every pair of candies between the
extremes. -/
theorem potential_le (h : c.Lawful) {k : Int} (hk : 0 ≤ k)
    (hholders : c.least k ≠ c.most k → c.holders (c.least k) k ≤ c.size - 1) :
    c.potential k ≤ (c.size - 1) * (c.gap k / 2) := by
  have hsize := h.size_pos
  unfold potential
  split
  case isTrue =>
    have := gap_nonneg h hk
    exact Int.mul_nonneg (by omega) (by omega)
  case isFalse hne =>
    have := hholders hne
    rw [Int.mul_sub, Int.mul_one]
    omega

/-- **A step from a state that is not uniform lowers the potential.** -/
theorem potential_succ_lt (h : c.Lawful) {k : Int} (hk : 0 ≤ k)
    (hstep : c.Follows nextValue k (k + 1)) (heven : c.EvenAt k) (hne : c.least k ≠ c.most k)
    (hpos : 1 ≤ c.holders (c.least k) k)
    (hholders : c.least (k + 1) ≠ c.most (k + 1) →
      c.holders (c.least (k + 1)) (k + 1) ≤ c.size - 1) :
    c.potential (k + 1) < c.potential k := by
  have hsize := h.size_pos
  have heven' := evenAt_succ h hstep heven
  have hgap := two_le_gap h hk heven hne
  have hmost := most_le h hk (by omega) hstep heven
  have hleast := least_le h hk (by omega) hstep
  have htop : c.least k < c.held (c.richest k) k := by
    have := gap_nonneg h hk
    unfold gap most at *
    omega
  have hfewer := holders_least_lt h hk rfl hstep heven (h.richest_isChild k hk) htop
  have hrest : 0 ≤ (c.size - 1) * (c.gap k / 2 - 1) := Int.mul_nonneg (by omega) (by omega)
  -- the new step is uniform, or its extremes are no farther apart than the old ones
  have hk' : c.potential k = (c.size - 1) * (c.gap k / 2 - 1) + c.holders (c.least k) k :=
    if_neg hne
  rw [hk']
  by_cases huniform : c.least (k + 1) = c.most (k + 1)
  · rw [potential, if_pos huniform]
    omega
  · by_cases hsame : c.least (k + 1) = c.least k
    · -- the least count stays, and fewer children hold it
      have hle : (c.size - 1) * (c.gap (k + 1) / 2 - 1) ≤ (c.size - 1) * (c.gap k / 2 - 1) :=
        Int.mul_le_mul_of_nonneg_left (by unfold gap; omega) (by omega)
      rw [potential, if_neg huniform, hsame]
      omega
    · -- the least count rises, by two at least
      have hlow := (heven _ (h.poorest_isChild k hk)).2
      have hlow' := (heven' _ (h.poorest_isChild (k + 1) (by omega))).2
      have hgap' : c.gap (k + 1) / 2 ≤ c.gap k / 2 - 1 := by
        unfold gap most least at *
        omega
      have hbound := potential_le h (by omega : 0 ≤ k + 1) hholders
      have hle : (c.size - 1) * (c.gap (k + 1) / 2) ≤ (c.size - 1) * (c.gap k / 2 - 1) :=
        Int.mul_le_mul_of_nonneg_left hgap' (by omega)
      omega

/-! ### The potential of a run -/

namespace IsRun

variable {counts : List Int}

theorem evenAt (h : c.IsRun nextValue counts) (hstart : Admissible counts) (k : Nat) :
    c.EvenAt k := by
  induction k with
  | zero => exact (h.lawful hstart).start
  | succ k ih => exact evenAt_succ (h.lawful hstart) (h.follows k) ih

theorem holders_least_pos (h : c.IsRun nextValue counts) (k : Nat) :
    1 ≤ c.holders (c.least k) k := by
  have hmem := h.held_mem (h.poorest k).1 k
  have := List.count_pos_iff.2 hmem
  rw [h.holders_eq, Dynamics.holders, least]
  omega

/-- At a state that is not uniform some child does not hold the least count. -/
theorem holders_least_le (h : c.IsRun nextValue counts) (k : Nat)
    (hne : c.least k ≠ c.most k) : c.holders (c.least k) k ≤ c.size - 1 := by
  have hle := List.count_le_length (a := c.least k) (l := afterBy nextValue counts k)
  have hlt : (afterBy nextValue counts k).count (c.least k) ≠
      (afterBy nextValue counts k).length := by
    intro heq
    exact hne (List.count_eq_length.1 heq _ (h.held_mem (h.richest k).1 k))
  rw [length_afterBy] at hle hlt
  rw [h.holders_eq, h.size_eq, Dynamics.holders]
  omega

/-- **A uniform state is at most as many steps away as the potential says.** -/
theorem exists_uniform (h : c.IsRun nextValue counts) (hstart : Admissible counts) (bound : Nat) :
    ∀ k : Nat, c.potential k ≤ bound →
      ∃ j ≤ bound, isUniform (after counts (k + j)) = true := by
  have hlaw := h.lawful hstart
  induction bound with
  | zero =>
      intro k hk
      -- a state that is not uniform has a potential to lose
      refine ⟨0, Nat.le_refl 0, (h.isUniform_iff k).2 ?_⟩
      by_contra hne
      have hlt := potential_succ_lt hlaw (Int.natCast_nonneg k) (h.follows k) (h.evenAt hstart k)
        hne (h.holders_least_pos k) (h.holders_least_le (k + 1))
      have := potential_nonneg hlaw (Int.natCast_nonneg (k + 1)) (h.evenAt hstart (k + 1))
      push_cast at this
      omega
  | succ bound ih =>
      intro k hk
      by_cases huniform : c.least k = c.most k
      · exact ⟨0, Nat.zero_le _, (h.isUniform_iff k).2 huniform⟩
      · have hlt := potential_succ_lt hlaw (Int.natCast_nonneg k) (h.follows k)
          (h.evenAt hstart k) huniform (h.holders_least_pos k) (h.holders_least_le (k + 1))
        obtain ⟨j, hj, hu⟩ := ih (k + 1) (by push_cast at *; omega)
        refine ⟨j + 1, Nat.succ_le_succ hj, ?_⟩
        rw [show k + (j + 1) = k + 1 + j by omega]
        exact hu

end IsRun

end Course

namespace Dynamics

/-! ### Runs with a limit -/

/-- The counts after one step more, with the first step split off. -/
theorem after_succ (counts : List Int) (k : Nat) :
    after counts (k + 1) = after (next counts) k := by
  induction k with
  | zero => rfl
  | succ k ih => exact congrArg (nextBy nextValue) ih

/-- A run that is allowed as many steps as a uniform state is away ends there at the latest. -/
theorem runFor_of_isUniform {steps : Nat} : ∀ (fuel : Nat) {counts : List Int}, steps ≤ fuel →
    isUniform (after counts steps) = true →
    ∃ states, runFor fuel counts = some states ∧ states.length ≤ steps + 1 := by
  induction steps with
  | zero =>
      intro fuel counts _ hu
      refine ⟨[counts], ?_, Nat.le_refl 1⟩
      unfold runFor
      exact if_pos hu
  | succ steps ih =>
      intro fuel counts hle hu
      obtain ⟨fuel, rfl⟩ : ∃ f, fuel = f + 1 := ⟨fuel - 1, by omega⟩
      rw [after_succ] at hu
      obtain ⟨states, hrun, hlength⟩ := ih fuel (by omega) hu
      by_cases huniform : isUniform counts = true
      · exact ⟨[counts], by rw [runFor, if_pos huniform], by simp⟩
      · refine ⟨counts :: states, ?_, by simpa using hlength⟩
        rw [runFor, if_neg huniform]
        simp [hrun]

/-- A run has at most one state more than the steps that it is allowed. -/
theorem length_runFor_le {fuel : Nat} : ∀ {counts : List Int} {states : List (List Int)},
    runFor fuel counts = some states → states.length ≤ fuel + 1 := by
  induction fuel with
  | zero =>
      intro counts states h
      unfold runFor at h
      split at h
      · cases h
        exact Nat.le_refl 1
      · cases h
  | succ fuel ih =>
      intro counts states h
      rw [runFor] at h
      split at h
      · cases h
        simp
      · obtain ⟨rest, hrest, rfl⟩ := Option.map_eq_some_iff.1 h
        simpa using ih hrest

theorem validateCount_int {n : Int} (h : 0 ≤ n ∧ n % 2 = 0) : validateCount (.int n) = .ok n := by
  rw [validateCount, if_neg (by omega), if_neg (by omega)]

/-- Data that stands for admissible counts is not refused. -/
theorem validate_of_admissible {counts : List Int} (h : Admissible counts) :
    validate (counts.map Data.int) = .ok counts := by
  have hcounts : ∀ l : List Int, (∀ x ∈ l, 0 ≤ x ∧ x % 2 = 0) →
      (l.map Data.int).mapM validateCount = .ok l := by
    intro l hl
    induction l with
    | nil => rfl
    | cons x l ih =>
        obtain ⟨hx, hrest⟩ := List.forall_mem_cons.1 hl
        rw [List.map_cons, List.mapM_cons, validateCount_int hx, ih hrest]
        rfl
  have hne : (counts.map Data.int).isEmpty = false := by simpa using h.1
  rw [validate, hne]
  exact hcounts counts h.2

/-- From admissible counts a run is refused only if its limit is too small. -/
theorem run_of_admissible {counts : List Int} (h : Admissible counts) (maxSteps : Int) :
    run (counts.map Data.int) maxSteps =
      match runFor maxSteps.toNat counts with
      | some states => .ok states
      | none => .error (.noConvergence (.int maxSteps)) := by
  rw [run, validate_of_admissible h]
  rfl

theorem run_of_runFor {counts : List Int} (h : Admissible counts) {maxSteps : Int}
    {states : List (List Int)} (hstates : runFor maxSteps.toNat counts = some states) :
    run (counts.map Data.int) maxSteps = .ok states := by
  rw [run_of_admissible h, hstates]

/-! ### The first uniform step -/

theorem isUniform_iff_forall {counts : List Int} :
    isUniform counts = true ↔ ∀ x ∈ counts, ∀ y ∈ counts, x = y := by
  unfold isUniform
  cases hmin : counts.min? with
  | none =>
      have hnil := List.min?_eq_none_iff.1 hmin
      simp [hnil]
  | some low =>
      obtain ⟨top, hmax⟩ : ∃ top, counts.max? = some top := by
        refine Option.ne_none_iff_exists'.1 fun hnone => ?_
        rw [List.max?_eq_none_iff.1 hnone] at hmin
        cases hmin
      obtain ⟨hlow, hle⟩ := List.min?_eq_some_iff.1 hmin
      obtain ⟨htop, hge⟩ := List.max?_eq_some_iff.1 hmax
      rw [hmax, beq_iff_eq, Option.some.injEq]
      constructor
      · rintro rfl x hx y hy
        have := hle x hx
        have := hge x hx
        have := hle y hy
        have := hge y hy
        omega
      · exact fun h => h low hlow top htop

/-- What a child holds after a step comes from two counts. -/
theorem exists_of_mem_next {counts : List Int} {x : Int} (hx : x ∈ next counts) :
    ∃ own ∈ counts, ∃ neighbour ∈ counts, x = nextValue own neighbour := by
  obtain ⟨i, hi⟩ := List.mem_iff_getElem?.1 hx
  obtain ⟨own, neighbour, hown, hnb, rfl⟩ := List.getElem?_zipWith_eq_some.1 hi
  refine ⟨own, List.mem_of_getElem? hown, neighbour, ?_, rfl⟩
  have hnb := List.mem_of_getElem? hnb
  cases counts with
  | nil => cases hnb
  | cons first others => simpa [rightNeighbours, or_comm] using hnb

theorem isUniform_next {counts : List Int} (h : isUniform counts = true) :
    isUniform (next counts) = true := by
  rw [isUniform_iff_forall] at *
  intro x hx y hy
  obtain ⟨own, hown, neighbour, hnb, rfl⟩ := exists_of_mem_next hx
  obtain ⟨own', hown', neighbour', hnb', rfl⟩ := exists_of_mem_next hy
  rw [h own hown own' hown', h neighbour hnb neighbour' hnb']

theorem isUniform_after_of_le {counts : List Int} {k k2 : Nat} (hk : k ≤ k2)
    (h : isUniform (after counts k) = true) : isUniform (after counts k2) = true := by
  induction hk with
  | refl => exact h
  | step _ ih => exact isUniform_next ih

/-- A run ends at the first uniform state. -/
theorem exists_first_of_runFor {fuel : Nat} : ∀ {counts : List Int} {states : List (List Int)},
    runFor fuel counts = some states → ∃ first, states.length = first + 1 ∧
      isUniform (after counts first) = true ∧ ∀ k < first, ¬ isUniform (after counts k) = true := by
  induction fuel with
  | zero =>
      intro counts states h
      unfold runFor at h
      split at h
      · rename_i hu
        cases h
        exact ⟨0, rfl, hu, fun k hk => absurd hk (Nat.not_lt_zero k)⟩
      · cases h
  | succ fuel ih =>
      intro counts states h
      rw [runFor] at h
      split at h
      · rename_i hu
        cases h
        exact ⟨0, rfl, hu, fun k hk => absurd hk (Nat.not_lt_zero k)⟩
      · rename_i hu
        obtain ⟨rest, hrest, rfl⟩ := Option.map_eq_some_iff.1 h
        obtain ⟨first, hlength, hfirst, hbefore⟩ := ih hrest
        refine ⟨first + 1, congrArg (· + 1) hlength, after_succ counts first ▸ hfirst, ?_⟩
        intro k hk
        cases k with
        | zero => exact hu
        | succ k =>
            rw [after_succ]
            exact hbefore k (by omega)

/-- **The states from the convergence step on are the uniform ones.** -/
theorem isUniform_after_iff {counts : List Int} (h : Admissible counts) {maxSteps : Int}
    {first : Nat} (hfirst : convergenceStep (counts.map Data.int) maxSteps = .ok first) (k : Nat) :
    isUniform (after counts k) = true ↔ first ≤ k := by
  rw [convergenceStep, run_of_admissible h] at hfirst
  cases hrun : runFor maxSteps.toNat counts with
  | none =>
      rw [hrun] at hfirst
      cases hfirst
  | some states =>
      obtain ⟨last, hlength, hu, hbefore⟩ := exists_first_of_runFor hrun
      rw [hrun] at hfirst
      have hsame : states.length - 1 = first := by injection hfirst
      obtain rfl : last = first := by omega
      refine ⟨fun hk => ?_, fun hk => isUniform_after_of_le hk hu⟩
      by_contra hlt
      exact hbefore k (by omega) hk

/-! ### The bound -/

/-- The distance from the least to the greatest of given counts. -/
def spread (counts : List Int) : Int :=
  counts.max?.getD 0 - counts.min?.getD 0

/-- The steps to a uniform state are at most half the distance of the extremes for every child but
one. -/
theorem exists_uniform_within {counts : List Int} (h : Admissible counts) :
    ∃ steps : Nat, 2 * (steps : Int) ≤ (counts.length - 1) * spread counts ∧
      isUniform (after counts steps) = true := by
  obtain ⟨c, hrun⟩ := Course.exists_isRun nextValue h.1
  have hlaw := hrun.lawful h
  have heven := hrun.evenAt h 0
  have hle := Course.potential_le hlaw (Int.le_refl 0) (hrun.holders_least_le 0)
  have hnonneg := Course.potential_nonneg hlaw (Int.le_refl 0) heven
  obtain ⟨steps, hsteps, hu⟩ := hrun.exists_uniform h (c.potential 0).toNat 0
    (show c.potential 0 ≤ ((c.potential 0).toNat : Int) by omega)
  have hspread : spread counts = c.gap 0 := by
    have hmax : counts.max? = some (c.most 0) := hrun.max?_eq 0
    have hmin : counts.min? = some (c.least 0) := hrun.min?_eq 0
    rw [spread, hmax, hmin]
    rfl
  refine ⟨steps, ?_, by simpa using hu⟩
  have hgap := Course.gap_even hlaw (Int.le_refl 0) heven
  have htwice : (c.size - 1) * c.gap 0 = 2 * ((c.size - 1) * (c.gap 0 / 2)) := by
    rw [← Int.mul_assoc, Int.mul_comm 2, Int.mul_assoc]
    congr 1
    omega
  rw [hspread, ← hrun.size_eq, htwice]
  omega

/-- **There is a convergence step**: every limit that allows as many steps leads to the same one. -/
theorem exists_convergenceStep {counts : List Int} (h : Admissible counts) :
    ∃ first : Nat, ∀ maxSteps : Int, first ≤ maxSteps →
      convergenceStep (counts.map Data.int) maxSteps = .ok first := by
  obtain ⟨steps, _, hu⟩ := exists_uniform_within h
  obtain ⟨states, hrun, _⟩ := runFor_of_isUniform steps (Nat.le_refl steps) hu
  obtain ⟨first, _, hfirst, hbefore⟩ := exists_first_of_runFor hrun
  refine ⟨first, fun maxSteps hmax => ?_⟩
  obtain ⟨states', hrun', hlength'⟩ := runFor_of_isUniform maxSteps.toNat (by omega) hfirst
  obtain ⟨last, hlast, hulast, _⟩ := exists_first_of_runFor hrun'
  -- a run does not end before the first uniform state, nor after it
  have hge : first ≤ last := Nat.le_of_not_lt fun hlt => hbefore last hlt hulast
  have hstates : states'.length - 1 = first := by omega
  rw [convergenceStep, run_of_admissible h, hrun']
  exact congrArg Except.ok hstates

/-- **The process converges within half the distance of the extremes for every child but one.**  A
run that is allowed as many steps is never refused, and no run that ends takes more. -/
theorem converges_within_spread {counts : List Int} (h : Admissible counts) :
    (∃ steps : Nat, 2 * (steps : Int) ≤ (counts.length - 1) * spread counts ∧
      isUniform (after counts steps) = true) ∧
    (∀ maxSteps : Int, (counts.length - 1) * spread counts ≤ 2 * maxSteps →
      (∃ states, run (counts.map Data.int) maxSteps = .ok states) ∧
      ∃ steps : Nat, convergenceStep (counts.map Data.int) maxSteps = .ok steps) ∧
    (∀ (maxSteps : Int) (steps : Nat),
      convergenceStep (counts.map Data.int) maxSteps = .ok steps →
      2 * (steps : Int) ≤ (counts.length - 1) * spread counts) := by
  obtain ⟨steps, hsteps, hu⟩ := exists_uniform_within h
  refine ⟨⟨steps, hsteps, hu⟩, ?_, ?_⟩
  · intro maxSteps hmax
    obtain ⟨states, hrun, _⟩ :=
      runFor_of_isUniform maxSteps.toNat (by omega) hu
    have hok : run (counts.map Data.int) maxSteps = .ok states := by
      rw [run_of_admissible h, hrun]
    exact ⟨⟨states, hok⟩, states.length - 1, by rw [convergenceStep, hok]; rfl⟩
  · intro maxSteps taken htaken
    rw [convergenceStep, run_of_admissible h] at htaken
    cases hrun : runFor maxSteps.toNat counts with
    | none =>
        rw [hrun] at htaken
        cases htaken
    | some states =>
        have hlength : states.length ≤ steps + 1 := by
          by_cases hle : steps ≤ maxSteps.toNat
          · obtain ⟨states', hrun', hlength⟩ := runFor_of_isUniform _ hle hu
            rw [hrun] at hrun'
            cases hrun'
            exact hlength
          · have := length_runFor_le hrun
            omega
        rw [hrun] at htaken
        have : states.length - 1 = taken := by injection htaken
        omega

/-- The bound is met: from two candies at one of three children it takes two steps. -/
theorem converges_from_two_of_three : Admissible [2, 0, 0] ∧
    (∃ states, run ([2, 0, 0].map Data.int) 2 = .ok states) ∧
    isUniform (after [2, 0, 0] 1) = false ∧ isUniform (after [2, 0, 0] 2) = true := by
  have h : Admissible [2, 0, 0] := ⟨by decide, by decide⟩
  exact ⟨h, ((converges_within_spread h).2.1 2 (by decide)).1, by decide, by decide⟩

end Dynamics

end CandyCircle
