/-
**The symmetries of the process.**

It is of no importance where counting begins around the circle, nor whether every child holds the
same even number of candies more: a step from the changed counts is the changed step.  The first
holds because the right neighbours of a state are the state turned by one place, the second because
an even number that both neighbours hold in addition is halved twice and leaves the parity of the
half alone.  A change that neither a step nor uniformity notices carries a whole run to a run of the
same length, with the same limits.

Main definitions:

* `CandyCircle.Dynamics.Symmetry` — a change of states that the process does not notice;
* `CandyCircle.Dynamics.rotation` — counting begins at another child;
* `CandyCircle.Dynamics.raise` — every child holds the same even number of candies more.

Main results:

* `CandyCircle.Dynamics.Symmetry.runFor_act` — a symmetry carries runs to runs;
* `CandyCircle.Dynamics.run_symmetric` — **turned counts run through the turned states, and raised
  counts through the raised ones**, with the same convergence step.
-/
import CandyCircle.Proofs.Dynamics.Runs
import Mathlib.Data.List.Rotate

set_option autoImplicit false

namespace CandyCircle.Dynamics

/-- A change of states that the process does not notice. -/
structure Symmetry where
  /-- What becomes of a state. -/
  act : List Int → List Int
  /-- A step from the changed state is the changed step. -/
  next_act : ∀ counts, next (act counts) = act (next counts)
  /-- The changed state is uniform just if the state is. -/
  isUniform_act : ∀ counts, isUniform (act counts) = isUniform counts

namespace Symmetry

/-- **A symmetry carries runs to runs**, within the same number of steps. -/
theorem runFor_act (s : Symmetry) (fuel : Nat) (counts : List Int) :
    runFor fuel (s.act counts) = (runFor fuel counts).map (List.map s.act) := by
  induction fuel generalizing counts with
  | zero =>
      unfold runFor
      rw [s.isUniform_act]
      split <;> rfl
  | succ fuel ih =>
      rw [runFor, runFor, s.isUniform_act]
      split
      case isTrue => rfl
      case isFalse =>
        rw [s.next_act, ih, Option.map_map, Option.map_map]
        rfl

variable {counts : List Int}

/-- A run from changed counts goes through the changed states, and is refused for the same limits. -/
theorem run_act (s : Symmetry) (h : Admissible counts) (h' : Admissible (s.act counts))
    (maxSteps : Int) :
    run ((s.act counts).map Data.int) maxSteps =
      (run (counts.map Data.int) maxSteps).map (List.map s.act) := by
  rw [run_of_admissible h, run_of_admissible h', s.runFor_act]
  cases runFor maxSteps.toNat counts <;> rfl

/-- Changed counts converge after as many steps. -/
theorem convergenceStep_act (s : Symmetry) (h : Admissible counts) (h' : Admissible (s.act counts))
    (maxSteps : Int) :
    convergenceStep ((s.act counts).map Data.int) maxSteps =
      convergenceStep (counts.map Data.int) maxSteps := by
  rw [convergenceStep, convergenceStep, s.run_act h h']
  cases run (counts.map Data.int) maxSteps with
  | error fault => rfl
  | ok states => exact congrArg (fun n => Except.ok (n - 1)) (List.length_map s.act)

end Symmetry

/-! ### Turning the circle -/

/-- The right neighbours of a state are the state turned by one place. -/
theorem rightNeighbours_eq_rotate (counts : List Int) :
    rightNeighbours counts = counts.rotate 1 := by
  cases counts with
  | nil => rfl
  | cons first others => rw [List.rotate_cons_succ, List.rotate_zero, rightNeighbours]

theorem next_rotate (counts : List Int) (places : Nat) :
    next (counts.rotate places) = (next counts).rotate places := by
  have hlength : counts.length = (counts.rotate 1).length := (List.length_rotate counts 1).symm
  unfold next nextBy
  rw [rightNeighbours_eq_rotate, rightNeighbours_eq_rotate,
    List.zipWith_rotate_distrib _ _ _ _ hlength, List.rotate_rotate, List.rotate_rotate,
    Nat.add_comm]

theorem isUniform_rotate (counts : List Int) (places : Nat) :
    isUniform (counts.rotate places) = isUniform counts := by
  rw [Bool.eq_iff_iff, isUniform_iff_forall, isUniform_iff_forall]
  simp only [List.mem_rotate]

/-- Counting begins so many places to the right. -/
def rotation (places : Nat) : Symmetry where
  act counts := counts.rotate places
  next_act counts := next_rotate counts places
  isUniform_act counts := isUniform_rotate counts places

theorem Admissible.rotate {counts : List Int} (h : Admissible counts) (places : Nat) :
    Admissible (counts.rotate places) :=
  ⟨fun hnil => h.1 (List.rotate_eq_nil_iff.1 hnil), fun c hc => h.2 c (List.mem_rotate.1 hc)⟩

/-! ### Candies for everyone -/

/-- An even number that a child and its neighbour hold in addition is held in addition afterwards. -/
theorem nextValue_add {more : Int} (heven : more % 2 = 0) (own neighbour : Int) :
    nextValue (own + more) (neighbour + more) = nextValue own neighbour + more := by
  have hhalf : (own + more + (neighbour + more)) / 2 = (own + neighbour) / 2 + more := by omega
  have hparity : ((own + neighbour) / 2 + more) % 2 = (own + neighbour) / 2 % 2 := by omega
  unfold nextValue topUp
  rw [hhalf, hparity]
  split
  case isTrue => rfl
  case isFalse => omega

theorem next_map_add {more : Int} (heven : more % 2 = 0) (counts : List Int) :
    next (counts.map (· + more)) = (next counts).map (· + more) := by
  unfold next nextBy
  rw [rightNeighbours_eq_rotate, rightNeighbours_eq_rotate, ← List.map_rotate, List.zipWith_map,
    List.map_zipWith]
  simp only [nextValue_add heven]

theorem isUniform_map_add (counts : List Int) (more : Int) :
    isUniform (counts.map (· + more)) = isUniform counts := by
  rw [Bool.eq_iff_iff, isUniform_iff_forall, isUniform_iff_forall]
  simp only [List.forall_mem_map, Int.add_left_inj]

/-- Every child holds the same even number of candies more. -/
def raise (more : Int) (heven : more % 2 = 0) : Symmetry where
  act counts := counts.map (· + more)
  next_act counts := next_map_add heven counts
  isUniform_act counts := isUniform_map_add counts more

theorem Admissible.raise {counts : List Int} (h : Admissible counts) {more : Int}
    (heven : more % 2 = 0) (hmore : ∀ c ∈ counts, 0 ≤ c + more) :
    Admissible (counts.map (· + more)) := by
  refine ⟨fun hnil => h.1 (List.map_eq_nil_iff.1 hnil), List.forall_mem_map.2 fun c hc => ?_⟩
  have := (h.2 c hc).2
  exact ⟨hmore c hc, by omega⟩

/-! ### Runs -/

/-- **Turned counts run through the turned states, and raised counts through the raised ones.**  For
every limit both runs end, or both are refused since they do not converge within it; the convergence
step is the same. -/
theorem run_symmetric {counts : List Int} (h : Admissible counts) (maxSteps : Int) :
    (∀ places : Nat,
      run ((counts.rotate places).map Data.int) maxSteps =
        (run (counts.map Data.int) maxSteps).map (List.map (·.rotate places)) ∧
      convergenceStep ((counts.rotate places).map Data.int) maxSteps =
        convergenceStep (counts.map Data.int) maxSteps) ∧
    (∀ more : Int, more % 2 = 0 → (∀ c ∈ counts, 0 ≤ c + more) →
      run ((counts.map (· + more)).map Data.int) maxSteps =
        (run (counts.map Data.int) maxSteps).map (List.map (List.map (· + more))) ∧
      convergenceStep ((counts.map (· + more)).map Data.int) maxSteps =
        convergenceStep (counts.map Data.int) maxSteps) := by
  refine ⟨fun places => ?_, fun more heven hmore => ?_⟩
  · have h' := h.rotate places
    exact ⟨(rotation places).run_act h h' maxSteps,
      (rotation places).convergenceStep_act h h' maxSteps⟩
  · have h' := h.raise heven hmore
    exact ⟨(raise more heven).run_act h h' maxSteps,
      (raise more heven).convergenceStep_act h h' maxSteps⟩

/-- Of three children one holds two candies more than the others.  Whichever it is and whatever the
others hold, two steps lead to a uniform state, and a limit of one is too small. -/
theorem run_symmetric_two_of_three :
    Admissible [4, 2, 2] ∧
      run ([2, 2, 4].map Data.int) 2 = .ok [[2, 2, 4], [2, 4, 4], [4, 4, 4]] ∧
      run ([2, 0, 0].map Data.int) 2 = .ok [[2, 0, 0], [2, 0, 2], [2, 2, 2]] ∧
      run ([2, 0, 0].map Data.int) 1 = .error (.noConvergence (.int 1)) := by
  have h : Admissible [4, 2, 2] := ⟨by decide, by decide⟩
  have hstates : run ([4, 2, 2].map Data.int) 2 = .ok [[4, 2, 2], [4, 2, 4], [4, 4, 4]] :=
    run_of_runFor h (by decide)
  have hrefused : run ([4, 2, 2].map Data.int) 1 = .error (.noConvergence (.int 1)) := by
    rw [run_of_admissible h]
    rfl
  have hturned := ((run_symmetric h 2).1 1).1
  have hlower := ((run_symmetric h 2).2 (-2) (by decide) (by decide)).1
  have hless := ((run_symmetric h 1).2 (-2) (by decide) (by decide)).1
  rw [hstates] at hturned hlower
  rw [hrefused] at hless
  exact ⟨h, hturned, hlower, hless⟩

end CandyCircle.Dynamics
