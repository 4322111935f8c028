/-
**Counting candies and children.**

In a step every count is halved twice, once for the child itself and once for its left neighbour, so
that the halves together are as many candies as before.  Counts are even, so nothing is lost in
halving; what a step adds is one candy for each child whose half is odd.  Totals therefore never
fall along a run, and since no count rises above the greatest one, they are bounded.

How many children hold a value is a matter of counting alone: if some child leaves a value and none
enters it, fewer hold it afterwards, in any two lists of the same length.

Main definitions:

* `CandyCircle.Dynamics.halfAt` — half of what a child and its right neighbour hold;
* `CandyCircle.Dynamics.toppedUp` — how many children are given a candy in a step.

Main results:

* `CandyCircle.Dynamics.sum_next` — **a step adds a candy for each child that is topped up**;
* `CandyCircle.Dynamics.totals_grow` — totals never fall along a run, and are bounded;
* `CandyCircle.Dynamics.leavesClause_always` — **the clause about counts that some child leaves** is
  a law of counting.
-/
import CandyCircle.Dynamics.Unchecked
import CandyCircle.Proofs.Dynamics.Symmetry
import Mathlib.Algebra.Order.BigOperators.Group.List
import Mathlib.Algebra.Ring.Int.Defs

set_option autoImplicit false

namespace CandyCircle.Dynamics

/-! ### Halves -/

/-- Half of what the child at a place and its right neighbour hold. -/
def halfAt (counts : List Int) (i : Nat) : Int :=
  (counts.getD i 0 + counts.getD ((i + 1) % counts.length) 0) / 2

/-- How many children have an odd half, and are given a candy for that. -/
def toppedUp (counts : List Int) : Nat :=
  (List.range counts.length).countP fun i => halfAt counts i % 2 = 1

/-- A child holds its half after a step, and a candy more if the half is odd. -/
theorem nextValue_eq (own neighbour : Int) : nextValue own neighbour =
    (own + neighbour) / 2 + if (own + neighbour) / 2 % 2 = 1 then 1 else 0 := by
  unfold nextValue topUp
  split <;> split <;> omega

/-- Every child stands beside its right neighbour. -/
theorem zip_rightNeighbours (counts : List Int) :
    counts.zip (rightNeighbours counts) = (List.range counts.length).map fun i =>
      (counts.getD i 0, counts.getD ((i + 1) % counts.length) 0) := by
  refine List.ext_getElem (by simp) fun i h h' => ?_
  have hi : i < counts.length := by simpa using h'
  have hnb : (i + 1) % counts.length < counts.length := Nat.mod_lt _ (by omega)
  simp only [List.getElem_zip, rightNeighbours_eq_rotate, List.getElem_rotate, List.getElem_map,
    List.getElem_range, List.getD_eq_getElem _ _ hi, List.getD_eq_getElem _ _ hnb]

theorem getElem?_next {counts : List Int} {i : Nat} (hi : i < counts.length) :
    (next counts)[i]? = some (halfAt counts i + if halfAt counts i % 2 = 1 then 1 else 0) := by
  rw [next, nextBy, ← List.map_uncurry_zip_eq_zipWith, zip_rightNeighbours, List.map_map,
    List.getElem?_map, List.getElem?_range hi]
  exact congrArg some (nextValue_eq _ _)

theorem toppedUp_eq_countP (counts : List Int) :
    toppedUp counts =
      (counts.zip (rightNeighbours counts)).countP fun p => (p.1 + p.2) / 2 % 2 = 1 := by
  rw [zip_rightNeighbours, List.countP_map]
  rfl

/-! ### Totals -/

/-- Twice the total after a step is what all children and their neighbours hold, and two candies for
each pair whose half is odd. -/
theorem two_mul_sum_zipWith (own neighbours : List Int) (hlength : own.length = neighbours.length)
    (hown : ∀ x ∈ own, x % 2 = 0) (hnbs : ∀ x ∈ neighbours, x % 2 = 0) :
    2 * (List.zipWith nextValue own neighbours).sum = own.sum + neighbours.sum +
      2 * (own.zip neighbours).countP fun p => (p.1 + p.2) / 2 % 2 = 1 := by
  induction own generalizing neighbours with
  | nil =>
      obtain rfl := List.length_eq_zero_iff.1 hlength.symm
      rfl
  | cons x own ih =>
      obtain _ | ⟨y, neighbours⟩ := neighbours
      · simp at hlength
      · obtain ⟨hx, hown⟩ := List.forall_mem_cons.1 hown
        obtain ⟨hy, hnbs⟩ := List.forall_mem_cons.1 hnbs
        have hrest := ih neighbours (by simpa using hlength) hown hnbs
        rw [List.zipWith_cons_cons, List.zip_cons_cons, List.sum_cons, List.sum_cons, List.sum_cons,
          nextValue_eq]
        by_cases hodd : (x + y) / 2 % 2 = 1
        · rw [if_pos hodd, List.countP_cons_of_pos (by simpa using hodd)]
          push_cast
          omega
        · rw [if_neg hodd, List.countP_cons_of_neg (by simpa using hodd)]
          omega

/-- **A step adds a candy for each child that is topped up**, and takes none away. -/
theorem sum_next {counts : List Int} (heven : ∀ x ∈ counts, x % 2 = 0) :
    (next counts).sum = counts.sum + toppedUp counts := by
  have hperm : (rightNeighbours counts).Perm counts :=
    rightNeighbours_eq_rotate counts ▸ List.rotate_perm counts 1
  have htwice := two_mul_sum_zipWith counts (rightNeighbours counts)
    (length_rightNeighbours counts).symm heven fun x hx => heven x (hperm.mem_iff.1 hx)
  rw [hperm.sum_eq, ← toppedUp_eq_countP] at htwice
  unfold next nextBy
  omega

/-- No child holds more after a step than the greatest count, if that is even. -/
theorem le_of_mem_next {counts : List Int} {top : Int} (heven : top % 2 = 0)
    (htop : ∀ x ∈ counts, x ≤ top) : ∀ x ∈ next counts, x ≤ top := by
  intro x hx
  obtain ⟨own, hown, neighbour, hnb, rfl⟩ := exists_of_mem_next hx
  exact nextValue_le (htop own hown) (htop neighbour hnb) heven

variable {counts : List Int}

theorem sum_after_succ (h : Admissible counts) (k : Nat) :
    (after counts (k + 1)).sum = (after counts k).sum + toppedUp (after counts k) :=
  sum_next fun x hx => ((h.after k).2 x hx).2

/-- Totals never fall. -/
theorem sum_after_le (h : Admissible counts) {k k2 : Nat} (hk : k ≤ k2) :
    (after counts k).sum ≤ (after counts k2).sum := by
  induction hk with
  | refl => exact Int.le_refl _
  | @step k2 _ ih =>
      have hsucc : (after counts k2.succ).sum = _ := sum_after_succ h k2
      omega

/-- The total is never more than if every child held the greatest count of the start. -/
theorem sum_after_le_mul (h : Admissible counts) {top : Int} (hmax : counts.max? = some top)
    (k : Nat) : (after counts k).sum ≤ counts.length * top := by
  obtain ⟨hmem, htop⟩ := List.max?_eq_some_iff.1 hmax
  have hle : ∀ x ∈ after counts k, x ≤ top := by
    induction k with
    | zero => exact htop
    | succ k ih => exact le_of_mem_next (h.2 top hmem).2 ih
  have hsum := List.sum_le_card_nsmul _ top hle
  rwa [after, length_afterBy, Int.nsmul_eq_mul] at hsum

/-- **Totals never fall along a run, and are bounded.**  A step adds a candy for each child whose
half is odd, and takes none away; no total is more than if every child held the greatest count. -/
theorem totals_grow (h : Admissible counts) :
    (step (counts.map Data.int) = .ok (next counts) ∧
      (∀ i < counts.length, (next counts)[i]? =
        some (halfAt counts i + if halfAt counts i % 2 = 1 then 1 else 0)) ∧
      (next counts).sum = counts.sum + toppedUp counts) ∧
    ∃ top, counts.max? = some top ∧
      (∃ maxSteps states, run (counts.map Data.int) maxSteps = .ok states) ∧
      ∀ maxSteps states, run (counts.map Data.int) maxSteps = .ok states →
        (states.map List.sum).Pairwise (· ≤ ·) ∧ ∀ state ∈ states, state.sum ≤ counts.length * top := by
  obtain ⟨top, hmax⟩ := Option.ne_none_iff_exists'.1 (mt List.max?_eq_none_iff.1 h.1)
  obtain ⟨steps, hsteps⟩ := exists_firstUniform h
  refine ⟨⟨step_of_admissible h, fun i hi => getElem?_next hi, sum_after_succ h 0⟩, top, hmax,
    ⟨steps, statesUpTo counts steps, ?_⟩, fun maxSteps states hstates => ?_⟩
  · rw [run_of_firstUniform h hsteps, if_pos (.inr (Int.le_refl _))]
  · obtain rfl := eq_statesUpTo_of_run h hsteps hstates
    refine ⟨?_, fun state hstate => ?_⟩
    · rw [statesUpTo, List.map_map, List.pairwise_map]
      exact List.pairwise_lt_range.imp fun hlt => sum_after_le h (Nat.le_of_lt hlt)
    · obtain ⟨k, -, rfl⟩ := List.mem_map.1 hstate
      exact sum_after_le_mul h hmax k

/-- Of three children the first holds six candies.  In the first step it and its left neighbour are
topped up, in the second nobody is, and in the third and the fourth two children each are. -/
theorem totals_grow_six_of_three :
    Admissible [6, 0, 0] ∧ toppedUp [6, 0, 0] = 2 ∧ (next [6, 0, 0]).sum = [6, 0, 0].sum + 2 ∧
      toppedUp (next [6, 0, 0]) = 0 ∧
      ∃ states, run ([6, 0, 0].map Data.int) 4 = .ok states ∧
        states.map List.sum = [6, 8, 8, 10, 12] ∧ (states.map List.sum).Pairwise (· ≤ ·) ∧
        ∀ state ∈ states, state.sum ≤ 3 * 6 := by
  have h : Admissible [6, 0, 0] := ⟨by decide, by decide⟩
  have hup : toppedUp [6, 0, 0] = 2 := by decide
  have hrun : run ([6, 0, 0].map Data.int) 4 =
      .ok [[6, 0, 0], [4, 0, 4], [2, 2, 4], [2, 4, 4], [4, 4, 4]] :=
    run_of_runFor h (by decide)
  obtain ⟨⟨-, -, hsum⟩, top, hmax, -, htotals⟩ := totals_grow h
  obtain rfl : 6 = top := Option.some.inj hmax
  rw [hup] at hsum
  exact ⟨h, hup, hsum, by decide, _, hrun, by decide, htotals 4 _ hrun⟩

/-! ### Leaving a value -/

variable {before later : List Int} {value : Int}

theorem someLeaves_iff : someLeaves before later value = true ↔
    ∃ p ∈ before.zip later, p.1 = value ∧ p.2 ≠ value := by
  simp [someLeaves]

theorem someEnters_iff : someEnters before later value = true ↔
    ∃ p ∈ before.zip later, p.1 ≠ value ∧ p.2 = value := by
  simp [someEnters]

/-- The clause about counts that some child leaves holds of any two lists of the same length. -/
theorem leavesClause_of_length (hlength : before.length = later.length) :
    leavesClause before later value = true := by
  by_cases hleaves : someLeaves before later value = true
  · by_cases henters : someEnters before later value = true
    · simp [leavesClause, henters]
    · have hstays : ∀ p ∈ before.zip later, p.2 = value → p.1 = value := by
        intro p hp heq
        by_contra hne
        exact henters (someEnters_iff.2 ⟨p, hp, hne, heq⟩)
      have hlt := holders_lt_holders value before later hlength (someLeaves_iff.1 hleaves) hstays
      simp [leavesClause, hlt]
  · simp [leavesClause, hleaves]

/-- If a value is left at some place and entered at none, it stands at fewer places afterwards. -/
theorem holders_lt_of_places (hlength : before.length = later.length)
    (hleaves : ∃ i : Nat, before[i]? = some value ∧ later[i]? ≠ some value)
    (hstays : ∀ i : Nat, later[i]? = some value → before[i]? = some value) :
    holders later value < holders before value := by
  obtain ⟨i, hbefore, hlater⟩ := hleaves
  have hi : i < later.length := hlength ▸ (List.getElem?_eq_some_iff.1 hbefore).1
  rw [List.getElem?_eq_getElem hi] at hlater
  refine holders_lt_holders value before later hlength ⟨(value, later[i]), ?_, rfl, ?_⟩ ?_
  · exact List.mem_of_getElem? (List.getElem?_zip_eq_some.2 ⟨hbefore, List.getElem?_eq_getElem hi⟩)
  · exact fun heq => hlater (congrArg some heq)
  · intro p hp heq
    obtain ⟨j, hj⟩ := List.mem_iff_getElem?.1 hp
    obtain ⟨hj1, hj2⟩ := List.getElem?_zip_eq_some.1 hj
    rw [heq] at hj2
    exact Option.some.inj (hj1.symm.trans (hstays j hj2))

/-- **The clause about counts that some child leaves** is a law of counting: it holds of any two
lists of the same length, whether or not one is the step from the other.  If a value is left at some
place and entered at none, a histogram says that it stands at fewer places afterwards. -/
theorem leavesClause_always (hlength : before.length = later.length) (value : Int) :
    leavesClause before later value = true ∧
      Unchecked.leavesClause (.list (before.map Data.int)) (.list (later.map Data.int))
        (.int value) = .ok true ∧
      ((∃ i : Nat, before[i]? = some value ∧ later[i]? ≠ some value) →
        (∀ i : Nat, later[i]? = some value → before[i]? = some value) →
        histogramAt later value < histogramAt before value) := by
  have hclause : leavesClause before later value = true := leavesClause_of_length hlength
  refine ⟨hclause, ?_, fun hleaves hstays => ?_⟩
  · simp only [Unchecked.leavesClause, Data.items?, Option.bind_some, Unchecked.whole?_map_int,
      hclause]
  · rw [histogramAt_eq_holders, histogramAt_eq_holders]
    exact holders_lt_of_places hlength hleaves hstays

/-- No step leads from the one list to the other: three hold seven before, of whom one keeps it, and
negative numbers take the places of the others. -/
theorem leavesClause_always_of_seven :
    [7, -1, 7, 7].length = [7, -1, -1, -3].length ∧
      leavesClause [7, -1, 7, 7] [7, -1, -1, -3] 7 = true ∧
      histogramAt [7, -1, -1, -3] 7 < histogramAt [7, -1, 7, 7] 7 := by
  have hlength : [7, -1, 7, 7].length = [7, -1, -1, -3].length := rfl
  obtain ⟨hclause, -, hfewer⟩ := leavesClause_always hlength 7
  refine ⟨hlength, hclause, hfewer ⟨2, rfl, by decide⟩ fun i hi => ?_⟩
  -- only the first place holds seven afterwards
  rcases i with _ | _ | _ | _ | i
  · rfl
  all_goals simp at hi

/-- Of lists of different lengths the clause may be false: the places that are missing count. -/
example : leavesClause [0] [2, 0, 0] 0 = false := by decide

end CandyCircle.Dynamics
