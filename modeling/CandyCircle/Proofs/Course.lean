/-
**Courses of the process.**

A course says what the symbols of the process stand for: how many children there are, what each of
them holds at each step, who sits to the right of whom, a richest and a poorest child at each step,
and how many children hold a count.  Children are numbered from 1, steps from 0, and everything is
an integer, so that a course has values outside the circle and before the start too; nothing is
said about them.

The laws of a course say only what is known without the dynamics.  What one step does is a
condition of its own, and the facts about a step here are drawn from the laws and that condition.

Main definitions:

* `CandyCircle.Course` — courses;
* `CandyCircle.Course.Lawful` — the laws that every course of a circle obeys;
* `CandyCircle.Course.Follows` — the dynamics of one step, by any rule;
* `CandyCircle.Course.EvenAt` — every child holds an even number that is not negative;
* `CandyCircle.Course.StepsBy` — all steps follow a rule;
* `CandyCircle.Course.Converges` — some step is uniform.

Main results:

* `CandyCircle.Course.evenAt_succ` — a step keeps counts even;
* `CandyCircle.Course.most_le`, `CandyCircle.Course.least_le` — the greatest count does not rise,
  and the least does not fall;
* `CandyCircle.Course.above_least`, `CandyCircle.Course.gains` — whoever is above the least count
  stays above it, and whoever is poorer than the right neighbour gains;
* `CandyCircle.Course.exists_boundary` — **some child with the least count sits left of a richer
  one**, unless all children hold the least count;
* `CandyCircle.Course.holders_least_lt` — then fewer children hold that count one step later;
* `CandyCircle.Course.converges` — **a course of the process converges**.
-/
import CandyCircle.Dynamics
import Mathlib.Data.Int.Init
import Mathlib.Tactic.ByContra

set_option autoImplicit false

namespace CandyCircle

/-! ### The rule of the process -/

namespace Dynamics

/-- What a child holds next is at most any even number that its count and its neighbour's are at
most. -/
theorem nextValue_le {own neighbour top : Int} (hown : own ≤ top) (hnb : neighbour ≤ top)
    (heven : top % 2 = 0) : nextValue own neighbour ≤ top := by
  unfold nextValue topUp
  split <;> omega

/-- What a child holds next is at least any number that its count and its neighbour's are at
least. -/
theorem le_nextValue {own neighbour low : Int} (hown : low ≤ own) (hnb : low ≤ neighbour) :
    low ≤ nextValue own neighbour := by
  unfold nextValue topUp
  split <;> omega

/-- A child above an even number that its neighbour is at least stays above it. -/
theorem lt_nextValue {own neighbour low : Int} (hown : low < own) (hnb : low ≤ neighbour)
    (heven : own % 2 = 0) (hlow : low % 2 = 0) : low < nextValue own neighbour := by
  unfold nextValue topUp
  split <;> omega

/-- A child that is poorer than its neighbour gains. -/
theorem self_lt_nextValue {own neighbour : Int} (h : own < neighbour) (hown : own % 2 = 0)
    (hnb : neighbour % 2 = 0) : own < nextValue own neighbour := by
  unfold nextValue topUp
  split <;> omega

end Dynamics

/-! ### Courses and their laws -/

/-- What the symbols of the process stand for. -/
structure Course where
  /-- The number of children. -/
  size : Int
  /-- What a child holds at a step. -/
  held : Int → Int → Int
  /-- The right neighbour of a child. -/
  right : Int → Int
  /-- A child that holds the most at a step. -/
  richest : Int → Int
  /-- A child that holds the least at a step. -/
  poorest : Int → Int
  /-- The number of children that hold a count at a step. -/
  holders : Int → Int → Int

namespace Course

variable (c : Course)

/-- A number is a child's. -/
def IsChild (i : Int) : Prop :=
  1 ≤ i ∧ i ≤ c.size

/-- The greatest count at a step. -/
def most (k : Int) : Int :=
  c.held (c.richest k) k

/-- The least count at a step. -/
def least (k : Int) : Int :=
  c.held (c.poorest k) k

/-- The distance from the least to the greatest count at a step. -/
def gap (k : Int) : Int :=
  c.most k - c.least k

/-- No child that does not hold `n` at step `k` holds it at step `k2`. -/
def NoEntry (n k k2 : Int) : Prop :=
  ∀ j, c.IsChild j → c.held j k ≠ n → c.held j k2 ≠ n

/-- What is known of a course without its dynamics. -/
structure Lawful : Prop where
  /-- There is a child. -/
  size_pos : 1 ≤ c.size
  /-- The right neighbour of the last child is the first one. -/
  right_eq : ∀ i, c.IsChild i → c.right i = if i < c.size then i + 1 else 1
  /-- At the start every child holds an even number that is not negative. -/
  start : ∀ i, c.IsChild i → 0 ≤ c.held i 0 ∧ c.held i 0 % 2 = 0
  /-- The child that holds the most is a child. -/
  richest_isChild : ∀ k, 0 ≤ k → c.IsChild (c.richest k)
  /-- The child that holds the least is a child. -/
  poorest_isChild : ∀ k, 0 ≤ k → c.IsChild (c.poorest k)
  /-- No child holds more than the greatest count. -/
  held_le_most : ∀ k i, 0 ≤ k → c.IsChild i → c.held i k ≤ c.most k
  /-- No child holds less than the least count. -/
  least_le_held : ∀ k i, 0 ≤ k → c.IsChild i → c.least k ≤ c.held i k
  /-- A number of children is not negative. -/
  holders_nonneg : ∀ k n, 0 ≤ k → 0 ≤ c.holders n k
  /-- Fewer children hold a count that some child leaves and none enters. -/
  holders_lt : ∀ k k2 n i, 0 ≤ k → k2 = k + 1 → c.IsChild i → c.held i k = n → c.held i k2 ≠ n →
    c.NoEntry n k k2 → c.holders n k2 < c.holders n k

/-- What every child holds at step `k2` follows by a rule from step `k`. -/
def Follows (rule : Int → Int → Int) (k k2 : Int) : Prop :=
  ∀ i, c.IsChild i → c.held i k2 = rule (c.held i k) (c.held (c.right i) k)

/-- At a step every child holds an even number that is not negative. -/
def EvenAt (k : Int) : Prop :=
  ∀ i, c.IsChild i → 0 ≤ c.held i k ∧ c.held i k % 2 = 0

variable {c}

/-! ### Neighbours -/

/-- The right neighbour of a child is a child. -/
theorem Lawful.right_isChild (h : c.Lawful) {i : Int} (hi : c.IsChild i) :
    c.IsChild (c.right i) := by
  rw [h.right_eq i hi]
  have hsize := h.size_pos
  unfold IsChild at *
  split <;> omega

/-! ### One step -/

/-- **A step keeps counts even.** -/
theorem evenAt_succ (h : c.Lawful) {k k2 : Int} (hstep : c.Follows Dynamics.nextValue k k2)
    (heven : c.EvenAt k) : c.EvenAt k2 := by
  intro i hi
  have hown := heven i hi
  have hnb := heven _ (h.right_isChild hi)
  rw [hstep i hi]
  exact ⟨Dynamics.le_nextValue hown.1 hnb.1, Dynamics.nextValue_even _ _⟩

/-- **The greatest count does not rise.** -/
theorem most_le (h : c.Lawful) {k k2 : Int} (hk : 0 ≤ k) (hk2 : 0 ≤ k2)
    (hstep : c.Follows Dynamics.nextValue k k2) (heven : c.EvenAt k) : c.most k2 ≤ c.most k := by
  have hj := h.richest_isChild k2 hk2
  have htop := heven _ (h.richest_isChild k hk)
  rw [most, hstep _ hj]
  exact Dynamics.nextValue_le (h.held_le_most k _ hk hj)
    (h.held_le_most k _ hk (h.right_isChild hj)) htop.2

/-- **The least count does not fall.** -/
theorem least_le (h : c.Lawful) {k k2 : Int} (hk : 0 ≤ k) (hk2 : 0 ≤ k2)
    (hstep : c.Follows Dynamics.nextValue k k2) : c.least k ≤ c.least k2 := by
  have hj := h.poorest_isChild k2 hk2
  change c.least k ≤ c.held (c.poorest k2) k2
  rw [hstep _ hj]
  exact Dynamics.le_nextValue (h.least_le_held k _ hk hj)
    (h.least_le_held k _ hk (h.right_isChild hj))

/-- A child above the least count is above it one step later too. -/
theorem above_least (h : c.Lawful) {k k2 i : Int} (hk : 0 ≤ k)
    (hstep : c.Follows Dynamics.nextValue k k2) (heven : c.EvenAt k) (hi : c.IsChild i)
    (habove : c.least k < c.held i k) : c.least k < c.held i k2 := by
  have hlow := heven _ (h.poorest_isChild k hk)
  rw [hstep i hi]
  exact Dynamics.lt_nextValue habove (h.least_le_held k _ hk (h.right_isChild hi))
    (heven i hi).2 hlow.2

/-- A child that is poorer than its right neighbour gains. -/
theorem gains (h : c.Lawful) {k k2 i : Int} (hstep : c.Follows Dynamics.nextValue k k2)
    (heven : c.EvenAt k) (hi : c.IsChild i) (hpoorer : c.held i k < c.held (c.right i) k) :
    c.held i k < c.held i k2 := by
  rw [hstep i hi]
  exact Dynamics.self_lt_nextValue hpoorer (heven i hi).2 (heven _ (h.right_isChild hi)).2

/-- The greatest count is at least the least one. -/
theorem gap_nonneg (h : c.Lawful) {k : Int} (hk : 0 ≤ k) : 0 ≤ c.gap k := by
  have := h.held_le_most k _ hk (h.poorest_isChild k hk)
  unfold gap least
  omega

/-! ### A child left of a richer one -/

/-- If the least count spreads from every child that holds it to the right neighbour, it spreads
from any such child up to the last one. -/
theorem least_spreads (h : c.Lawful) {k low : Int}
    (hspread : ∀ i, c.IsChild i → c.held i k = low → c.held (c.right i) k = low) {first : Int}
    (hfirst : 1 ≤ first) (hlow : c.held first k = low) {x : Int} (hx : first ≤ x)
    (hsize : x ≤ c.size) : c.held x k = low := by
  induction x, hx using Int.leInduction with
  | base => exact hlow
  | succ x hx ih =>
      -- before the last child the right neighbour is the next number
      have hchild : c.IsChild x := ⟨by omega, by omega⟩
      have hright : c.right x = x + 1 := by
        rw [h.right_eq x hchild, if_pos (by omega)]
      rw [← hright]
      exact hspread x hchild (ih (by omega))

/-- **Some child with the least count sits left of a richer one**, unless all children hold the
least count. -/
theorem exists_boundary (h : c.Lawful) {k j : Int} (hk : 0 ≤ k) (hj : c.IsChild j)
    (habove : c.least k < c.held j k) :
    ∃ b, c.IsChild b ∧ c.held b k = c.least k ∧ c.least k < c.held (c.right b) k := by
  by_contra hnone
  have hspread : ∀ i, c.IsChild i → c.held i k = c.least k →
      c.held (c.right i) k = c.least k := by
    intro i hi hlow
    have hle := h.least_le_held k _ hk (h.right_isChild hi)
    by_contra hne
    exact hnone ⟨i, hi, hlow, by omega⟩
  have hpoorest := h.poorest_isChild k hk
  have hsize := h.size_pos
  -- from the poorest child up to the last one, then over the seam, and once more from the first
  have hlast : c.held c.size k = c.least k :=
    least_spreads h hspread hpoorest.1 rfl hpoorest.2 (Int.le_refl _)
  have hone : c.held 1 k = c.least k := by
    have hright : c.right c.size = 1 := by
      rw [h.right_eq _ ⟨hsize, (Int.le_refl _)⟩, if_neg (by omega)]
    rw [← hright]
    exact hspread _ ⟨hsize, (Int.le_refl _)⟩ hlast
  have hall := least_spreads h hspread (Int.le_refl _) hone hj.1 hj.2
  omega

/-- If children above the least count stay above it, and whoever is poorer than the right neighbour
gains, fewer children hold the least count one step later, unless all children hold it. -/
theorem holders_least_lt_of (h : c.Lawful) {k k2 j : Int} (hk : 0 ≤ k) (hk2 : k2 = k + 1)
    (hstays : ∀ i, c.IsChild i → c.least k < c.held i k → c.least k < c.held i k2)
    (hgains : ∀ i, c.IsChild i → c.held i k < c.held (c.right i) k → c.held i k < c.held i k2)
    (hj : c.IsChild j) (habove : c.least k < c.held j k) :
    c.holders (c.least k) k2 < c.holders (c.least k) k := by
  obtain ⟨b, hb, hlow, hricher⟩ := exists_boundary h hk hj habove
  have hgains := hgains b hb (by omega)
  -- the child left of a richer one leaves the least count, and nobody enters it
  refine h.holders_lt k k2 _ b hk hk2 hb hlow (by omega) ?_
  intro i hi hne
  have hle := h.least_le_held k i hk hi
  have := hstays i hi (by omega)
  omega

/-- **Fewer children hold the least count one step later**, unless all children hold it. -/
theorem holders_least_lt (h : c.Lawful) {k k2 j : Int} (hk : 0 ≤ k) (hk2 : k2 = k + 1)
    (hstep : c.Follows Dynamics.nextValue k k2) (heven : c.EvenAt k) (hj : c.IsChild j)
    (habove : c.least k < c.held j k) : c.holders (c.least k) k2 < c.holders (c.least k) k :=
  holders_least_lt_of h hk hk2 (fun _ hi => above_least h hk hstep heven hi)
    (fun _ hi => gains h hstep heven hi) hj habove

/-! ### Convergence -/

/-- Some step of a course is uniform. -/
def Converges (c : Course) : Prop :=
  ∃ k, 0 ≤ k ∧ c.least k = c.most k

/-- All steps of a course follow a rule. -/
def StepsBy (c : Course) (rule : Int → Int → Int) : Prop :=
  ∀ k, 0 ≤ k → c.Follows rule k (k + 1)

/-- At a uniform step every child holds the least count. -/
theorem held_eq_least (h : c.Lawful) {k i : Int} (hk : 0 ≤ k) (hi : c.IsChild i)
    (huniform : c.least k = c.most k) : c.held i k = c.least k := by
  have hlow := h.least_le_held k i hk hi
  have htop := h.held_le_most k i hk hi
  omega

/-- **Induction over pairs of numbers that are not negative**, ordered lexicographically. -/
theorem pair_induction {P : Int → Int → Prop}
    (h : ∀ w1 w2, 0 ≤ w1 → 0 ≤ w2 →
      (∀ u1 u2, 0 ≤ u1 → 0 ≤ u2 → u1 < w1 ∨ u1 = w1 ∧ u2 < w2 → P u1 u2) → P w1 w2)
    {w1 w2 : Int} (h1 : 0 ≤ w1) (h2 : 0 ≤ w2) : P w1 w2 := by
  obtain ⟨a, rfl⟩ := Int.eq_ofNat_of_zero_le h1
  obtain ⟨b, rfl⟩ := Int.eq_ofNat_of_zero_le h2
  -- the outer induction is on the first number, the inner one on the second
  induction a using Nat.strongRecOn generalizing b with
  | ind a iha =>
      induction b using Nat.strongRecOn with
      | ind b ihb =>
          refine h a b h1 h2 fun u1 u2 hu1 hu2 hlt => ?_
          obtain ⟨a', rfl⟩ := Int.eq_ofNat_of_zero_le hu1
          obtain ⟨b', rfl⟩ := Int.eq_ofNat_of_zero_le hu2
          rcases hlt with hlt | ⟨heq, hlt⟩
          · exact iha a' (by omega) hu1 b' hu2
          · rw [heq]
            exact ihb b' (by omega) hu2

/-- At every step of a course of the process counts are even. -/
theorem evenAt (h : c.Lawful) (hsteps : c.StepsBy Dynamics.nextValue) {k : Int} (hk : 0 ≤ k) :
    c.EvenAt k := by
  induction k, hk using Int.leInduction with
  | base => exact h.start
  | succ k hk ih => exact evenAt_succ h (hsteps k hk) ih

/-- If the greatest count does not rise, the least one does not fall, and fewer children hold it one
step later, the pair of variants decreases lexicographically. -/
theorem variant_lt_of {k k2 : Int} (hmost : c.most k2 ≤ c.most k) (hleast : c.least k ≤ c.least k2)
    (hfewer : c.holders (c.least k) k2 < c.holders (c.least k) k) :
    c.gap k2 < c.gap k ∨
      c.gap k2 = c.gap k ∧ c.holders (c.least k2) k2 < c.holders (c.least k) k := by
  unfold gap
  -- if the least count rises the distance shrinks, and otherwise the number of holders does
  by_cases hsame : c.least k2 = c.least k
  · rw [hsame]
    omega
  · omega

/-- Unless some child is above the least count, a step is uniform. -/
theorem exists_above (h : c.Lawful) {k : Int} (hk : 0 ≤ k) (hne : c.least k ≠ c.most k) :
    ∃ j, c.IsChild j ∧ c.least k < c.held j k := by
  have hle := h.least_le_held k _ hk (h.richest_isChild k hk)
  refine ⟨c.richest k, h.richest_isChild k hk, ?_⟩
  unfold most at hne
  omega

/-- A course converges if the pair of variants decreases from every step at which some child is
above the least count. -/
theorem converges_of_descent (h : c.Lawful)
    (hdescent : ∀ k j, 0 ≤ k → c.IsChild j → c.least k < c.held j k →
      c.gap (k + 1) < c.gap k ∨ c.gap (k + 1) = c.gap k ∧
        c.holders (c.least (k + 1)) (k + 1) < c.holders (c.least k) k) : c.Converges := by
  by_contra hnever
  -- no step has any pair of variants
  have hnone : ∀ w1 w2, 0 ≤ w1 → 0 ≤ w2 → ∀ k, 0 ≤ k → c.gap k = w1 →
      c.holders (c.least k) k ≠ w2 := by
    intro w1 w2 h1 h2
    refine pair_induction (P := fun w1 w2 => ∀ k, 0 ≤ k → c.gap k = w1 →
      c.holders (c.least k) k ≠ w2) (fun w1 w2 _ _ ih k hk hgap hholders => ?_) h1 h2
    obtain ⟨j, hj, habove⟩ := exists_above h hk fun heq => hnever ⟨k, hk, heq⟩
    have hlt := hdescent k j hk hj habove
    rw [hgap, hholders] at hlt
    exact ih _ _ (gap_nonneg h (by omega)) (h.holders_nonneg _ _ (by omega)) hlt (k + 1) (by omega)
      rfl rfl
  exact hnone _ _ (gap_nonneg h (Int.le_refl 0)) (h.holders_nonneg 0 _ (Int.le_refl 0)) 0
    (Int.le_refl 0) rfl rfl

/-- **A course of the process converges.** -/
theorem converges (h : c.Lawful) (hsteps : c.StepsBy Dynamics.nextValue) : c.Converges := by
  refine converges_of_descent h fun k j hk hj habove => ?_
  have heven := evenAt h hsteps hk
  exact variant_lt_of (most_le h hk (by omega) (hsteps k hk) heven)
    (least_le h hk (by omega) (hsteps k hk))
    (holders_least_lt h hk rfl (hsteps k hk) heven hj habove)

end Course

end CandyCircle
