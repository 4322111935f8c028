/-
**A step brings the extremes nearer, or has fewer children at the least count.**

In a step from a state that is not uniform the least count does not fall and the greatest does not
rise.  Whoever holds more than the least count goes on holding more, and whoever is poorer than the
right neighbour gains.  Around the circle some child with the least count sits left of a richer one,
so fewer children hold that count afterwards.  If the least count itself rises, more children may
hold the new one, but then the distance of the extremes has shrunk: the pair of that distance and
the number of children at the least count decreases lexicographically.

Main definitions:

* `CandyCircle.Dynamics.Nearer` — **what a step does** to a state that is not uniform.

Main results:

* `CandyCircle.Course.IsRun.nearer` — the steps of a run do so;
* `CandyCircle.Dynamics.next_nearer` — **a step from admissible counts** does so, and is not
  refused.
-/
import CandyCircle.Proofs.Dynamics.Runs

set_option autoImplicit false

namespace CandyCircle

namespace Dynamics

/-- **What a step does** to a state that is not uniform, if the least and the greatest count are
`low` and `top` before and `low'` and `top'` afterwards. -/
structure Nearer (counts later : List Int) (low top low' top' : Int) : Prop where
  low_le : low ≤ low'
  le_top : top' ≤ top
  /-- A child above the least count stays above it. -/
  above : ∀ (i : Nat) own, counts[i]? = some own → low < own →
    ∃ own', later[i]? = some own' ∧ low < own'
  /-- A child that is poorer than its right neighbour gains. -/
  gains : ∀ (i : Nat) own neighbour, counts[i]? = some own →
    counts[(i + 1) % counts.length]? = some neighbour → own < neighbour →
    ∃ own', later[i]? = some own' ∧ own < own'
  /-- Fewer children hold the least count. -/
  fewer : histogramAt later low < histogramAt counts low
  /-- The distance of the extremes and the number of children at the least count decrease. -/
  variant : Prod.Lex (· < ·) (· < ·) (top' - low', histogramAt later low')
    (top - low, histogramAt counts low)

theorem succ_mod_eq {i n : Nat} (hi : i < n) : (i + 1) % n = if i + 1 < n then i + 1 else 0 := by
  split
  case isTrue h => exact Nat.mod_eq_of_lt h
  case isFalse h =>
    have hlast : i + 1 = n := by omega
    rw [hlast, Nat.mod_self]

end Dynamics

namespace Course

open CandyCircle.Dynamics

variable {c : Course} {counts : List Int}

/-- What stands at a place of a state is held by a child, and what that child holds at another step
stands at the same place. -/
theorem HoldsAt.exists_child {state later : List Int} {k k2 : Int} (h : c.HoldsAt k state)
    (h2 : c.HoldsAt k2 later) {i : Nat} {x : Int} (hx : state[i]? = some x) :
    c.IsChild (i + 1) ∧ c.held (i + 1) k = x ∧ later[i]? = some (c.held (i + 1) k2) := by
  have hi := (List.getElem?_eq_some_iff.1 hx).1
  have hsize := h.size_eq
  have hsize2 := h2.size_eq
  rw [h.held_eq i hi] at hx
  exact ⟨⟨by omega, by omega⟩, Option.some.inj hx, h2.held_eq i (by omega)⟩

/-- **The steps of a run** from states that are not uniform. -/
theorem IsRun.nearer (h : c.IsRun nextValue counts) (hstart : Admissible counts) (k : Nat)
    (hne : isUniform (after counts k) = false) :
    Nearer (after counts k) (next (after counts k)) (c.least k) (c.most k) (c.least (k + 1))
      (c.most (k + 1)) := by
  have hlaw := h.lawful hstart
  have hk : (0 : Int) ≤ k := Int.natCast_nonneg k
  have hstep := h.follows k
  have heven := h.evenAt hstart k
  have hbefore : c.HoldsAt k (after counts k) := h.holdsAt k
  have hlater : c.HoldsAt (k + 1) (next (after counts k)) := h.holdsAt (k + 1)
  have hholders (n : Int) : c.holders n k = histogramAt (after counts k) n :=
    h.holders_eq_histogramAt n k
  have hholders' (n : Int) : c.holders n (k + 1) = histogramAt (next (after counts k)) n :=
    h.holders_eq_histogramAt n (k + 1)
  -- somebody is above the least count, so somebody at the least count leaves it
  obtain ⟨j, hj, habove⟩ : ∃ j, c.IsChild j ∧ c.least k < c.held j k :=
    exists_above hlaw hk fun heq => Bool.eq_false_iff.1 hne ((h.isUniform_iff k).2 heq)
  have hmost := most_le hlaw hk (by omega) hstep heven
  have hleast := least_le hlaw hk (by omega) hstep
  have hfewer := holders_least_lt hlaw hk rfl hstep heven hj habove
  have hvariant := variant_lt_of hmost hleast hfewer
  rw [hholders, hholders'] at hfewer hvariant
  refine ⟨hleast, hmost, fun i own hown hlow => ?_, fun i own neighbour hown hnb hpoorer => ?_,
    Int.ofNat_lt.1 hfewer, ?_⟩
  · obtain ⟨hchild, rfl, hown'⟩ := hbefore.exists_child hlater hown
    exact ⟨_, hown', above_least hlaw hk hstep heven hchild hlow⟩
  · obtain ⟨hchild, rfl, hown'⟩ := hbefore.exists_child hlater hown
    have hi := (List.getElem?_eq_some_iff.1 hown).1
    rw [succ_mod_eq hi, hbefore.getElem?_right h.right_eq hi] at hnb
    rw [← Option.some.inj hnb] at hpoorer
    exact ⟨_, hown', gains hlaw hstep heven hchild hpoorer⟩
  · rcases hvariant with hgap | ⟨hgap, hlt⟩
    · exact .left _ _ hgap
    · unfold gap at hgap
      rw [hgap]
      exact .right _ (Int.ofNat_lt.1 hlt)

end Course

namespace Dynamics

/-- **A step from admissible counts that are not uniform** brings the extremes nearer, or has fewer
children at the least count. -/
theorem next_nearer {counts : List Int} (h : Admissible counts) (hne : isUniform counts = false) :
    step (counts.map Data.int) = .ok (next counts) ∧
      ∃ low top low' top', counts.min? = some low ∧ counts.max? = some top ∧
        (next counts).min? = some low' ∧ (next counts).max? = some top' ∧
        Nearer counts (next counts) low top low' top' := by
  obtain ⟨c, hrun⟩ := Course.exists_isRun nextValue h.1
  exact ⟨step_of_admissible h, c.least 0, c.most 0, c.least 1, c.most 1, hrun.min?_eq 0,
    hrun.max?_eq 0, hrun.min?_eq 1, hrun.max?_eq 1, hrun.nearer h 0 hne⟩

/-- The least count may rise, and more children hold the new one: of four children one holds nothing
before, and two hold two candies afterwards. -/
theorem next_nearer_risen :
    Admissible [0, 2, 4, 4] ∧ isUniform [0, 2, 4, 4] = false ∧
      Nearer [0, 2, 4, 4] (next [0, 2, 4, 4]) 0 4 2 4 ∧
      histogramAt [0, 2, 4, 4] 0 = 1 ∧ histogramAt (next [0, 2, 4, 4]) 2 = 2 := by
  have h : Admissible [0, 2, 4, 4] := ⟨by decide, by decide⟩
  have hne : isUniform [0, 2, 4, 4] = false := by decide
  obtain ⟨-, low, top, low', top', hlow, htop, hlow', htop', hnearer⟩ := next_nearer h hne
  cases hlow
  cases htop
  cases hlow'
  cases htop'
  simp only [histogramAt_eq_holders]
  exact ⟨h, hne, hnearer, by decide, by decide⟩

end Dynamics

end CandyCircle
