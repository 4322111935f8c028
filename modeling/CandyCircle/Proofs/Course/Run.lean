/-
**Runs as courses.**

The run of a rule from given counts is a course: child `i + 1` holds at step `k` what stands at
place `i` of the counts after `k` steps.  Which richest and which poorest child a course names is
left open, and so is everything outside the circle, so that many courses are the run from the same
counts.

That runs obey the laws of a course depends on no rule.  The only law with an argument in it is that
fewer children hold a count that some child leaves and none enters: a law of counting about any two
lists of the same length.

Main definitions:

* `CandyCircle.Dynamics.histogramAt` — what a histogram says of a count;
* `CandyCircle.Course.HoldsAt` — what the children hold at a step;
* `CandyCircle.Course.IsRun` — a course is the run of a rule from given counts.

Main results:

* `CandyCircle.Dynamics.holders_lt_holders` — **the law of counting**;
* `CandyCircle.Course.HoldsAt.afterBy` — **a start and the dynamics determine what the children
  hold**;
* `CandyCircle.Course.exists_isRun` — every start has a course that is its run;
* `CandyCircle.Course.IsRun.lawful`, `CandyCircle.Course.IsRun.follows` — **a run obeys the laws of
  a course, and its steps follow the rule**;
* `CandyCircle.Course.IsRun.isUniform_iff` — a state is uniform when the least count is the
  greatest.
-/
import CandyCircle.Dynamics.Counts
import CandyCircle.Proofs.Course
import Mathlib.Data.List.GetD

set_option autoImplicit false

namespace CandyCircle

namespace Dynamics

/-! ### Places in a circle -/

/-- The right neighbour of the last place is the first one. -/
theorem getElem?_rightNeighbours (counts : List Int) {i : Nat} (hi : i < counts.length) :
    (rightNeighbours counts)[i]? =
      counts[if i + 1 < counts.length then i + 1 else 0]? := by
  cases counts with
  | nil => simp at hi
  | cons first others =>
      simp only [rightNeighbours, List.length_cons] at *
      rw [List.getElem?_append]
      by_cases h : i < others.length
      · rw [if_pos h, if_pos (by omega), List.getElem?_cons_succ]
      · have hi : i = others.length := by omega
        subst hi
        rw [if_neg h, if_neg (by omega)]
        simp

theorem getElem?_nextBy {rule : Int → Int → Int} {counts : List Int} {i : Nat} {own nb : Int}
    (hown : counts[i]? = some own)
    (hnb : counts[if i + 1 < counts.length then i + 1 else 0]? = some nb) :
    (nextBy rule counts)[i]? = some (rule own nb) := by
  have hi : i < counts.length := (List.getElem?_eq_some_iff.1 hown).1
  rw [← getElem?_rightNeighbours counts hi] at hnb
  exact List.getElem?_zipWith_eq_some.2 ⟨own, nb, hown, hnb, rfl⟩

@[simp] theorem length_afterBy (rule : Int → Int → Int) (counts : List Int) (k : Nat) :
    (afterBy rule counts k).length = counts.length := by
  induction k with
  | zero => rfl
  | succ k ih => simp [afterBy, ih]

/-! ### Histograms -/

/-- What a histogram says of a count; a count that it does not mention is held by nobody. -/
def histogramAt (counts : List Int) (value : Int) : Nat :=
  ((histogram counts).lookup value).getD 0

theorem lookup_map_pair (g : Int → Nat) (value : Int) (values : List Int) :
    (values.map fun v => (v, g v)).lookup value =
      if values.contains value then some (g value) else none := by
  induction values with
  | nil => rfl
  | cons v rest ih =>
      by_cases hv : value = v
      · subst hv
        simp
      · have hne : (value == v) = false := by simpa using hv
        simp [List.lookup_cons, hne, ih, hv]

/-- **A histogram says how many children hold a count.** -/
theorem histogramAt_eq_holders (counts : List Int) (value : Int) :
    histogramAt counts value = holders counts value := by
  rw [histogramAt, histogram, lookup_map_pair]
  by_cases h : value ∈ counts
  · rw [if_pos (by simpa using h)]
    rfl
  · rw [if_neg (by simpa using h), holders, List.count_eq_zero_of_not_mem h]
    rfl

/-! ### Counting -/

theorem holders_cons (first : Int) (others : List Int) (value : Int) :
    holders (first :: others) value = holders others value + if first = value then 1 else 0 := by
  simp [holders, List.count_cons]

/-- If nobody enters a value, at most as many hold it afterwards. -/
theorem holders_le_holders (value : Int) (before after : List Int)
    (hlength : before.length = after.length)
    (hstays : ∀ p ∈ before.zip after, p.2 = value → p.1 = value) :
    holders after value ≤ holders before value := by
  induction before generalizing after with
  | nil =>
      obtain rfl := List.length_eq_zero_iff.1 hlength.symm
      exact Nat.le_refl _
  | cons b before ih =>
      obtain _ | ⟨a, after⟩ := after
      · simp at hlength
      · have hrest := ih after (by simpa using hlength) fun p hp => hstays p (by simp [hp])
        have hhead : a = value → b = value := hstays (b, a) (by simp)
        rw [holders_cons, holders_cons]
        by_cases ha : a = value
        · rw [if_pos ha, if_pos (hhead ha)]
          omega
        · rw [if_neg ha]
          omega

/-- **The law of counting**: if somebody leaves a value and nobody enters it, fewer hold it
afterwards. -/
theorem holders_lt_holders (value : Int) (before after : List Int)
    (hlength : before.length = after.length)
    (hleaves : ∃ p ∈ before.zip after, p.1 = value ∧ p.2 ≠ value)
    (hstays : ∀ p ∈ before.zip after, p.2 = value → p.1 = value) :
    holders after value < holders before value := by
  induction before generalizing after with
  | nil => simp at hleaves
  | cons b before ih =>
      obtain _ | ⟨a, after⟩ := after
      · simp at hlength
      · have hlength : before.length = after.length := by simpa using hlength
        have hrest : ∀ p ∈ before.zip after, p.2 = value → p.1 = value :=
          fun p hp => hstays p (by simp [hp])
        have hhead : a = value → b = value := hstays (b, a) (by simp)
        obtain ⟨p, hp, hleft, hgone⟩ := hleaves
        rw [holders_cons, holders_cons]
        rw [List.zip_cons_cons, List.mem_cons] at hp
        rcases hp with rfl | hp
        · -- it is the one at the head who leaves
          have hle := holders_le_holders value before after hlength hrest
          rw [if_pos hleft, if_neg hgone]
          omega
        · -- somebody further on leaves
          have hlt := ih after hlength ⟨p, hp, hleft, hgone⟩ hrest
          by_cases ha : a = value
          · rw [if_pos ha, if_pos (hhead ha)]
            omega
          · rw [if_neg ha]
            omega

end Dynamics

namespace Course

open CandyCircle.Dynamics

variable {c : Course} {rule : Int → Int → Int} {counts : List Int}

/-! ### States -/

/-- The children hold at a step what stands in a list, child 1 first. -/
structure HoldsAt (c : Course) (k : Int) (state : List Int) : Prop where
  /-- There are as many children as there are counts. -/
  size_eq : c.size = state.length
  /-- Child `i + 1` holds what stands at place `i`. -/
  held_eq : ∀ i : Nat, i < state.length → state[i]? = some (c.held (i + 1) k)

theorem exists_place {n : Nat} (hsize : c.size = n) {i : Int} (hi : c.IsChild i) :
    ∃ place : Nat, place < n ∧ i = place + 1 := by
  unfold IsChild at hi
  exact ⟨(i - 1).toNat, by omega, by omega⟩

namespace HoldsAt

variable {state : List Int} {k : Int}

theorem mem (h : c.HoldsAt k state) {i : Int} (hi : c.IsChild i) : c.held i k ∈ state := by
  obtain ⟨place, hplace, rfl⟩ := exists_place h.size_eq hi
  exact List.mem_of_getElem? (h.held_eq place hplace)

/-- What the right neighbour of a child holds stands at the next place, or at the first one. -/
theorem getElem?_right (h : c.HoldsAt k state)
    (hright : ∀ i, c.IsChild i → c.right i = if i < c.size then i + 1 else 1)
    {place : Nat} (hplace : place < state.length) :
    state[if place + 1 < state.length then place + 1 else 0]? =
      some (c.held (c.right (place + 1)) k) := by
  have hsize := h.size_eq
  rw [hright _ ⟨by omega, by omega⟩]
  by_cases hlast : place + 1 < state.length
  · rw [if_pos hlast, if_pos (by omega), h.held_eq (place + 1) hlast]
    rfl
  · rw [if_neg hlast, if_neg (by omega), h.held_eq 0 (by omega)]
    rfl

/-- **A step that follows a rule** leads to the counts after a step by that rule. -/
theorem succ (h : c.HoldsAt k state)
    (hright : ∀ i, c.IsChild i → c.right i = if i < c.size then i + 1 else 1) {k2 : Int}
    (hstep : c.Follows rule k k2) : c.HoldsAt k2 (nextBy rule state) := by
  have hsize := h.size_eq
  refine ⟨by rw [length_nextBy, hsize], fun i hi => ?_⟩
  rw [length_nextBy] at hi
  rw [getElem?_nextBy (h.held_eq i hi) (h.getElem?_right hright hi),
    hstep (i + 1) ⟨by omega, by omega⟩]

/-- **A start and the dynamics of some steps determine what the children hold** up to then. -/
theorem afterBy (h : c.HoldsAt 0 counts)
    (hright : ∀ i, c.IsChild i → c.right i = if i < c.size then i + 1 else 1) {steps : Nat}
    (hsteps : ∀ k : Nat, k < steps → c.Follows rule k (k + 1)) :
    ∀ {k : Nat}, k ≤ steps → c.HoldsAt k (Dynamics.afterBy rule counts k) := by
  intro k
  induction k with
  | zero => exact fun _ => h
  | succ k ih => exact fun hk => (ih (Nat.le_of_succ_le hk)).succ hright (hsteps k hk)

end HoldsAt

/-! ### Runs -/

/-- A course is the run of a rule from given counts. -/
structure IsRun (c : Course) (rule : Int → Int → Int) (counts : List Int) : Prop where
  /-- There are as many children as there are counts. -/
  size_eq : c.size = counts.length
  /-- Child `i + 1` holds what stands at place `i`. -/
  held_eq : ∀ k i : Nat, i < counts.length →
    (afterBy rule counts k)[i]? = some (c.held (i + 1) k)
  /-- The right neighbour of the last child is the first one. -/
  right_eq : ∀ i, c.IsChild i → c.right i = if i < c.size then i + 1 else 1
  /-- The richest child is a child, and nobody holds more. -/
  richest : ∀ k : Nat, c.IsChild (c.richest k) ∧ ∀ x ∈ afterBy rule counts k, x ≤ c.most k
  /-- The poorest child is a child, and nobody holds less. -/
  poorest : ∀ k : Nat, c.IsChild (c.poorest k) ∧ ∀ x ∈ afterBy rule counts k, c.least k ≤ x
  /-- As many children hold a count as the histogram says. -/
  holders_eq_histogramAt : ∀ (n : Int) (k : Nat),
    c.holders n k = histogramAt (afterBy rule counts k) n

namespace IsRun

/-- As many children hold a count as there are places where it stands. -/
theorem holders_eq (h : c.IsRun rule counts) (n : Int) (k : Nat) :
    c.holders n k = Dynamics.holders (afterBy rule counts k) n := by
  rw [h.holders_eq_histogramAt, histogramAt_eq_holders]

theorem holdsAt (h : c.IsRun rule counts) (k : Nat) : c.HoldsAt k (afterBy rule counts k) where
  size_eq := by rw [h.size_eq, length_afterBy]
  held_eq i hi := h.held_eq k i (by rwa [length_afterBy] at hi)

theorem held_mem (h : c.IsRun rule counts) {i : Int} (hi : c.IsChild i) (k : Nat) :
    c.held i k ∈ afterBy rule counts k :=
  (h.holdsAt k).mem hi

/-- **The steps of a run follow its rule.** -/
theorem follows (h : c.IsRun rule counts) (k : Nat) : c.Follows rule k (k + 1) := by
  intro i hi
  obtain ⟨place, hplace, rfl⟩ := exists_place h.size_eq hi
  have hstate := h.holdsAt k
  have hown := h.held_eq k place hplace
  have hnb := hstate.getElem?_right h.right_eq (by rwa [length_afterBy])
  have hnext := h.held_eq (k + 1) place hplace
  rw [afterBy, getElem?_nextBy hown hnb] at hnext
  exact (Option.some.inj hnext).symm

theorem stepsBy (h : c.IsRun rule counts) : c.StepsBy rule := by
  intro k hk
  obtain ⟨n, rfl⟩ := Int.eq_ofNat_of_zero_le hk
  exact h.follows n

theorem mem_zip (h : c.IsRun rule counts) {i : Int} (hi : c.IsChild i) (k : Nat) :
    (c.held i k, c.held i (k + 1)) ∈ (afterBy rule counts k).zip (afterBy rule counts (k + 1)) := by
  obtain ⟨place, hplace, rfl⟩ := exists_place h.size_eq hi
  refine List.mem_of_getElem? (i := place) ?_
  exact List.getElem?_zip_eq_some.2 ⟨h.held_eq k place hplace, h.held_eq (k + 1) place hplace⟩

/-- What stands side by side before and after a step is held by one child. -/
theorem exists_of_mem_zip (h : c.IsRun rule counts) {k : Nat} {p : Int × Int}
    (hp : p ∈ (afterBy rule counts k).zip (afterBy rule counts (k + 1))) :
    ∃ i, c.IsChild i ∧ c.held i k = p.1 ∧ c.held i (k + 1) = p.2 := by
  obtain ⟨place, hzip⟩ := List.mem_iff_getElem?.1 hp
  obtain ⟨hbefore, hafter⟩ := List.getElem?_zip_eq_some.1 hzip
  have hlt : place < counts.length := by
    simpa using (List.getElem?_eq_some_iff.1 hbefore).1
  refine ⟨place + 1, ⟨by omega, by rw [h.size_eq]; omega⟩, ?_, ?_⟩
  · rw [h.held_eq k place hlt] at hbefore
    exact Option.some.inj hbefore
  · rw [h.held_eq (k + 1) place hlt] at hafter
    exact Option.some.inj hafter

/-- **A run obeys the laws of a course**, whatever its rule. -/
theorem lawful (h : c.IsRun rule counts) (hstart : Admissible counts) : c.Lawful := by
  have hpos : 0 < counts.length := List.length_pos_iff.2 hstart.1
  have hsize := h.size_eq
  -- the laws speak of integers that are not negative, a run of natural numbers
  have step {k : Int} (hk : 0 ≤ k) : ((k.toNat : Nat) : Int) = k := Int.toNat_of_nonneg hk
  constructor
  case size_pos => omega
  case right_eq => exact h.right_eq
  case start => exact fun i hi => hstart.2 _ (h.held_mem hi 0)
  case richest_isChild =>
    intro k hk
    have := (h.richest k.toNat).1
    rwa [step hk] at this
  case poorest_isChild =>
    intro k hk
    have := (h.poorest k.toNat).1
    rwa [step hk] at this
  case held_le_most =>
    intro k i hk hi
    have := (h.richest k.toNat).2 _ (h.held_mem hi _)
    rwa [step hk] at this
  case least_le_held =>
    intro k i hk hi
    have := (h.poorest k.toNat).2 _ (h.held_mem hi _)
    rwa [step hk] at this
  case holders_nonneg =>
    intro k n hk
    have := h.holders_eq n k.toNat
    rw [step hk] at this
    omega
  case holders_lt =>
    intro k k2 n i hk hk2 hi hbefore hafter hentry
    obtain ⟨k, rfl⟩ := Int.eq_ofNat_of_zero_le hk
    subst hk2
    -- whoever entered would be a pair of the two states that says so
    have hlt := holders_lt_holders n (afterBy rule counts k) (afterBy rule counts (k + 1))
      (by simp) ⟨_, h.mem_zip hi k, hbefore, hafter⟩ (by
        intro p hp hp2
        obtain ⟨j, hj, h1, h2⟩ := h.exists_of_mem_zip hp
        by_contra hne
        exact hentry j hj (by rw [h1]; exact hne) (by rw [h2]; exact hp2))
    have h1 := h.holders_eq n k
    have h2 := h.holders_eq n (k + 1)
    push_cast at h2
    omega

theorem min?_eq (h : c.IsRun rule counts) (k : Nat) :
    (afterBy rule counts k).min? = some (c.least k) :=
  List.min?_eq_some_iff.2 ⟨h.held_mem (h.poorest k).1 k, (h.poorest k).2⟩

theorem max?_eq (h : c.IsRun rule counts) (k : Nat) :
    (afterBy rule counts k).max? = some (c.most k) :=
  List.max?_eq_some_iff.2 ⟨h.held_mem (h.richest k).1 k, (h.richest k).2⟩

/-- **A state is uniform when the least count is the greatest.** -/
theorem isUniform_iff (h : c.IsRun rule counts) (k : Nat) :
    isUniform (afterBy rule counts k) = true ↔ c.least k = c.most k := by
  simp [isUniform, h.min?_eq, h.max?_eq]

end IsRun

/-! ### The run from a start -/

/-- The place of a value among counts, as the number of a child. -/
def childHolding (counts : List Int) (value : Int) : Int :=
  (counts.idxOf value : Int) + 1

/-- The run of a rule from given counts. -/
def ofRun (rule : Int → Int → Int) (counts : List Int) : Course where
  size := counts.length
  held i k := (afterBy rule counts k.toNat).getD (i - 1).toNat 0
  right i := if i < counts.length then i + 1 else 1
  richest k :=
    let state := afterBy rule counts k.toNat
    childHolding state (state.max?.getD 0)
  poorest k :=
    let state := afterBy rule counts k.toNat
    childHolding state (state.min?.getD 0)
  holders n k := Dynamics.holders (afterBy rule counts k.toNat) n

/-- The child that is found for a value that stands among the counts holds it. -/
theorem held_childHolding {k : Nat} {x : Int} (hx : x ∈ afterBy rule counts k) :
    (ofRun rule counts).IsChild (childHolding (afterBy rule counts k) x) ∧
      (ofRun rule counts).held (childHolding (afterBy rule counts k) x) k = x := by
  have hlt := List.idxOf_lt_length_of_mem hx
  refine ⟨⟨by unfold childHolding; omega, ?_⟩, ?_⟩
  · simp only [length_afterBy] at hlt
    simp only [childHolding, ofRun]
    omega
  · simp only [ofRun, childHolding, Int.toNat_natCast, Int.add_sub_cancel]
    rw [List.getD_eq_getElem _ _ hlt, List.getElem_idxOf]

theorem isRun_ofRun (rule : Int → Int → Int) {counts : List Int} (hne : counts ≠ []) :
    (ofRun rule counts).IsRun rule counts := by
  -- a state has as many counts as the start, so there are extremes
  have hnonempty (k : Nat) : afterBy rule counts k ≠ [] := by
    intro hnil
    have := congrArg List.length hnil
    simp [hne] at this
  constructor
  case size_eq => rfl
  case held_eq =>
    intro k i hi
    simp only [ofRun, Int.toNat_natCast, Int.add_sub_cancel]
    rw [List.getD_eq_getElem _ _ (by simpa using hi), List.getElem?_eq_getElem]
  case right_eq => exact fun i _ => rfl
  case richest =>
    intro k
    obtain ⟨top, htop⟩ := Option.ne_none_iff_exists'.1 (mt List.max?_eq_none_iff.1 (hnonempty k))
    obtain ⟨hmem, hmax⟩ := List.max?_eq_some_iff.1 htop
    have hchild := held_childHolding hmem
    have hrichest : (ofRun rule counts).richest k = childHolding (afterBy rule counts k) top := by
      simp [ofRun, htop]
    rw [most, hrichest, hchild.2]
    exact ⟨hchild.1, hmax⟩
  case poorest =>
    intro k
    obtain ⟨low, hlow⟩ := Option.ne_none_iff_exists'.1 (mt List.min?_eq_none_iff.1 (hnonempty k))
    obtain ⟨hmem, hmin⟩ := List.min?_eq_some_iff.1 hlow
    have hchild := held_childHolding hmem
    have hpoorest : (ofRun rule counts).poorest k = childHolding (afterBy rule counts k) low := by
      simp [ofRun, hlow]
    rw [least, hpoorest, hchild.2]
    exact ⟨hchild.1, hmin⟩
  case holders_eq_histogramAt => exact fun n k => by simp [ofRun, histogramAt_eq_holders]

/-- **Every start has a course that is its run.** -/
theorem exists_isRun (rule : Int → Int → Int) {counts : List Int} (hne : counts ≠ []) :
    ∃ c : Course, c.IsRun rule counts :=
  ⟨ofRun rule counts, isRun_ofRun rule hne⟩

end Course

end CandyCircle
