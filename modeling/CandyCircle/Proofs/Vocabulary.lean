/-
**What the vocabulary says of courses.**

An interpretation of the symbols of the process is a course.  Every notion of the vocabulary reads
as one of courses: the axioms as the laws, the dynamics of a step as the condition that the step
follows the rule.

Main definitions:

* `CandyCircle.Course.of` — the course that an interpretation describes;
* `CandyCircle.Logic.Interpretation.ofCourse` — an interpretation that describes a course;
* `CandyCircle.Vocabulary.Computes` — the terms of a rule have the values of a function.

Main results:

* `CandyCircle.Vocabulary.satisfies_axioms` — **the axioms are the laws of a course**;
* `CandyCircle.Vocabulary.satisfies_transition` — **the dynamics of a step say that it follows the
  rule**;
* `CandyCircle.Vocabulary.satisfies_initialCounts` — a concrete start fixes what the children hold.
-/
import CandyCircle.Proofs.Course
import CandyCircle.Proofs.Fact
import CandyCircle.Vocabulary

set_option autoImplicit false

namespace CandyCircle

open Logic

/-! ### Courses and interpretations -/

/-- The course that an interpretation describes. -/
def Course.of (I : Interpretation) : Course where
  size := I.const .int "N"
  held i k := I.func .int "m" [i, k]
  right i := I.func .int "right" [i]
  richest k := I.func .int "max_child" [k]
  poorest k := I.func .int "min_child" [k]
  holders n k := I.func .int "num" [n, k]

/-- An interpretation that describes a course; to other symbols it gives no particular value. -/
def Logic.Interpretation.ofCourse (c : Course) : Interpretation where
  const kind name :=
    match kind with
    | .int => if name = "N" then c.size else 0
    | .bool => False
  func kind name args :=
    match kind, args with
    | .int, [i, k] =>
        if name = "m" then c.held i k else if name = "num" then c.holders i k else 0
    | .int, [k] =>
        if name = "right" then c.right k
        else if name = "max_child" then c.richest k
        else if name = "min_child" then c.poorest k
        else 0
    | .int, _ => 0
    | .bool, _ => False
  divZero _ := 0
  modZero _ := 0

/-- Every course is described by an interpretation. -/
theorem Course.of_ofCourse (c : Course) : Course.of (.ofCourse c) = c := by
  simp [of, Interpretation.ofCourse]

/-- Constants other than the number of children are no part of a course. -/
theorem Course.of_set {s : Symbol} (hs : s ≠ .int "N") (I : Interpretation) (v : s.kind.Value) :
    Course.of (I.set s v) = Course.of I := by
  have hN : (I.set s v).const .int "N" = I.const .int "N" := I.value_set_of_ne v hs.symm
  simp [of, hN]

@[simp] theorem Course.of_set_int {name : String} (hname : name ≠ "N") (I : Interpretation)
    (v : Int) : Course.of (I.set (.int name) v) = Course.of I :=
  Course.of_set (s := .int name) (by simpa [Symbol.int] using hname) I v

/-- Interpretations that agree on the number of children describe the same course. -/
theorem Course.of_eq_of_agreeOn {P : Symbol → Prop} {I J : Interpretation} (h : I.AgreeOn P J)
    (hN : P (.int "N")) : Course.of I = Course.of J := by
  have hsize : I.const .int "N" = J.const .int "N" := h.value _ hN
  simp [of, hsize, h.func]

namespace Logic

variable (I : Interpretation) (ρ : Valuation)

/-! ### Values of terms -/

@[simp] theorem meaning_num (n : Int) : (Expr.num n).meaning I ρ = n := rfl

@[simp] theorem meaning_int (name : String) : (Term.int name).meaning I ρ = I.const .int name := rfl

@[simp] theorem meaning_constant (kind : Kind) (name : String) :
    (Expr.const kind name).meaning I ρ = I.const kind name := rfl

@[simp] theorem meaning_plus (a b : IntTerm) :
    (a.plus b).meaning I ρ = ((a.meaning I ρ : Int) + b.meaning I ρ : Int) := rfl

@[simp] theorem meaning_minus (a b : IntTerm) :
    (a.minus b).meaning I ρ = ((a.meaning I ρ : Int) - b.meaning I ρ : Int) := rfl

@[simp] theorem meaning_succ (a : IntTerm) :
    (Term.succ a).meaning I ρ = ((a.meaning I ρ : Int) + 1 : Int) := rfl

@[simp] theorem meaning_mod_num (a : IntTerm) (n : Int) (hn : n ≠ 0) :
    (Expr.arith .mod a (.num n)).meaning I ρ = ((a.meaning I ρ : Int) % n : Int) :=
  if_neg hn

@[simp] theorem meaning_div_num (a : IntTerm) (n : Int) (hn : n ≠ 0) :
    (Expr.arith .div a (.num n)).meaning I ρ = ((a.meaning I ρ : Int) / n : Int) :=
  if_neg hn

open Classical in
theorem meaning_ite (c : Formula) (a b : IntTerm) :
    (Expr.ite .int c a b).meaning I ρ =
      (if Satisfies I ρ c then (a.meaning I ρ : Int) else b.meaning I ρ : Int) := rfl

/-! ### Truth of formulas -/

@[simp] theorem satisfies_lit (b : Bool) : Satisfies I ρ (.lit b) ↔ b = true := Iff.rfl

@[simp] theorem satisfies_le (a b : IntTerm) :
    Satisfies I ρ (.order .le a b) ↔ (a.meaning I ρ : Int) ≤ b.meaning I ρ := Iff.rfl

@[simp] theorem satisfies_lt (a b : IntTerm) :
    Satisfies I ρ (.order .lt a b) ↔ (a.meaning I ρ : Int) < b.meaning I ρ := Iff.rfl

@[simp] theorem satisfies_gt (a b : IntTerm) :
    Satisfies I ρ (.order .gt a b) ↔ (b.meaning I ρ : Int) < a.meaning I ρ := Iff.rfl

@[simp] theorem satisfies_atLeast (a : IntTerm) (n : Int) :
    Satisfies I ρ (.atLeast a n) ↔ n ≤ (a.meaning I ρ : Int) := Iff.rfl

@[simp] theorem satisfies_eq (a b : IntTerm) :
    Satisfies I ρ (.eq .int a b) ↔ (a.meaning I ρ : Int) = b.meaning I ρ := Iff.rfl

@[simp] theorem satisfies_ne (a b : IntTerm) :
    Satisfies I ρ (.ne .int a b) ↔ (a.meaning I ρ : Int) ≠ b.meaning I ρ := Iff.rfl

@[simp] theorem satisfies_not (p : Formula) : Satisfies I ρ (.not p) ↔ ¬ Satisfies I ρ p := Iff.rfl

attribute [simp] meaning_equate meaning_differ

@[simp] theorem satisfies_compare_lt (a b : IntTerm) :
    Satisfies I ρ (.compare .lt a b) ↔ (a.meaning I ρ : Int) < b.meaning I ρ :=
  meaning_compare I ρ .lt a b

@[simp] theorem satisfies_compare_ge (a b : IntTerm) :
    Satisfies I ρ (.compare .ge a b) ↔ (b.meaning I ρ : Int) ≤ a.meaning I ρ :=
  meaning_compare I ρ .ge a b

@[simp] theorem satisfies_all_nil : Satisfies I ρ (.all []) := by
  simp [meaning_all]

@[simp] theorem satisfies_all_cons (a : Formula) (rest : List Formula) :
    Satisfies I ρ (.all (a :: rest)) ↔ Satisfies I ρ a ∧ Satisfies I ρ (.all rest) := by
  simp [meaning_all]

@[simp] theorem satisfies_any_nil : ¬ Satisfies I ρ (.any []) := by
  simp [meaning_any]

@[simp] theorem satisfies_any_cons (a : Formula) (rest : List Formula) :
    Satisfies I ρ (.any (a :: rest)) ↔ Satisfies I ρ a ∨ Satisfies I ρ (.any rest) := by
  simp [meaning_any]

end Logic

/-! ### Notions of the vocabulary -/

namespace Vocabulary

open CandyCircle.Dynamics

section Notions

variable (I : Interpretation) (ρ : Valuation)

@[simp] theorem meaning_N : N.meaning I ρ = (Course.of I).size := rfl

@[simp] theorem meaning_m (i k : IntTerm) :
    (m i k).meaning I ρ = (Course.of I).held (i.meaning I ρ) (k.meaning I ρ) := rfl

@[simp] theorem meaning_right (i : IntTerm) :
    (right i).meaning I ρ = (Course.of I).right (i.meaning I ρ) := rfl

@[simp] theorem meaning_maxChild (k : IntTerm) :
    (maxChild k).meaning I ρ = (Course.of I).richest (k.meaning I ρ) := rfl

@[simp] theorem meaning_minChild (k : IntTerm) :
    (minChild k).meaning I ρ = (Course.of I).poorest (k.meaning I ρ) := rfl

@[simp] theorem meaning_num_holders (n k : IntTerm) :
    (num n k).meaning I ρ = (Course.of I).holders (n.meaning I ρ) (k.meaning I ρ) := rfl

@[simp] theorem meaning_max2 (k : IntTerm) :
    (max2 k).meaning I ρ = (Course.of I).most (k.meaning I ρ) := rfl

@[simp] theorem meaning_min2 (k : IntTerm) :
    (min2 k).meaning I ρ = (Course.of I).least (k.meaning I ρ) := rfl

@[simp] theorem satisfies_isChild (i : IntTerm) :
    Satisfies I ρ (isChild i) ↔ (Course.of I).IsChild (i.meaning I ρ) := by
  simp [isChild, Course.IsChild]

@[simp] theorem satisfies_isNat (k : IntTerm) :
    Satisfies I ρ (isNat k) ↔ 0 ≤ (k.meaning I ρ : Int) := Iff.rfl

@[simp] theorem satisfies_isSuccessor (k2 k : IntTerm) :
    Satisfies I ρ (isSuccessor k2 k) ↔ (k2.meaning I ρ : Int) = (k.meaning I ρ : Int) + 1 := Iff.rfl

@[simp] theorem satisfies_stateOk (i k : IntTerm) :
    Satisfies I ρ (stateOk i k) ↔
      0 ≤ (Course.of I).held (i.meaning I ρ) (k.meaning I ρ) ∧
        (Course.of I).held (i.meaning I ρ) (k.meaning I ρ) % 2 = 0 := by
  simp [stateOk]

@[simp] theorem satisfies_converged (k : IntTerm) :
    Satisfies I ρ (converged k) ↔
      (Course.of I).least (k.meaning I ρ) = (Course.of I).most (k.meaning I ρ) := Iff.rfl

end Notions

/-! ### Axioms -/

section Axioms

variable {I : Interpretation} {ρ : Valuation}

theorem satisfies_childrenExist :
    Satisfies I ρ childrenExist.formula ↔ 1 ≤ (Course.of I).size := by
  simp [childrenExist, Fact.plain, Fact.satisfies_formula]

theorem satisfies_childrenCount (n : CircleSize) :
    Satisfies I ρ (childrenCount (hasChildren n)).formula ↔ (Course.of I).size = n.val := by
  simp [childrenCount, hasChildren, Fact.plain, Fact.satisfies_formula]

theorem satisfies_rightNeighbor :
    Satisfies I ρ rightNeighbor.formula ↔
      ∀ i, (Course.of I).IsChild i →
        (Course.of I).right i = if i < (Course.of I).size then i + 1 else 1 := by
  simp [rightNeighbor, Fact.about, Fact.satisfies_formula,
    meaning_ite]

theorem satisfies_initialState :
    Satisfies I ρ initialState.formula ↔ (Course.of I).EvenAt 0 := by
  simp [initialState, Fact.about, Fact.satisfies_formula,
    Course.EvenAt]

theorem satisfies_maxChildExists :
    Satisfies I ρ maxChildExists.formula ↔
      ∀ k, 0 ≤ k → (Course.of I).IsChild ((Course.of I).richest k) := by
  simp [maxChildExists, Fact.about, Fact.satisfies_formula]

theorem satisfies_minChildExists :
    Satisfies I ρ minChildExists.formula ↔
      ∀ k, 0 ≤ k → (Course.of I).IsChild ((Course.of I).poorest k) := by
  simp [minChildExists, Fact.about, Fact.satisfies_formula]

theorem satisfies_maxDominates :
    Satisfies I ρ maxDominates.formula ↔
      ∀ k i, 0 ≤ k → (Course.of I).IsChild i → (Course.of I).held i k ≤ (Course.of I).most k := by
  simp [maxDominates, Fact.about, Fact.satisfies_formula]

theorem satisfies_minDominated :
    Satisfies I ρ minDominated.formula ↔
      ∀ k i, 0 ≤ k → (Course.of I).IsChild i → (Course.of I).least k ≤ (Course.of I).held i k := by
  simp [minDominated, Fact.about, Fact.satisfies_formula]

theorem satisfies_histogramNonneg :
    Satisfies I ρ histogramNonneg.formula ↔ ∀ k n, 0 ≤ k → 0 ≤ (Course.of I).holders n k := by
  simp [histogramNonneg, Fact.about, Fact.satisfies_formula]

/-- That no child enters a count, unless one of the terms it is said of mentions the variable. -/
theorem satisfies_noEntryFact {n k k2 : IntTerm} (name : String)
    (hn : ∀ j : Int, n.meaning (I.set (.int "j") j) ρ = n.meaning I ρ)
    (hk : ∀ j : Int, k.meaning (I.set (.int "j") j) ρ = k.meaning I ρ)
    (hk2 : ∀ j : Int, k2.meaning (I.set (.int "j") j) ρ = k2.meaning I ρ) :
    Satisfies I ρ (noEntryFact n k k2 name).formula ↔
      (Course.of I).NoEntry (n.meaning I ρ) (k.meaning I ρ) (k2.meaning I ρ) := by
  simp [noEntryFact, Fact.about, Fact.satisfies_formula,
    Course.NoEntry, hn, hk, hk2]

theorem satisfies_noEntry {n k k2 : IntTerm}
    (hn : ∀ j : Int, n.meaning (I.set (.int "j") j) ρ = n.meaning I ρ)
    (hk : ∀ j : Int, k.meaning (I.set (.int "j") j) ρ = k.meaning I ρ)
    (hk2 : ∀ j : Int, k2.meaning (I.set (.int "j") j) ρ = k2.meaning I ρ) :
    Satisfies I ρ (noEntry n k k2) ↔
      (Course.of I).NoEntry (n.meaning I ρ) (k.meaning I ρ) (k2.meaning I ρ) :=
  satisfies_noEntryFact "no-entry" hn hk hk2

theorem satisfies_histogramLeaves :
    Satisfies I ρ histogramLeaves.formula ↔
      ∀ k k2 n i, 0 ≤ k → k2 = k + 1 → (Course.of I).IsChild i → (Course.of I).held i k = n →
        (Course.of I).held i k2 ≠ n → (Course.of I).NoEntry n k k2 →
          (Course.of I).holders n k2 < (Course.of I).holders n k := by
  simp [histogramLeaves, Fact.about, Fact.satisfies_formula, satisfies_noEntry]

/-- **The axioms are the laws of a course.** -/
theorem satisfies_axioms {v : Vocabulary} (hv : v.children = none) :
    (∀ f ∈ v.axioms, Satisfies I ρ f.formula) ↔ (Course.of I).Lawful := by
  simp only [axioms, hv, Option.map_none, Option.toList_none, List.append_nil, List.cons_append,
    List.nil_append, List.forall_mem_cons, List.not_mem_nil, false_implies, implies_true,
    and_true, satisfies_childrenExist, satisfies_rightNeighbor, satisfies_initialState,
    satisfies_maxChildExists, satisfies_minChildExists, satisfies_maxDominates,
    satisfies_minDominated, satisfies_histogramNonneg, satisfies_histogramLeaves]
  constructor
  · rintro ⟨h1, h2, h3, h4, h5, h6, h7, h8, h9⟩
    exact ⟨h1, h2, h3, h4, h5, h6, h7, h8, h9⟩
  · rintro ⟨h1, h2, h3, h4, h5, h6, h7, h8, h9⟩
    exact ⟨h1, h2, h3, h4, h5, h6, h7, h8, h9⟩

end Axioms

/-! ### Dynamics -/

/-- The terms of a rule have the values that a function says. -/
def Computes (v : Vocabulary) (rule : Int → Int → Int) : Prop :=
  ∀ own neighbour : IntTerm, ∃ t, v.nextValue (.int own) (.int neighbour) = .ok t ∧
    ∀ I ρ, t.toInt.meaning I ρ = rule (own.meaning I ρ) (neighbour.meaning I ρ)

/-- The rule of the process is computed by its terms. -/
theorem computes_standard : standard.Computes Dynamics.nextValue := by
  intro own neighbour
  refine ⟨_, rfl, fun I ρ => ?_⟩
  simp [AnyTerm.int, AnyTerm.toInt, halfToppedUp, meaning_ite, Dynamics.nextValue, topUp]

theorem exists_transition {v : Vocabulary} {rule : Int → Int → Int} (hv : v.Computes rule)
    (step : Step) : ∃ t, v.transition step = .ok t := by
  obtain ⟨t, ht, _⟩ := hv (m (.int "i") step.k.toInt) (m (right (.int "i")) step.k.toInt)
  exact ⟨_, by simp only [transition, trans, ht]; rfl⟩

/-- **The dynamics of a step say that it follows the rule**, unless one of its parts mentions the
variable that stands for a child. -/
theorem satisfies_transition {v : Vocabulary} {rule : Int → Int → Int} (hv : v.Computes rule)
    {step : Step} {t : Fact} (ht : v.transition step = .ok t) {I : Interpretation} {ρ : Valuation}
    (hk : ∀ i : Int, step.k.toInt.meaning (I.set (.int "i") i) ρ = step.k.toInt.meaning I ρ)
    (hnext : ∀ i : Int,
      step.next.toInt.meaning (I.set (.int "i") i) ρ = step.next.toInt.meaning I ρ) :
    Satisfies I ρ t.formula ↔
      (Course.of I).Follows rule (step.k.toInt.meaning I ρ) (step.next.toInt.meaning I ρ) := by
  obtain ⟨next, hrule, hnextValue⟩ :=
    hv (m (.int "i") step.k.toInt) (m (right (.int "i")) step.k.toInt)
  simp only [transition, trans, hrule] at ht
  cases ht
  simp [Fact.satisfies_formula, Course.Follows, hnextValue, hk, hnext]

/-- The places of counts, each with what stands there. -/
theorem mem_range_zip {counts : List Int} {p : Nat × Int} :
    p ∈ (List.range counts.length).zip counts ↔ counts[p.1]? = some p.2 := by
  rw [List.mem_iff_getElem?]
  simp only [List.getElem?_zip_eq_some]
  constructor
  · rintro ⟨i, hi, hx⟩
    obtain ⟨_, hp⟩ := List.getElem?_eq_some_iff.1 hi
    rw [List.getElem_range] at hp
    rwa [← hp]
  · intro hx
    have hlt : p.1 < counts.length := (List.getElem?_eq_some_iff.1 hx).1
    exact ⟨p.1, by rw [List.getElem?_range hlt], hx⟩

/-- A concrete start fixes what the children hold. -/
theorem satisfies_initialCounts {I : Interpretation} {ρ : Valuation} (counts : List Int) :
    Satisfies I ρ (initialCounts counts).formula ↔
      ∀ (i : Nat) (x : Int), counts[i]? = some x → (Course.of I).held (i + 1) 0 = x := by
  simp only [initialCounts, Fact.plain, Fact.satisfies_formula, Quantifier.over_nil,
    satisfies_lit, true_implies, meaning_all, List.forall_mem_map, mem_range_zip, satisfies_eq,
    meaning_m, meaning_num, Prod.forall]

end Vocabulary

end CandyCircle
