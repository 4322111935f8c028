/-
**What facts say.**

A fact is true if its guard implies its body whatever the values of its variables are.  Its
instances read the same with the values of terms for those of the variables, so that a true fact has
true instances.

Main definitions:

* `CandyCircle.Fact.Proper` — guard and body of a fact are formulas;
* `CandyCircle.Fact.bind` — terms in place of the variables of a fact, as far as there are both;
* `CandyCircle.Fact.matrixFor`, `CandyCircle.Fact.guardFor`, `CandyCircle.Fact.bodyFor` — the parts
  of a fact for given terms.

Main results:

* `CandyCircle.Fact.eq_matrixFor`, `CandyCircle.Fact.eq_guardFor`, `CandyCircle.Fact.eq_bodyFor` —
  parts that are not refused are these;
* `CandyCircle.Fact.satisfies_formula` — **what a fact says**;
* `CandyCircle.Fact.satisfies_matrixFor` — **instances of true facts are true**.
-/
import CandyCircle.Fact
import CandyCircle.Proofs.Logic.Agreement

set_option autoImplicit false

namespace CandyCircle.Fact

open Logic

variable {I : Interpretation} {ρ : Valuation}

/-! ### Formulas proper -/

/-- Guard and body of a fact are formulas; no integer stands in place of them. -/
structure Proper (f : Fact) : Prop where
  guard : f.guard.isStanding = false
  body : f.body.isStanding = false

theorem Proper.matrixFault? {f : Fact} (h : f.Proper) : f.matrixFault? = none := by
  simp [Fact.matrixFault?, h.guard, h.body]

theorem Proper.fault? {f : Fact} (h : f.Proper) (htrigger : f.trigger = none) :
    f.fault? = none := by
  have hmatrix : f.matrix.isStanding = false := by
    unfold matrix
    split
    · exact h.body
    · rfl
  simp [Fact.fault?, quantifiedFault?, h.matrixFault?, htrigger, hmatrix]

/-! ### Parts for given terms -/

/-- Terms in place of the variables of a fact, as far as their sorts agree. -/
def bind (f : Fact) (terms : List AnyTerm) : List Assignment :=
  (f.vars.zip terms).filterMap fun p => assign? p.1 p.2

/-- The matrix for given terms. -/
def matrixFor (f : Fact) (terms : List AnyTerm) : Formula :=
  f.matrix.substitute (f.bind terms)

/-- The guard for given terms. -/
def guardFor (f : Fact) (terms : List AnyTerm) : Formula :=
  f.guard.substitute (f.bind terms)

/-- The body for given terms. -/
def bodyFor (f : Fact) (terms : List AnyTerm) : Formula :=
  f.body.substitute (f.bind terms)

theorem eq_filterMap_of_mapM {α β : Type} {g : α → Option β} : ∀ {ps : List α} {as : List β},
    ps.mapM g = some as → as = ps.filterMap g := by
  intro ps
  induction ps with
  | nil =>
      intro as h
      cases h
      rfl
  | cons p rest ih =>
      intro as h
      simp only [List.mapM_cons, Option.bind_eq_bind, Option.bind_eq_some_iff] at h
      obtain ⟨a, ha, as', has', h⟩ := h
      cases h
      rw [List.filterMap_cons_some ha, ← ih has']

theorem eq_bind {f : Fact} {terms : List AnyTerm} {as : List Assignment}
    (h : f.assignments terms = .ok as) : as = f.bind terms := by
  unfold assignments at h
  split at h
  · split at h
    · cases h
      exact eq_filterMap_of_mapM ‹_›
    · cases h
  · cases h

/-- An instance that is not refused is the matrix for its terms. -/
theorem eq_matrixFor {f : Fact} {terms : List AnyTerm} {e : Formula}
    (h : f.instanceAt terms = .ok e) : e = f.matrixFor terms := by
  unfold instanceAt barring at h
  cases hfault : f.matrixFault? with
  | some fault => simp [hfault, Bind.bind, Except.bind] at h
  | none =>
      cases has : f.assignments terms with
      | error fault => simp [hfault, has, Bind.bind, Except.bind] at h
      | ok as =>
          simp only [hfault, has, Bind.bind, Except.bind, pure, Except.pure, Except.ok.injEq] at h
          rw [← h, matrixFor, eq_bind has]

/-- A guard that is not refused is the guard for its terms. -/
theorem eq_guardFor {f : Fact} {terms : List AnyTerm} {e : Formula}
    (h : f.guardAt terms = .ok e) : e = f.guardFor terms := by
  unfold guardAt at h
  cases has : f.assignments terms with
  | error fault => simp [has, Bind.bind, Except.bind] at h
  | ok as =>
      simp only [has, Bind.bind, Except.bind, pure, Except.pure, Except.ok.injEq] at h
      rw [← h, guardFor, eq_bind has]

/-- A body that is not refused is the body for its terms. -/
theorem eq_bodyFor {f : Fact} {terms : List AnyTerm} {e : Formula}
    (h : f.bodyAt terms = .ok e) : e = f.bodyFor terms := by
  unfold bodyAt at h
  cases has : f.assignments terms with
  | error fault => simp [has, Bind.bind, Except.bind] at h
  | ok as =>
      simp only [has, Bind.bind, Except.bind, pure, Except.pure, Except.ok.injEq] at h
      rw [← h, bodyFor, eq_bind has]

/-- A formula of a fact that is not refused is its formula. -/
theorem eq_formula {f : Fact} {e : Formula} (h : f.formula? = .ok e) : e = f.formula := by
  unfold formula? barring at h
  split at h
  · cases h
    rfl
  · cases h

/-! ### Truth -/

/-- A guard that is literally true says nothing. -/
theorem satisfies_of_isTrue {p : Formula} (h : Formula.isTrue p = true) : Satisfies I ρ p := by
  unfold Formula.isTrue at h
  split at h
  · exact rfl
  · cases h

theorem satisfies_matrix (f : Fact) :
    Satisfies I ρ f.matrix ↔ (Satisfies I ρ f.guard → Satisfies I ρ f.body) := by
  unfold matrix
  split
  case isTrue h => exact ⟨fun hb _ => hb, fun hb => hb (satisfies_of_isTrue h)⟩
  case isFalse => rfl

/-- **A fact says that its guard implies its body**, whatever the values of its variables are. -/
theorem satisfies_formula (f : Fact) :
    Satisfies I ρ f.formula ↔
      Quantifier.all.over f.vars (fun J => Satisfies J ρ f.guard → Satisfies J ρ f.body) I := by
  unfold formula
  split
  case isTrue h =>
    rw [List.isEmpty_iff.1 h]
    exact f.satisfies_matrix
  case isFalse =>
    rw [satisfies_quantify]
    simp only [satisfies_matrix]

/-- A name says nothing. -/
@[simp] theorem satisfies_renamed (f : Fact) (name : String) :
    Satisfies I ρ (f.renamed name).formula ↔ Satisfies I ρ f.formula := by
  rw [satisfies_formula, satisfies_formula]
  rfl

/-- A fact is about the interpretations that differ only in the values of its variables. -/
theorem satisfies_formula_iff (f : Fact) :
    Satisfies I ρ f.formula ↔
      ∀ J, I.AgreeOn (· ∉ f.vars) J → Satisfies J ρ f.guard → Satisfies J ρ f.body := by
  rw [satisfies_formula, over_all_iff]

theorem satisfies_guardFor (f : Fact) (terms : List AnyTerm) :
    Satisfies I ρ (f.guardFor terms) ↔ Satisfies (I.assigned ρ (f.bind terms)) ρ f.guard := by
  rw [Satisfies, guardFor, meaning_substitute]
  rfl

theorem satisfies_bodyFor (f : Fact) (terms : List AnyTerm) :
    Satisfies I ρ (f.bodyFor terms) ↔ Satisfies (I.assigned ρ (f.bind terms)) ρ f.body := by
  rw [Satisfies, bodyFor, meaning_substitute]
  rfl

theorem mem_vars_of_mem_bind {f : Fact} {terms : List AnyTerm} {a : Assignment}
    (h : a ∈ f.bind terms) : a.symbol ∈ f.vars := by
  obtain ⟨p, hp, ha⟩ := List.mem_filterMap.1 h
  unfold assign? at ha
  split at ha
  · cases ha
    exact (List.of_mem_zip hp).1
  · cases ha

/-- Terms in place of variables change no other values. -/
theorem agreeOn_assigned {vars : List Symbol} {as : List Assignment}
    (h : ∀ a ∈ as, a.symbol ∈ vars) : I.AgreeOn (· ∉ vars) (I.assigned ρ as) := by
  induction as with
  | nil => exact .refl _ I
  | cons a rest ih =>
      obtain ⟨s, t⟩ := a
      rw [Interpretation.assigned_cons]
      refine (ih fun a ha => h a (List.mem_cons_of_mem _ ha)).trans ?_
      refine (Interpretation.AgreeOn.set _ s _).mono fun u hu => ?_
      rintro rfl
      exact hu (h _ List.mem_cons_self)

/-- **Instances of true facts are true.** -/
theorem satisfies_matrixFor {f : Fact} (h : Satisfies I ρ f.formula) (terms : List AnyTerm) :
    Satisfies I ρ (f.matrixFor terms) := by
  rw [Satisfies, matrixFor, meaning_substitute]
  -- terms in place of the variables change no other values
  refine f.satisfies_matrix.2 (f.satisfies_formula_iff.1 h _ ?_)
  exact agreeOn_assigned fun a ha => mem_vars_of_mem_bind ha

end CandyCircle.Fact
