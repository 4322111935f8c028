/-
**Refuted claims are true.**

The query of a claim speaks of fresh constants in place of the variables.  If it has no model, the
claim holds for all values of its variables wherever the other assertions of the query hold: the
fresh constants may be given these values, since nothing was said of them before.  The induction
schemes rest on the same freedom to choose values for the constants that stand for a step.

Main definitions:

* `CandyCircle.Logic.Placed` — witnesses have the values that symbols have in another
  interpretation;
* `CandyCircle.Fact.Settled` — the truth of a claim depends on no fresh constants from a number on.

Main results:

* `CandyCircle.Logic.exists_placed` — witnesses may be given any values;
* `CandyCircle.View.satisfies_of_unsatisfiable` — **a claim is true if its query has no model**;
* `CandyCircle.Induction.forall_of_twoStep` — **two-step induction is sound**.
-/
import CandyCircle.Proofs.Refutation.Induction
import CandyCircle.Proofs.Vocabulary

set_option autoImplicit false

namespace CandyCircle

open Logic Context

/-! ### Values of witnesses -/

namespace Logic

/-- The witnesses for symbols, from a number on, have in one interpretation the values that the
symbols have in another one. -/
def Placed (K J : Interpretation) : List Symbol → Nat → Prop
  | [], _ => True
  | s :: rest, n => J.value ⟨freshName s.name n, s.kind⟩ = K.value s ∧ Placed K J rest (n + 1)

variable {I J J' K : Interpretation} {ρ : Valuation}

/-- Only the values of fresh constants matter to that. -/
theorem Placed.congr {vars : List Symbol} : ∀ {n : Nat}, J.AgreeOn (Fresh n) J' →
    Placed K J vars n → Placed K J' vars n := by
  induction vars with
  | nil => exact fun _ _ => trivial
  | cons s rest ih =>
      rintro n hJ ⟨hs, hrest⟩
      refine ⟨?_, ih (hJ.mono fun t ht => ht.mono (Nat.le_succ n)) hrest⟩
      rw [← hJ.value _ ⟨s.name, n, Nat.le_refl n, rfl⟩]
      exact hs

/-- **Witnesses may be given any values**, without touching other constants. -/
theorem exists_placed (I K : Interpretation) (vars : List Symbol) : ∀ n : Nat,
    ∃ J, I.AgreeOn (¬ Fresh n ·) J ∧ Placed K J vars n := by
  induction vars with
  | nil => exact fun n => ⟨I, .refl _ I, trivial⟩
  | cons s rest ih =>
      intro n
      obtain ⟨J, hJ, hplaced⟩ := ih (n + 1)
      let w : Symbol := ⟨freshName s.name n, s.kind⟩
      have hset : J.AgreeOn (· ≠ w) (J.set w (K.value s)) := .set J w _
      refine ⟨J.set w (K.value s), ?_, J.value_set_self w _, ?_⟩
      · refine (hJ.mono fun t ht hfresh => ht (hfresh.mono (Nat.le_succ n))).trans
          (hset.mono fun t ht => ?_)
        rintro rfl
        exact ht ⟨s.name, n, Nat.le_refl n, rfl⟩
      · refine hplaced.congr (hset.mono fun t ht => ?_)
        rintro rfl
        exact not_fresh_of_lt (Nat.lt_succ_self n) s.name s.kind ht

/-- A witness is of the sort of its symbol. -/
theorem assign?_witness (s : Symbol) (name : String) :
    Fact.assign? s (Symbol.any ⟨name, s.kind⟩) = some ⟨s, .const s.kind name⟩ :=
  dif_pos rfl

/-- Where witnesses have the values of symbols, they may be put in place of these. -/
theorem agreeOn_assigned_witnesses {P : Symbol → Prop} (hJ : J.AgreeOn P K) {vars : List Symbol} :
    ∀ {n : Nat}, Placed K J vars n →
      (J.assigned ρ ((vars.zip ((freshSymbols vars n).map Symbol.any)).filterMap
        fun p => Fact.assign? p.1 p.2)).AgreeOn (fun s => s ∈ vars ∨ P s) K := by
  induction vars with
  | nil => exact fun _ => hJ.mono fun s hs => hs.resolve_left List.not_mem_nil
  | cons s rest ih =>
      rintro n ⟨hs, hrest⟩
      have hrest := ih hrest
      simp only [freshSymbols, List.map_cons, List.zip_cons_cons]
      rw [List.filterMap_cons_some (b := ⟨s, .const s.kind (freshName s.name n)⟩)
        (assign?_witness s _), Interpretation.assigned_cons]
      refine ⟨hrest.func, hrest.divZero, hrest.modZero, fun t ht => ?_⟩
      by_cases hts : t = s
      · subst hts
        rw [Interpretation.value_set_self]
        exact hs
      · rw [Interpretation.value_set_of_ne _ _ hts]
        refine hrest.value t (ht.imp_left fun ht => ?_)
        exact (List.mem_cons.1 ht).resolve_left hts

end Logic

/-! ### Claims -/

/-- The truth of a claim depends on no fresh constants from a number on. -/
structure Fact.Settled (n : Nat) (f : Fact) : Prop where
  /-- That of its guard does not. -/
  guard : Logic.Settled n f.guard
  /-- That of its body does not. -/
  body : Logic.Settled n f.body

/-- A claim that mentions no fresh constants from a number on does not depend on them. -/
theorem Fact.settled_of_constants {n : Nat} {f : Fact}
    (h : ∀ s ∈ f.guard.constants ++ f.body.constants, ¬ Fresh n s) : f.Settled n where
  guard := Logic.settled_of_constants fun s hs => h s (List.mem_append_left _ hs)
  body := Logic.settled_of_constants fun s hs => h s (List.mem_append_right _ hs)

/-- A claim that mentions no fresh constants at all does not depend on them. -/
theorem Fact.settled_of_plain {f : Fact}
    (h : ∀ s ∈ f.guard.constants ++ f.body.constants, '!' ∉ s.name.toList) (n : Nat) :
    f.Settled n :=
  settled_of_constants fun s hs => not_fresh_of_plain (h s hs) n

namespace View

variable {V : View} {claim : Fact} {I : Interpretation} {ρ : Valuation}

/-- If its guard implies its body for the constants of its query, whatever their values are, a claim
is true. -/
theorem satisfies_of_witnesses (hsettled : claim.Settled V.issued)
    (h : ∀ J, I.AgreeOn (¬ Fresh V.issued ·) J → Satisfies J ρ (V.guard claim) →
      Satisfies J ρ (V.body claim)) : Satisfies I ρ claim.formula := by
  rw [claim.satisfies_formula_iff]
  intro K hK hguard
  -- the witnesses take the values that the variables have where the claim is to be shown
  obtain ⟨J, hJ, hplaced⟩ := exists_placed I K claim.vars V.issued
  have hJK : J.AgreeOn (fun s => ¬ Fresh V.issued s ∧ s ∉ claim.vars) K :=
    (hJ.symm.mono fun s hs => hs.1).trans (hK.mono fun s hs => hs.2)
  have hassigned : (J.assigned ρ (claim.bind ((claim.witnesses V.issued).map Symbol.any))).AgreeOn
      (¬ Fresh V.issued ·) K :=
    (agreeOn_assigned_witnesses hJK hplaced).mono fun s hs =>
      or_iff_not_imp_left.2 fun hvar => ⟨hs, hvar⟩
  have hJbody := h J hJ ((claim.satisfies_guardFor _).2 (hsettled.guard hassigned.symm hguard))
  exact hsettled.body hassigned ((claim.satisfies_bodyFor _).1 hJbody)

/-- If the query of a claim has no model and everything else that it asserts is true, then the guard
implies the body for its constants. -/
theorem body_of_unsatisfiable {extra : List Assertion} {hs : List Formula}
    (hunsat : Unsatisfiable (V.refutes claim extra hs).2.formulas)
    (hassumed : ∀ a ∈ V.base ++ V.frames.reverse.flatten ++ extra, Satisfies I ρ a.formula)
    (hhints : ∀ e ∈ hs, Satisfies I ρ e) (hguard : Satisfies I ρ (V.guard claim)) :
    Satisfies I ρ (V.body claim) := by
  by_contra hbody
  -- otherwise the interpretation is a model of the query
  refine hunsat I ρ fun f hf => ?_
  simp only [refutes, question, Question.formulas, List.map_append, List.map_cons, List.mem_append,
    List.mem_cons] at hf
  simp only [List.forall_mem_append] at hassumed
  obtain ⟨⟨hbase, hframes⟩, hextra⟩ := hassumed
  rcases hf with hf | hf | (hf | hf) | rfl | hf
  · exact List.forall_mem_map.2 hbase f hf
  · exact List.forall_mem_map.2 hframes f hf
  · -- the guard
    unfold Fact.guardAssertions at hf
    split at hf
    · cases hf
    · rw [List.mem_singleton.1 hf]
      exact hguard
  · exact List.forall_mem_map.2 hextra f hf
  · exact hbody
  · rw [Fact.hintAssertions, List.map_map, List.mem_map] at hf
    obtain ⟨e, he, rfl⟩ := hf
    exact hhints e he

/-- **A claim is true if its query has no model** and everything that the query asserts besides is
true, whatever values its witnesses have, wherever the guard is. -/
theorem satisfies_of_unsatisfiable {extra : List Assertion} {hs : List Formula}
    (hunsat : Unsatisfiable (V.refutes claim extra hs).2.formulas)
    (hsettled : claim.Settled V.issued)
    (h : ∀ J, I.AgreeOn (¬ Fresh V.issued ·) J → Satisfies J ρ (V.guard claim) →
      (∀ a ∈ V.base ++ V.frames.reverse.flatten ++ extra, Satisfies J ρ a.formula) ∧
        ∀ e ∈ hs, Satisfies J ρ e) : Satisfies I ρ claim.formula :=
  satisfies_of_witnesses hsettled fun J hJ hguard =>
    body_of_unsatisfiable hunsat (h J hJ hguard).1 (h J hJ hguard).2 hguard

end View

/-! ### Induction -/

namespace Induction

variable {I : Interpretation} {ρ : Valuation} {n : Nat}

/-- The next two constants may be given any values. -/
theorem exists_fresh (I : Interpretation) (n : Nat) (first second : String) (x y : Int) :
    ∃ J, I.AgreeOn (¬ Fresh n ·) J ∧ (J.const .int (freshName first n) : Int) = x ∧
      (J.const .int (freshName second (n + 1)) : Int) = y := by
  let s : Symbol := .int (freshName first n)
  let t : Symbol := .int (freshName second (n + 1))
  have hne : s ≠ t := by
    intro heq
    have := freshName_inj (congrArg Symbol.name heq)
    omega
  refine ⟨(I.set s x).set t y, ?_, ?_, (I.set s x).value_set_self t _⟩
  · refine ((Interpretation.AgreeOn.set I s x).mono ?_).trans
      ((Interpretation.AgreeOn.set _ t _).mono ?_)
    · rintro u hu rfl
      exact hu ⟨first, n, Nat.le_refl n, rfl⟩
    · rintro u hu rfl
      exact hu ⟨second, n + 1, Nat.le_succ n, rfl⟩
  · exact ((I.set s x).value_set_of_ne _ hne).trans (I.value_set_self s x)

/-- The constants that stand for a step and its successor may be given any values. -/
theorem exists_step (I : Interpretation) (ρ : Valuation) (n : Nat) (x : Int) :
    ∃ J, I.AgreeOn (¬ Fresh n ·) J ∧ (stepTerm n).meaning J ρ = x ∧
      (nextTerm n).meaning J ρ = x + 1 :=
  exists_fresh I n "k" "k_next" x (x + 1)

/-- What the layer of the successor step assumes. -/
theorem satisfies_stepAssertions (name : String) (claim : AnyTerm → Fact) (lower : AnyTerm) :
    (∀ a ∈ stepAssertions name claim lower n, Satisfies I ρ a.formula) ↔
      (lower.toInt.meaning I ρ : Int) ≤ (stepTerm n).meaning I ρ ∧
        ((nextTerm n).meaning I ρ : Int) = (stepTerm n).meaning I ρ + 1 ∧
          Satisfies I ρ (claim (.int (stepTerm n))).formula := by
  simp [stepAssertions, hypothesis, Fact.assertion]

/-- **Two-step induction is sound**: what holds of the lower bound, and of the successor of a step
wherever it is assumed of the step, holds of all steps from the lower bound on. -/
theorem forall_of_twoStep (name : String) (claim : AnyTerm → Fact) (lower : AnyTerm)
    {P : Int → Prop} {low : Int}
    (hlow : ∀ J, I.AgreeOn (¬ Fresh n ·) J → lower.toInt.meaning J ρ = low)
    (hclaim : ∀ J, I.AgreeOn (¬ Fresh n ·) J → ∀ t ∈ [stepTerm n, nextTerm n],
      (Satisfies J ρ (claim (.int t)).formula ↔ P (t.meaning J ρ)))
    (hbase : P low)
    (hstep : ∀ J, I.AgreeOn (¬ Fresh n ·) J →
      (∀ J', J.AgreeOn (¬ Fresh (n + 2) ·) J' →
        ∀ a ∈ stepAssertions name claim lower n, Satisfies J' ρ a.formula) →
      Satisfies J ρ (successorCase name claim n).formula) :
    ∀ x, low ≤ x → P x := by
  intro x hx
  induction x, hx using Int.leInduction with
  | base => exact hbase
  | succ x hx ih =>
      obtain ⟨J, hJ, hk, hnext⟩ := exists_step I ρ n x
      rw [← hnext]
      refine (hclaim J hJ (nextTerm n) (by simp)).1 ?_
      rw [← Fact.satisfies_renamed _ (name ++ "/step")]
      refine hstep J hJ fun J' hJ' => ?_
      -- what is declared later leaves the step and its successor alone
      have hIJ' : I.AgreeOn (¬ Fresh n ·) J' :=
        hJ.trans (hJ'.mono fun s hs hs' => hs (hs'.mono (by omega)))
      have hk' : (stepTerm n).meaning J' ρ = x :=
        (hJ'.value (.int (freshName "k" n)) (not_fresh_of_lt (by omega) _ _)).symm.trans hk
      have hnext' : (nextTerm n).meaning J' ρ = x + 1 :=
        (hJ'.value (.int (freshName "k_next" (n + 1)))
          (not_fresh_of_lt (by omega) _ _)).symm.trans hnext
      rw [satisfies_stepAssertions, hlow J' hIJ', hk', hnext',
        hclaim J' hIJ' (stepTerm n) (by simp), hk']
      exact ⟨hx, rfl, ih⟩

end Induction

end CandyCircle
