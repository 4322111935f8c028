/-
**Claims about all values.**

An induction scheme is given a claim for each of many arguments: a term, or a pair of terms.  It can
conclude something about all values because the claim is about the value of its argument.  If two
arguments have the same value in two interpretations, and all else that the claim mentions has the
same values there, too, then the claim is true of both arguments or of neither.

A conclusion is a claim with some more variables and with a condition on these in front of its
guard.  It says that the claim is true for all values of these variables that meet the condition.

Main definitions:

* `CandyCircle.Logic.Ignores` — a value does not depend on some constants;
* `CandyCircle.Fact.Reads` — **claims read their arguments only through the values of these**;
* `CandyCircle.Fact.Mentions` — claims mention only constants of their own and of their arguments;
* `CandyCircle.Context.Takes` — a conclusion is not refused.

Main results:

* `CandyCircle.Fact.Reads.formula_iff` — **claims about equal values are equally true**;
* `CandyCircle.Fact.Reads.settled` — and do not depend on fresh constants;
* `CandyCircle.Fact.over_guarded` — a condition in front of a guard;
* `CandyCircle.Fact.Mentions.fit` — a claim may be asked about if its argument is not retired.
-/
import CandyCircle.Proofs.Refutation.Returning
import CandyCircle.Proofs.Refutation.Soundness
import CandyCircle.Refutation.Induction

set_option autoImplicit false

namespace CandyCircle

open Logic

namespace Logic

variable {β : Type} {I J : Interpretation} {ρ : Valuation}

/-- A value does not depend on some constants. -/
def Ignores (v : Interpretation → β) (P : Symbol → Prop) : Prop :=
  ∀ I J, I.AgreeOn (¬ P ·) J → v I = v J

theorem ignores_meaning {s : Shape} {e : Expr s} {P : Symbol → Prop} (h : ∀ s ∈ e.constants, ¬ P s)
    (ρ : Valuation) : Ignores (e.meaning · ρ) P :=
  fun _ _ hIJ => meaning_congr e (hIJ.mono h) ρ

/-- Interpretations that agree apart from one constant agree once it has one value in both. -/
theorem Interpretation.AgreeOn.set_both {P : Symbol → Prop} {x : Symbol}
    (h : I.AgreeOn (fun s => s ≠ x ∧ P s) J) (v : x.kind.Value) :
    (I.set x v).AgreeOn P (J.set x v) := by
  refine ⟨h.func, h.divZero, h.modZero, fun s hs => ?_⟩
  by_cases hx : s = x
  · subst hx
    rw [Interpretation.value_set_self, Interpretation.value_set_self]
  · rw [Interpretation.value_set_of_ne _ _ hx, Interpretation.value_set_of_ne _ _ hx]
    exact h.value s ⟨hx, hs⟩

theorem Settled.mono {n m : Nat} {f : Formula} (h : Settled n f) (hm : n ≤ m) : Settled m f :=
  fun hIJ => h (hIJ.mono fun _ hs hfresh => hs (hfresh.mono hm))

/-- Some constants may be given the values that they have in another interpretation. -/
theorem exists_mixed (I K : Interpretation) (vars : List Symbol) :
    ∃ J, I.AgreeOn (· ∉ vars) J ∧ ∀ s ∈ vars, J.value s = K.value s := by
  refine ⟨{ I with const := fun kind name =>
    if ⟨name, kind⟩ ∈ vars then K.const kind name else I.const kind name }, ⟨rfl, rfl, rfl, ?_⟩, ?_⟩
  · exact fun s hs => (if_neg hs).symm
  · exact fun s hs => if_pos hs

end Logic

namespace Fact

/-! ### Claims that read values -/

/-- **Claims read their arguments only through the values of these**, and besides only constants of
their own. -/
structure Reads {τ β : Type} (value : τ → Interpretation → Valuation → β) (own : Symbol → Prop)
    (claim : τ → Fact) : Prop where
  vars : ∀ t t', (claim t).vars = (claim t').vars
  guard : ∀ {t t' I J ρ}, I.AgreeOn own J → value t I ρ = value t' J ρ →
    Satisfies I ρ (claim t).guard → Satisfies J ρ (claim t').guard
  body : ∀ {t t' I J ρ}, I.AgreeOn own J → value t I ρ = value t' J ρ →
    Satisfies I ρ (claim t).body → Satisfies J ρ (claim t').body

section Reads

variable {τ β : Type} {value : τ → Interpretation → Valuation → β} {own : Symbol → Prop}
  {claim : τ → Fact} {t t' : τ} {I J : Interpretation} {ρ : Valuation}

theorem Reads.formula (h : Reads value own claim)
    (ht : Ignores (value t · ρ) (· ∈ (claim t).vars))
    (ht' : Ignores (value t' · ρ) (· ∈ (claim t').vars))
    (hIJ : I.AgreeOn (fun s => own s ∧ s ∉ (claim t).vars) J)
    (hvalue : value t I ρ = value t' J ρ) (hI : Satisfies I ρ (claim t).formula) :
    Satisfies J ρ (claim t').formula := by
  rw [satisfies_formula_iff] at hI ⊢
  intro K' hK' hguard
  -- the variables take in the first interpretation the values that they take in the second one
  obtain ⟨K, hK, hvars⟩ := exists_mixed I K' (claim t).vars
  have hKK' : K.AgreeOn own K' := by
    have hout := (hK.symm.mono fun s hs => hs.2).trans
      (hIJ.trans (hK'.mono fun s hs => h.vars t t' ▸ hs.2))
    refine ⟨hout.func, hout.divZero, hout.modZero, fun s hs => ?_⟩
    by_cases hvar : s ∈ (claim t).vars
    · exact hvars s hvar
    · exact hout.value s ⟨hs, hvar⟩
  have hvalue' : value t K ρ = value t' K' ρ :=
    (ht I K hK).symm.trans (hvalue.trans (ht' J K' hK'))
  exact h.body hKK' hvalue' (hI K hK (h.guard hKK'.symm hvalue'.symm hguard))

/-- **Claims about equal values are equally true.** -/
theorem Reads.formula_iff (h : Reads value own claim)
    (ht : Ignores (value t · ρ) (· ∈ (claim t).vars))
    (ht' : Ignores (value t' · ρ) (· ∈ (claim t').vars))
    (hIJ : I.AgreeOn (fun s => own s ∧ s ∉ (claim t).vars) J)
    (hvalue : value t I ρ = value t' J ρ) :
    Satisfies I ρ (claim t).formula ↔ Satisfies J ρ (claim t').formula := by
  refine ⟨h.formula ht ht' hIJ hvalue, h.formula ht' ht ?_ hvalue.symm⟩
  exact hIJ.symm.mono fun s hs => ⟨hs.1, h.vars t t' ▸ hs.2⟩

/-- Claims do not depend on fresh constants if neither their own constants nor their argument
does. -/
theorem Reads.settled (h : Reads value own claim) {n : Nat} (hown : ∀ s, own s → ¬ Fresh n s)
    (ht : ∀ ρ, Ignores (value t · ρ) (Fresh n)) : (claim t).Settled n where
  guard hIJ := h.guard (hIJ.mono hown) (ht _ _ _ hIJ)
  body hIJ := h.body (hIJ.mono hown) (ht _ _ _ hIJ)

end Reads

/-! ### Claims that mention constants -/

/-- **Claims mention only constants of their own** and constants of their arguments. -/
def Mentions {τ : Type} (constants : τ → List Symbol) (own : Symbol → Prop) (claim : τ → Fact) :
    Prop :=
  ∀ t, ∀ s ∈ (claim t).guard.constants ++ (claim t).body.constants, own s ∨ s ∈ constants t

/-- Such a claim may be asked about if its argument mentions no retired constants. -/
theorem Mentions.fit {τ : Type} {constants : τ → List Symbol} {own : Symbol → Prop}
    {claim : τ → Fact} (h : Mentions constants own claim) {σ : Stance} (hσ : σ.Numbered)
    (hown : ∀ s, own s → s.name ∉ σ.retired) {t : τ} (hproper : (claim t).Proper)
    (ht : ∀ s ∈ constants t, s.name ∉ σ.retired) {hints : List Formula}
    (hhints : ∀ e ∈ hints, σ.Admits e) (name : String) :
    Proof.Fit σ ((claim t).renamed name) (((claim t).renamed name).witnesses σ.issued) hints :=
  .of_constants ⟨hproper.guard, hproper.body⟩ hσ (fun s hs => (h t s hs).elim (hown s) (ht s))
    hhints

/-! ### Conditions in front of guards -/

/-- A condition that does not depend on the variables of a claim may stand in front of its guard. -/
theorem over_guarded (f : Fact) {I : Interpretation} {ρ : Valuation} {q : Interpretation → Prop}
    (hq : Ignores q (· ∈ f.vars)) :
    Quantifier.all.over f.vars
        (fun J => q J ∧ Satisfies J ρ f.guard → Satisfies J ρ f.body) I ↔
      (q I → Satisfies I ρ f.formula) := by
  rw [over_all_iff, satisfies_formula_iff]
  constructor
  · intro h hqI J hJ hguard
    exact h J hJ ⟨(hq I J hJ) ▸ hqI, hguard⟩
  · rintro h J hJ ⟨hqJ, hguard⟩
    exact h ((hq I J hJ).symm ▸ hqJ) J hJ hguard

end Fact

/-! ### Conclusions -/

/-- Nothing about a conclusion is refused besides retired constants: its trigger mentions all its
variables and is accepted as a pattern, and at the base its name is new. -/
structure Context.Takes (c : Context) (f : Fact) : Prop where
  covered : f.missing = []
  quantified : f.fault? = none
  /-- At the base its name is new. -/
  new : c.opened = [] → c.base.facts.find? (fun entry => entry.1 == f.name) = none

/-- Such a conclusion is drawn also later on, unless it mentions retired constants. -/
theorem Context.Takes.returns {c : Context} {f : Fact} (h : c.Takes f) {σ : Stance}
    (hafter : c.stance.After σ) (hadmits : σ.Admits f.formula) :
    Proof.Returns (Proof.conclude f) σ fun _ _ => True := by
  refine Proof.returns_conclude h.quantified hadmits fun hopened => ?_
  rw [hafter.facts]
  exact h.new (List.map_eq_nil_iff.1 (hafter.opened ▸ hopened))

/-- A guard that is a formula can be joined with conditions. -/
theorem Proof.returns_requireGuard {shape : Fact} (h : shape.Proper) {σ : Stance} :
    Returns (Induction.requireGuard shape) σ fun _ σ' => σ' = σ := by
  have hconjunction : Formula.conjunction [shape.guard] = .ok (.all [shape.guard]) := by
    simp [Formula.conjunction, h.guard]
  have hguard : (Formula.conjunction [shape.guard]).mapError
      (fun fault => Failure.fact (.form fault)) = .ok (.all [shape.guard]) := by
    rw [hconjunction]
    rfl
  refine ((returns_require hguard).returning ()).mono fun _ σ' h' => ?_
  obtain ⟨-, _, -, rfl⟩ := h'
  rfl

end CandyCircle
