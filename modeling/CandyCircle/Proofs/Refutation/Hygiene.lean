/-
**Names that quantifiers take.**

Conclusions quantify over constants of fixed names: `x` for what two-step induction concludes, `w1`
and `w2` for what well-founded induction concludes, and `j` for the statement that no child enters a
count.  If nothing that a caller passes mentions these names, a conclusion says what it is meant to
say.  Otherwise the quantifier takes the constant of the caller: a bound or a claim that mentions it
is then read with the value in question for that constant.  In particular a bound that is the
constant `x` bounds nothing.

Main results:

* `CandyCircle.Induction.satisfies_twoStepConclusion_iff`,
  `CandyCircle.Induction.satisfies_wellFoundedConclusion_iff`,
  `CandyCircle.Vocabulary.satisfies_noEntry_iff` — **what the conclusions say**, whatever they
  mention;
* `CandyCircle.Induction.satisfies_iff_of_unmentioned` — **what they are meant to say**, if nothing
  mentions the names that their quantifiers take;
* `CandyCircle.Induction.satisfies_twoStepConclusion_x` — a bound that is the constant `x`;
* `CandyCircle.Induction.not_satisfies_naturalFrom`, `CandyCircle.Induction.twoStep_naturalFrom_x` —
  a conclusion that is false although nothing was refused on the way to it.
-/
import CandyCircle.Proofs.Refutation.TwoStep
import CandyCircle.Proofs.Refutation.WellFounded
import CandyCircle.Proofs.Vocabulary

set_option autoImplicit false

namespace CandyCircle

open Logic

variable {I : Interpretation} {ρ : Valuation}

theorem Logic.Quantifier.over_append (xs ys : List Symbol) (p : Interpretation → Prop) :
    ∀ I : Interpretation, Quantifier.all.over (xs ++ ys) p I ↔
      Quantifier.all.over xs (Quantifier.all.over ys p) I := by
  induction xs with
  | nil => exact fun _ => Iff.rfl
  | cons s rest ih => exact fun I => forall_congr' fun v => ih (I.set s v)

/-- **A claim under further variables**, with a condition on these in front of its guard. -/
theorem Fact.satisfies_under {f : Fact} (claim : Fact) (xs : List Symbol)
    {q : Interpretation → Prop} (hvars : f.vars = xs ++ claim.vars) (hbody : f.body = claim.body)
    (hguard : ∀ J, Satisfies J ρ f.guard ↔ q J ∧ Satisfies J ρ claim.guard)
    (hq : Ignores q (· ∈ claim.vars)) :
    Satisfies I ρ f.formula ↔
      Quantifier.all.over xs (fun J => q J → Satisfies J ρ claim.formula) I := by
  rw [Fact.satisfies_formula, hvars, hbody, Quantifier.over_append]
  simp only [hguard]
  have hunder : Quantifier.all.over claim.vars
      (fun J => q J ∧ Satisfies J ρ claim.guard → Satisfies J ρ claim.body) =
        fun J => q J → Satisfies J ρ claim.formula :=
    funext fun J => propext (claim.over_guarded hq)
  rw [hunder]

/-- A claim about arguments of fixed values says the same wherever its own constants have the same
values. -/
theorem Fact.Reads.formula_of_agreeOn {τ β : Type} {value : τ → Interpretation → Valuation → β}
    {own : Symbol → Prop} {claim : τ → Fact} {J : Interpretation} {t : τ}
    (h : Reads value own claim) (ht : ∀ K L, value t K ρ = value t L ρ) (hIJ : I.AgreeOn own J) :
    Satisfies I ρ (claim t).formula ↔ Satisfies J ρ (claim t).formula :=
  h.formula_iff (fun K L _ => ht K L) (fun K L _ => ht K L) (hIJ.mono fun _ hs => hs.1) (ht I J)

/-- A constant that is not mentioned may be given any value. -/
theorem Logic.Interpretation.AgreeOn.set_unmentioned {own : Symbol → Prop} {s : Symbol}
    (hs : ¬ own s) (I : Interpretation) (v : s.kind.Value) : I.AgreeOn own (I.set s v) := by
  refine (Interpretation.AgreeOn.set I s v).mono ?_
  rintro s' hown rfl
  exact hs hown

theorem Logic.meaning_set_of_unmentioned {t : IntTerm} {name : String}
    (ht : ∀ s ∈ t.constants, s ≠ .int name) (v : Int) :
    (t.meaning (I.set (.int name) v) ρ : Int) = t.meaning I ρ := by
  refine meaning_congr t (Interpretation.AgreeOn.symm ?_) ρ
  exact .set_unmentioned (fun hname => ht _ hname rfl) I v

namespace Induction

/-! ### Two-step induction -/

section TwoStep

variable {claim : AnyTerm → Fact} {own : Symbol → Prop} {lower : AnyTerm}

/-- The value of an integer term. -/
noncomputable def intValue (t : IntTerm) (I : Interpretation) (ρ : Valuation) : Int :=
  t.meaning I ρ

/-- **What two-step induction concludes**, whatever it mentions: the bound and the claim are read
with the number in question for the constant `x`. -/
theorem satisfies_twoStepConclusion_iff (h : Fact.Reads intValue own fun t => claim (.int t))
    (hx : .int "x" ∉ (claim (.int (.int "x"))).vars)
    (hlower : ∀ s ∈ lower.toInt.constants, s ∉ (claim (.int (.int "x"))).vars) (name : String)
    (trigger : Option Trigger) :
    Satisfies I ρ (twoStepConclusion name lower (claim (.int (.int "x"))) trigger).formula ↔
      ∀ a : Int, intValue lower.toInt (I.set (.int "x") a) ρ ≤ a →
        Satisfies (I.set (.int "x") a) ρ (claim (.int (.num a))).formula := by
  let q (J : Interpretation) : Prop := intValue lower.toInt J ρ ≤ J.const .int "x"
  have hq : Ignores q (· ∈ (claim (.int (.int "x"))).vars) := by
    intro J K hJK
    have hbound : intValue lower.toInt J ρ = intValue lower.toInt K ρ :=
      ignores_meaning hlower ρ J K hJK
    have hvalue : (J.const .int "x" : Int) = K.const .int "x" := hJK.value (.int "x") hx
    simp only [q, hbound, hvalue]
  refine Iff.trans (Fact.satisfies_under (claim (.int (.int "x"))) [.int "x"] rfl rfl
    (fun J => ?_) hq) (forall_congr' fun a => ?_)
  · simp [twoStepConclusion, q, intValue]
  · have hvalue : ((I.set (.int "x") a).const .int "x" : Int) = a := I.value_set_self (.int "x") a
    refine imp_congr (by simp only [q, hvalue]) ?_
    have hterm : ∀ s ∈ (Term.int "x").constants, s ∉ (claim (.int (.int "x"))).vars :=
      List.forall_mem_singleton.2 hx
    exact h.formula_iff (ignores_meaning hterm ρ) (fun _ _ _ => rfl) (.refl _ _) hvalue

/-- A bound that is the constant `x` bounds nothing: the claim is concluded about all integers. -/
theorem satisfies_twoStepConclusion_x (h : Fact.Reads intValue own fun t => claim (.int t))
    (hx : .int "x" ∉ (claim (.int (.int "x"))).vars) (hown : ¬ own (.int "x")) (name : String)
    (trigger : Option Trigger) :
    Satisfies I ρ (twoStepConclusion name (.int (.int "x")) (claim (.int (.int "x")))
        trigger).formula ↔
      ∀ a : Int, Satisfies I ρ (claim (.int (.num a))).formula := by
  have hterm : ∀ s ∈ (AnyTerm.int (Term.int "x")).toInt.constants,
      s ∉ (claim (.int (.int "x"))).vars := by
    intro s hs
    rwa [List.mem_singleton.1 hs]
  rw [satisfies_twoStepConclusion_iff h hx hterm]
  refine forall_congr' fun a => ?_
  have hbound : intValue (AnyTerm.int (Term.int "x")).toInt (I.set (.int "x") a) ρ = a :=
    I.value_set_self (.int "x") a
  rw [hbound, imp_iff_right (Int.le_refl a)]
  exact (h.formula_of_agreeOn (t := .num a) (fun _ _ => rfl) (.set_unmentioned hown I a)).symm

end TwoStep

/-! ### Well-founded induction -/

section Pairs

variable {claim : Pair → Fact} {own : Symbol → Prop}

/-- **What well-founded induction concludes**, whatever it mentions: the claim is read with the
numbers in question for the constants `w1` and `w2`. -/
theorem satisfies_wellFoundedConclusion_iff (h : Fact.Reads pairValue own claim)
    (h1 : .int "w1" ∉ (claim (.named "w1" "w2")).vars)
    (h2 : .int "w2" ∉ (claim (.named "w1" "w2")).vars) (name : String) :
    Satisfies I ρ (wellFoundedConclusion name (claim (.named "w1" "w2"))).formula ↔
      ∀ a b : Int, 0 ≤ a → 0 ≤ b →
        Satisfies ((I.set (.int "w1") a).set (.int "w2") b) ρ (claim (.num a, .num b)).formula := by
  let q (J : Interpretation) : Prop := (0 : Int) ≤ J.const .int "w1" ∧ (0 : Int) ≤ J.const .int "w2"
  have hq : Ignores q (· ∈ (claim (.named "w1" "w2")).vars) := by
    intro J K hJK
    have h1 : J.const .int "w1" = K.const .int "w1" := hJK.value (.int "w1") h1
    have h2 : J.const .int "w2" = K.const .int "w2" := hJK.value (.int "w2") h2
    simp only [q, h1, h2]
  have hterms : ∀ s ∈ pairConstants (.named "w1" "w2"), s ∉ (claim (.named "w1" "w2")).vars :=
    List.forall_mem_cons.2 ⟨h1, List.forall_mem_singleton.2 h2⟩
  refine Iff.trans (Fact.satisfies_under (claim (.named "w1" "w2"))
    [.int "w1", .int "w2"] rfl rfl (fun J => ?_) hq)
    (forall_congr' fun (a : Int) => forall_congr' fun (b : Int) => ?_)
  · simp [wellFoundedConclusion, Pair.domain, Pair.named, q]
  · let J := (I.set (.int "w1") a).set (.int "w2") b
    have hw1 : (J.const .int "w1" : Int) = a := by simp [J]
    have hw2 : (J.const .int "w2" : Int) = b := by simp [J]
    have hread : Satisfies J ρ (claim (.named "w1" "w2")).formula ↔
        Satisfies J ρ (claim (.num a, .num b)).formula :=
      h.formula_iff (ignores_pairValue hterms ρ) (fun _ _ _ => rfl) (.refl _ J)
        (Prod.ext hw1 hw2)
    have hnatural : q J ↔ 0 ≤ a ∧ 0 ≤ b := by simp only [q, hw1, hw2]
    exact (imp_congr hnatural hread).trans and_imp

end Pairs

end Induction

/-! ### Children that enter a count -/

/-- **That no child enters a count**, whatever it mentions: the count and the steps are read with
the child in question for the constant `j`. -/
theorem Vocabulary.satisfies_noEntry_iff {n k k2 : IntTerm} :
    Satisfies I ρ (noEntry n k k2) ↔ ∀ j : Int, (Course.of I).IsChild j →
      (Course.of I).held j (k.meaning (I.set (.int "j") j) ρ) ≠
          n.meaning (I.set (.int "j") j) ρ →
        (Course.of I).held j (k2.meaning (I.set (.int "j") j) ρ) ≠
          n.meaning (I.set (.int "j") j) ρ := by
  simp [noEntry, noEntryFact, Fact.about, Fact.satisfies_formula]

namespace Induction

/-! ### What nothing mentions -/

/-- **The conclusions say what they are meant to say** if nothing that they are built from mentions
the names that their quantifiers take: two-step induction concludes the claim about every integer
from the value of the bound on, well-founded induction concludes it about all pairs of natural
numbers, and no child enters the count in question between the steps in question. -/
theorem satisfies_iff_of_unmentioned (I : Interpretation) (ρ : Valuation) :
    (∀ (claim : AnyTerm → Fact) (own : Symbol → Prop) (lower : AnyTerm) (name : String)
        (trigger : Option Trigger), (Fact.Reads intValue own fun t => claim (.int t)) →
      ¬ own (.int "x") → .int "x" ∉ (claim (.int (.int "x"))).vars →
      (∀ s ∈ lower.toInt.constants, s ∉ .int "x" :: (claim (.int (.int "x"))).vars) →
        (Satisfies I ρ
            (twoStepConclusion name lower (claim (.int (.int "x"))) trigger).formula ↔
          ∀ a : Int, intValue lower.toInt I ρ ≤ a →
            Satisfies I ρ (claim (.int (.num a))).formula)) ∧
    (∀ (claim : Pair → Fact) (own : Symbol → Prop) (name : String),
      Fact.Reads pairValue own claim →
      (∀ s ∈ [Symbol.int "w1", .int "w2"], ¬ own s ∧ s ∉ (claim (.named "w1" "w2")).vars) →
        (Satisfies I ρ (wellFoundedConclusion name (claim (.named "w1" "w2"))).formula ↔
          ∀ a b : Int, 0 ≤ a → 0 ≤ b → Satisfies I ρ (claim (.num a, .num b)).formula)) ∧
    ∀ n k k2 : IntTerm, (∀ s ∈ n.constants ++ k.constants ++ k2.constants, s ≠ .int "j") →
      (Satisfies I ρ (Vocabulary.noEntry n k k2) ↔
        (Course.of I).NoEntry (intValue n I ρ) (intValue k I ρ) (intValue k2 I ρ)) := by
  refine ⟨?_, ?_, ?_⟩
  · intro claim own lower name trigger h hown hx hlower
    rw [satisfies_twoStepConclusion_iff h hx fun s hs hvar =>
      hlower s hs (List.mem_cons_of_mem _ hvar)]
    refine forall_congr' fun a => imp_congr (iff_of_eq (congrArg (· ≤ a) ?_)) ?_
    · exact meaning_set_of_unmentioned (fun s hs hsx => hlower s hs (hsx ▸ List.mem_cons_self)) a
    · exact (h.formula_of_agreeOn (t := .num a) (fun _ _ => rfl)
        (.set_unmentioned hown I a)).symm
  · intro claim own name h hw
    obtain ⟨⟨hown1, hvar1⟩, hw2⟩ := List.forall_mem_cons.1 hw
    obtain ⟨hown2, hvar2⟩ := List.forall_mem_singleton.1 hw2
    rw [satisfies_wellFoundedConclusion_iff h hvar1 hvar2]
    refine forall_congr' fun a => forall_congr' fun b => imp_congr_right fun _ =>
      imp_congr_right fun _ => ?_
    refine (h.formula_of_agreeOn (t := (.num a, .num b)) (fun _ _ => rfl) ?_).symm
    exact (Interpretation.AgreeOn.set_unmentioned hown1 I a).trans (.set_unmentioned hown2 _ b)
  · intro n k k2 hj
    simp only [List.forall_mem_append] at hj
    exact Vocabulary.satisfies_noEntry (meaning_set_of_unmentioned hj.1.1)
      (meaning_set_of_unmentioned hj.1.2) (meaning_set_of_unmentioned hj.2)

/-! ### Natural numbers from a constant on -/

/-- Every constant is zero or false, and so is every value of a function. -/
def nought : Interpretation where
  const kind _ := kind.filler
  func kind _ _ := kind.filler
  divZero _ := 0
  modZero _ := 0

/-- Values for bound variables that are zero or false. -/
def noughts : Valuation := fun kind _ => kind.filler

/-- An integer is a natural number. -/
def natural (t : AnyTerm) : Fact :=
  .plain "natural" (.atLeast t.toInt 0)

/-- The conclusion that every integer from a constant on is a natural number. -/
def naturalFrom (name : String) : Fact :=
  twoStepConclusion "natural" (.int (.int name)) (natural (.int (.int "x"))) none

theorem reads_natural : Fact.Reads intValue (fun _ => False) fun t => natural (.int t) where
  vars _ _ := rfl
  guard _ _ := id
  body := by
    intro t t' I J ρ _ hvalue hI
    have hI : 0 ≤ intValue t I ρ := hI
    rw [hvalue] at hI
    exact hI

theorem satisfies_natural {t : IntTerm} :
    Satisfies I ρ (natural (.int t)).formula ↔ 0 ≤ intValue t I ρ := by
  simp [natural, Fact.plain, Fact.satisfies_formula, AnyTerm.toInt, AnyTerm.int, intValue]

/-- Where the constants are zero, such conclusions are true as long as nothing is mentioned that
their quantifiers take. -/
theorem satisfies_naturalFrom :
    Satisfies nought noughts (naturalFrom "y").formula ∧
      Satisfies nought noughts
        (wellFoundedConclusion "sum" (Proof.sumOfFour (.named "w1" "w2"))).formula ∧
      Satisfies nought noughts (Vocabulary.noEntry (.int "n") (.int "k") (.int "k2")) := by
  obtain ⟨htwoStep, hpairs, hentry⟩ := satisfies_iff_of_unmentioned nought noughts
  refine ⟨?_, ?_, ?_⟩
  · refine (htwoStep natural _ (.int (.int "y")) "natural" none reads_natural id (by decide)
      (by decide)).2 fun a ha => satisfies_natural.2 ha
  · refine (hpairs Proof.sumOfFour _ "sum" Proof.reads_sumOfFour (by decide)).2
      fun a b ha hb => ?_
    have hsum : ∀ n : Int, 0 ≤ n → 0 ≤ a + b + (n + 0) := fun n hn => by omega
    simpa [Proof.sumOfFour, Fact.about, Fact.satisfies_formula, nought, Kind.filler] using hsum
  · refine (hentry _ _ _ (by decide)).2 fun j hj => ?_
    have hnone : ¬ (1 : Int) ≤ 0 := by decide
    exact absurd (Int.le_trans hj.1 hj.2) hnone

/-- Where `x` is zero every integer from `x` on is a natural number, but the conclusion is false
there, as it is everywhere. -/
theorem not_satisfies_naturalFrom :
    (∀ a : Int, intValue (.int "x") nought noughts ≤ a →
        Satisfies nought noughts (natural (.int (.num a))).formula) ∧
      ¬ Satisfies nought noughts (naturalFrom "x").formula ∧
      Unsatisfiable [(naturalFrom "x").formula] := by
  have hfalse (I : Interpretation) (ρ : Valuation) : ¬ Satisfies I ρ (naturalFrom "x").formula := by
    rw [naturalFrom, satisfies_twoStepConclusion_x reads_natural (by decide) id]
    intro h
    have hnegative : (0 : Int) ≤ -1 := by simpa [intValue] using satisfies_natural.1 (h (-1))
    exact absurd hnegative (by decide)
  refine ⟨fun a ha => satisfies_natural.2 ha, hfalse _ _, fun I ρ h => ?_⟩
  exact hfalse I ρ (h _ (List.mem_singleton.2 rfl))

/-- The state after it was assumed that `x` is a natural number. -/
def xNatural : Context :=
  (Context.start (Settings.options {}) []).assertInside
    { formula := .atLeast (.int "x") 0, label := "x >= 0" }

/-- Two-step induction from `x` on. -/
def inductionFromX : ProofM Fact :=
  Proof.twoStepAsking "natural" natural (.int "x") (fun _ => []) (fun _ _ _ _ => []) none

theorem unsatisfiable_baseQuery_x : Unsatisfiable
    (xNatural.view.baseQuery "natural" natural (.int "x") fun _ => []).2.formulas := by
  refine View.unsatisfiable_refutes (fun I ρ h => ?_) []
  exact h _ List.mem_cons_self

theorem unsatisfiable_stepQuery_x : Unsatisfiable
    (xNatural.view.stepQuery "natural" natural (.int "x") fun _ _ _ _ => []).2.formulas := by
  refine View.unsatisfiable_refutes (fun I ρ h => ?_) []
  rw [View.formulas_steppingIn] at h
  obtain ⟨-, hassumed⟩ := List.forall_mem_append.1 h
  obtain ⟨-, hnext, hclaim⟩ :=
    (satisfies_stepAssertions "natural" natural _).1 (List.forall_mem_map.1 hassumed)
  have hstep := satisfies_natural.1 hclaim
  rw [successorCase, Fact.satisfies_renamed, satisfies_natural, intValue, hnext]
  exact Int.add_nonneg hstep (by decide)

/-- **Two-step induction from `x` on** concludes what is false everywhere, although neither of its
queries has a model. -/
theorem twoStep_naturalFrom_x :
    let p := Proof.outcome inductionFromX xNatural
    (∃ xs, xNatural.Heard p.2 xs ∧ xs.length = 2 ∧
        ∀ x ∈ xs, Unsatisfiable x.question.formulas) ∧
      p.1 = .ok (naturalFrom "x") ∧ p.2.committed = ["natural"] := by
  intro p
  have hcommitted : p.2.committed = ["natural"] := by decide +kernel
  have hasks := Proof.runs_twoStepAsking xNatural.view "natural" natural (.int "x") (fun _ => [])
    (fun _ _ _ _ => []) none xNatural ⟨rfl, rfl, rfl, rfl, rfl, rfl⟩
  have hout : Proof.outcome inductionFromX xNatural = p := rfl
  rw [inductionFromX] at hout
  rw [Proof.Asks, hout] at hasks
  clear_value p
  obtain ⟨r, c'⟩ := p
  cases r with
  | error e =>
      -- what fails commits nothing
      rw [show c'.committed = [] from hasks.2.committed] at hcommitted
      cases hcommitted
  | ok f =>
      obtain ⟨xs, hheard, hxs, -, V', -, rfl, -⟩ := hasks
      refine ⟨⟨xs, hheard, ?_, fun x hx => ?_⟩, rfl, hcommitted⟩
      · rw [← List.length_map (f := Exchange.query), hxs]
        rfl
      · have hquery : x.query ∈ xs.map Exchange.query := List.mem_map.2 ⟨x, hx, rfl⟩
        rw [hxs] at hquery
        rw [show x.question = x.query.2 from rfl]
        rcases List.mem_cons.1 hquery with hquery | hquery
        · rw [hquery]
          exact unsatisfiable_baseQuery_x
        · rw [List.mem_singleton.1 hquery]
          exact unsatisfiable_stepQuery_x

end Induction

end CandyCircle
