/-
**Two-step induction is sound and complete.**

The two queries of two-step induction have no model exactly if what it concludes follows from what
is active: the claim about every integer from the lower bound on.  One direction is induction, from
a bound that may be any term; the other one says that the scheme asks for nothing that does not
follow, so that it is not the scheme that fails if one of its queries has a model.

The claim may have variables and a guard of its own, both of which may depend on the integer.  It
has to be one claim about all integers: what it says of a term is what it says of `x`, with the term
in place of `x`.

Main definitions:

* `CandyCircle.Induction.Substituted` — the claim about a term is that about `x`, with the term in
  its place;
* `CandyCircle.Induction.Apart` — variables, lower bound and fresh constants do not clash;
* `CandyCircle.View.baseQuery`, `CandyCircle.View.stepQuery` — the queries of the scheme.

Main results:

* `CandyCircle.Induction.Substituted.unsatisfiable_queries_iff` — **both queries have no model
  exactly if the conclusion follows**;
* `CandyCircle.Proof.twoStep_faithful` — two-step induction asks these queries, and concludes only
  what follows.
-/
import CandyCircle.Proofs.Logic.Constants
import CandyCircle.Proofs.Refutation.Faithful
import CandyCircle.Proofs.Refutation.Families

set_option autoImplicit false

namespace CandyCircle

open Logic

namespace Induction

/-! ### Claims about every integer -/

/-- What a claim says of a term is what it says of `x`, with the term in place of `x`. -/
structure Substituted (claim : AnyTerm → Fact) : Prop where
  vars : ∀ t : IntTerm, (claim (.int t)).vars = (claim (.int (.int "x"))).vars
  guard : ∀ (t : IntTerm) (I : Interpretation) (ρ : Valuation),
    Satisfies I ρ (claim (.int t)).guard ↔
      Satisfies I ρ ((claim (.int (.int "x"))).guard.substitute [⟨.int "x", t⟩])
  body : ∀ (t : IntTerm) (I : Interpretation) (ρ : Valuation),
    Satisfies I ρ (claim (.int t)).body ↔
      Satisfies I ρ ((claim (.int (.int "x"))).body.substitute [⟨.int "x", t⟩])

/-- A claim is true of an integer. -/
def TrueOf (claim : AnyTerm → Fact) (I : Interpretation) (ρ : Valuation) (v : Int) : Prop :=
  Satisfies (I.set (.int "x") v) ρ (claim (.int (.int "x"))).formula

/-- The constants that a claim mentions besides its argument. -/
def Own (claim : AnyTerm → Fact) (s : Symbol) : Prop :=
  s ≠ .int "x" ∧
    s ∈ (claim (.int (.int "x"))).guard.constants ++ (claim (.int (.int "x"))).body.constants

/-- The variables of a claim are none of the constants that stand for integers, and nothing mentions
fresh constants from a number on. -/
structure Apart (claim : AnyTerm → Fact) (lower : IntTerm) (n : Nat) : Prop where
  x_not_mem : .int "x" ∉ (claim (.int (.int "x"))).vars
  /-- Neither `x` nor a variable is mentioned by the lower bound. -/
  lower_clear : ∀ s ∈ lower.constants, s ∉ .int "x" :: (claim (.int (.int "x"))).vars
  vars_old : ∀ s ∈ (claim (.int (.int "x"))).vars, ¬ Fresh n s
  own_old : ∀ s, Own claim s → ¬ Fresh n s
  lower_old : Predates n lower

section Claims

variable {claim : AnyTerm → Fact} {lower : IntTerm} {n : Nat} {I J : Interpretation}
  {ρ : Valuation}

/-- Such a claim reads a term only through its value. -/
theorem Substituted.reads (h : Substituted claim) :
    Fact.Reads (fun (t : IntTerm) I ρ => (t.meaning I ρ : Int)) (Own claim)
      fun t => claim (.int t) := by
  have hmeaning {e : Formula} {I J : Interpretation} {t t' : IntTerm} {ρ : Valuation}
      (he : ∀ s ∈ e.constants, s ≠ .int "x" → Own claim s) (hIJ : I.AgreeOn (Own claim) J)
      (hvalue : (t.meaning I ρ : Int) = t'.meaning J ρ)
      (hI : Satisfies I ρ (e.substitute [⟨.int "x", t⟩])) :
      Satisfies J ρ (e.substitute [⟨.int "x", t'⟩]) := by
    -- once `x` has the common value, everything that the formula mentions has the same value
    have hset : (I.set (.int "x") (t.meaning I ρ)).AgreeOn (· ∈ e.constants)
        (J.set (.int "x") (t'.meaning J ρ)) := by
      have := (hIJ.mono fun s hs => he s hs.2 hs.1).set_both (x := .int "x") (t'.meaning J ρ)
      rwa [← hvalue] at this ⊢
    rw [Satisfies, meaning_substitute, Interpretation.assigned_cons_int,
      Interpretation.assigned_nil] at hI ⊢
    rwa [← meaning_congr _ hset]
  refine ⟨fun t t' => (h.vars t).trans (h.vars t').symm, ?_, ?_⟩
  · intro t t' I J ρ hIJ hvalue hI
    rw [h.guard] at hI ⊢
    exact hmeaning (fun s hs hx => ⟨hx, List.mem_append_left _ hs⟩) hIJ hvalue hI
  · intro t t' I J ρ hIJ hvalue hI
    rw [h.body] at hI ⊢
    exact hmeaning (fun s hs hx => ⟨hx, List.mem_append_right _ hs⟩) hIJ hvalue hI

/-- **A claim about a term is true of its value**, also where fresh constants have other values. -/
theorem Substituted.satisfies_iff (h : Substituted claim) (ha : Apart claim lower n) {t : IntTerm}
    (ht : ∀ s ∈ t.constants, s ∉ (claim (.int (.int "x"))).vars)
    (hIJ : I.AgreeOn (¬ Fresh n ·) J) :
    Satisfies J ρ (claim (.int t)).formula ↔ TrueOf claim I ρ (t.meaning J ρ) := by
  have hx : ∀ s ∈ (Term.int "x").constants, s ∉ (claim (.int (.int "x"))).vars :=
    List.forall_mem_singleton.2 ha.x_not_mem
  unfold TrueOf
  refine h.reads.formula_iff ?_ (ignores_meaning hx ρ) ?_ ?_
  · rw [h.vars t]
    exact ignores_meaning ht ρ
  · refine (hIJ.symm.mono fun s hs => ha.own_old s hs.1).trans ?_
    exact (Interpretation.AgreeOn.set I (.int "x") _).mono fun s hs => hs.1.1
  · exact (I.value_set_self (.int "x") _).symm

/-- **What two-step induction concludes**: the claim about every integer from the bound on. -/
theorem satisfies_twoStepConclusion (ha : Apart claim lower n) (name : String)
    (trigger : Option Trigger) :
    Satisfies I ρ (twoStepConclusion name (.int lower) (claim (.int (.int "x"))) trigger).formula ↔
      ∀ v : Int, lower.meaning I ρ ≤ v → TrueOf claim I ρ v := by
  have hlower (v : Int) : (lower.meaning (I.set (.int "x") v) ρ : Int) = lower.meaning I ρ := by
    refine meaning_congr lower ((Interpretation.AgreeOn.set I (.int "x") v).symm.mono ?_) ρ
    rintro s hs rfl
    exact ha.lower_clear _ hs List.mem_cons_self
  have hignores : Ignores (fun J => (lower.meaning J ρ : Int) ≤ J.const .int "x")
      (· ∈ (claim (.int (.int "x"))).vars) := by
    intro J K hJK
    have hbound : (lower.meaning J ρ : Int) = lower.meaning K ρ :=
      meaning_congr lower (hJK.mono fun s hs hvar =>
        ha.lower_clear s hs (List.mem_cons_of_mem _ hvar)) ρ
    have hx : (J.const .int "x" : Int) = K.const .int "x" := hJK.value (.int "x") ha.x_not_mem
    simp only [hbound, hx]
  have hguard (J : Interpretation) :
      Satisfies J ρ (.all [.compare .ge (.int "x") lower, (claim (.int (.int "x"))).guard]) ↔
        (lower.meaning J ρ : Int) ≤ J.const .int "x" ∧
          Satisfies J ρ (claim (.int (.int "x"))).guard := by
    simp
  rw [Fact.satisfies_formula]
  change (∀ v : Int, Quantifier.all.over (claim (.int (.int "x"))).vars
    (fun J => Satisfies J ρ (.all [.compare .ge (.int "x") lower,
      (claim (.int (.int "x"))).guard]) → Satisfies J ρ (claim (.int (.int "x"))).body)
    (I.set (.int "x") v)) ↔ _
  simp only [hguard]
  refine forall_congr' fun v => (Fact.over_guarded _ hignores).trans (imp_congr_left ?_)
  have hx : ((I.set (.int "x") v).const .int "x" : Int) = v := I.value_set_self (.int "x") v
  exact iff_of_eq (congrArg₂ (· ≤ ·) (hlower v) hx)

theorem Apart.mono (ha : Apart claim lower n) {m : Nat} (h : n ≤ m) : Apart claim lower m where
  x_not_mem := ha.x_not_mem
  lower_clear := ha.lower_clear
  vars_old s hs hm := ha.vars_old s hs (hm.mono h)
  own_old s hs hm := ha.own_old s hs (hm.mono h)
  lower_old s hs hm := ha.lower_old s hs (hm.mono h)

theorem Apart.fresh_clear (ha : Apart claim lower n) {stem : String} {number : Nat}
    (h : n ≤ number) : ∀ s ∈ (Term.int (Context.freshName stem number)).constants,
      s ∉ (claim (.int (.int "x"))).vars := by
  refine List.forall_mem_singleton.2 fun hvar => ha.vars_old _ hvar ⟨stem, number, h, rfl⟩

theorem Substituted.settled (h : Substituted claim) (ha : Apart claim lower n) {t : IntTerm}
    {m : Nat} (hm : n ≤ m) (ht : Predates m t) (name : String) :
    ((claim (.int t)).renamed name).Settled m := by
  have hsettled := h.reads.settled (t := t) (fun s hs hfresh => ha.own_old s hs (hfresh.mono hm))
    fun ρ => ignores_meaning ht ρ
  exact ⟨hsettled.guard, hsettled.body⟩

end Claims

end Induction

open Induction

/-! ### The queries -/

/-- The hints for the successor step, as the constant of a number. -/
def Induction.hintsAt (name : String) (claim : AnyTerm → Fact)
    (hints : IntTerm → IntTerm → Fact → List Symbol → List Formula) (n : Nat) : List Formula :=
  hints (stepTerm n) (nextTerm n) (hypothesis name claim n)
    ((successorCase name claim n).witnesses (n + 2))

namespace View

variable (V : View) (name : String) (claim : AnyTerm → Fact) (lower : IntTerm)

/-- The query of the base case. -/
def baseQuery (hints : List Symbol → List Formula) : Query :=
  let base := baseCase name claim (.int lower)
  V.refutes base [] (hints (base.witnesses V.issued))

/-- The number of the constant that stands for a step. -/
def stepNumber : Nat :=
  V.issued + (claim (.int lower)).vars.length

/-- The view inside the layer of the successor step. -/
def steppingIn : View :=
  V.stepping name claim (.int lower) (V.stepNumber claim lower)

/-- The query of the successor step. -/
def stepQuery (hints : IntTerm → IntTerm → Fact → List Symbol → List Formula) : Query :=
  (V.steppingIn name claim lower).refutes (successorCase name claim (V.stepNumber claim lower)) []
    (hintsAt name claim hints (V.stepNumber claim lower))

theorem formulas_steppingIn : (V.steppingIn name claim lower).formulas = V.formulas ++
    (stepAssertions name claim (.int lower) (V.stepNumber claim lower)).map Assertion.formula := by
  simp [formulas, steppingIn, stepping]

end View

namespace Induction

variable {claim : AnyTerm → Fact} {lower : IntTerm} {n : Nat} {name : String}

theorem Substituted.settled_stepAssertions (h : Substituted claim) (ha : Apart claim lower n) :
    ∀ a ∈ stepAssertions name claim (.int lower) n, Settled (n + 2) a.formula := by
  have hk : ¬ Fresh (n + 2) (.int (Context.freshName "k" n)) := not_fresh_of_lt (by omega) _ _
  have hnext : ¬ Fresh (n + 2) (.int (Context.freshName "k_next" (n + 1))) :=
    not_fresh_of_lt (by omega) _ _
  simp only [stepAssertions, List.forall_mem_cons, List.not_mem_nil, false_implies, implies_true,
    and_true]
  refine ⟨?_, ?_, ?_⟩
  · refine settled_of_constants fun s hs => ?_
    rcases mem_constants_compare.1 hs with hs | hs
    · rw [List.mem_singleton.1 hs]
      exact hk
    · exact fun hfresh => ha.lower_old s hs (hfresh.mono (by omega))
  · refine settled_of_constants ?_
    exact List.forall_mem_cons.2 ⟨hnext, List.forall_mem_singleton.2 hk⟩
  · intro I J ρ hIJ hI
    have hJ : I.AgreeOn (¬ Fresh n ·) J := hIJ.mono fun s hs hs' => hs (hs'.mono (by omega))
    have hclear : ∀ s ∈ (stepTerm n).constants, s ∉ (claim (.int (.int "x"))).vars :=
      ha.fresh_clear (Nat.le_refl n)
    have hvalue : ((stepTerm n).meaning I ρ : Int) = (stepTerm n).meaning J ρ := hIJ.value _ hk
    rw [hypothesis, Fact.assertion, Fact.satisfies_renamed] at hI ⊢
    rw [h.satisfies_iff ha hclear (.refl _ I), hvalue] at hI
    rwa [h.satisfies_iff ha hclear hJ]

/-- **The query of the base case has no model** exactly if the claim is true of the lower bound
wherever everything active is. -/
theorem Substituted.unsatisfiable_baseQuery_iff {V : View} {hints : List Symbol → List Formula}
    (h : Substituted claim) (ha : Apart claim lower V.issued)
    (hactive : ∀ f ∈ V.formulas, Settled V.issued f)
    (hhints : ∀ e ∈ hints ((baseCase name claim (.int lower)).witnesses V.issued),
      Entails (V.formulas ++ [V.guard (baseCase name claim (.int lower)),
        .not (V.body (baseCase name claim (.int lower)))]) e) :
    Unsatisfiable (V.baseQuery name claim lower hints).2.formulas ↔
      ∀ I ρ, (∀ f ∈ V.formulas, Satisfies I ρ f) → TrueOf claim I ρ (lower.meaning I ρ) := by
  have hsettled := h.settled ha (Nat.le_refl _) ha.lower_old (name ++ "/base")
  refine (View.unsatisfiable_refutes_iff hactive hsettled hhints).trans ?_
  refine forall_congr' fun I => forall_congr' fun ρ => imp_congr_right fun _ => ?_
  refine (Fact.satisfies_renamed _ _).trans (h.satisfies_iff ha (fun s hs hvar => ?_) (.refl _ I))
  exact ha.lower_clear s hs (List.mem_cons_of_mem _ hvar)

/-- **The query of the successor step has no model** exactly if the claim is true of the successor
of every integer from the lower bound on of which it is true, wherever everything active is. -/
theorem Substituted.unsatisfiable_stepQuery_iff {V : View}
    {hints : IntTerm → IntTerm → Fact → List Symbol → List Formula}
    (h : Substituted claim) (ha : Apart claim lower V.issued)
    (hactive : ∀ f ∈ V.formulas, Settled V.issued f)
    (hhints : let W := V.steppingIn name claim lower
      let successor := successorCase name claim (V.stepNumber claim lower)
      ∀ e ∈ hintsAt name claim hints (V.stepNumber claim lower),
        Entails (W.formulas ++ [W.guard successor, .not (W.body successor)]) e) :
    Unsatisfiable (V.stepQuery name claim lower hints).2.formulas ↔
      ∀ I ρ, (∀ f ∈ V.formulas, Satisfies I ρ f) → ∀ v : Int, lower.meaning I ρ ≤ v →
        TrueOf claim I ρ v → TrueOf claim I ρ (v + 1) := by
  let n := V.stepNumber claim lower
  have ha' : Apart claim lower n := ha.mono (Nat.le_add_right _ _)
  have hn : V.issued ≤ n := Nat.le_add_right _ _
  have hactive' : ∀ f ∈ V.formulas, Settled n f := fun f hf => Settled.mono (hactive f hf) hn
  have hassumed : ∀ f ∈ (V.steppingIn name claim lower).formulas, Settled (n + 2) f := by
    rw [View.formulas_steppingIn]
    refine List.forall_mem_append.2 ⟨fun f hf => ?_, ?_⟩
    · exact Settled.mono (hactive' f hf) (Nat.le_add_right n 2)
    · exact List.forall_mem_map.2 (h.settled_stepAssertions ha')
  have hsettled := h.settled (t := nextTerm n) ha' (Nat.le_add_right n 2)
    (List.forall_mem_singleton.2 (not_fresh_of_lt (by omega) _ _)) (name ++ "/step")
  have hk : ∀ s ∈ (stepTerm n).constants, s ∉ (claim (.int (.int "x"))).vars :=
    ha'.fresh_clear (Nat.le_refl n)
  have hnext : ∀ s ∈ (nextTerm n).constants, s ∉ (claim (.int (.int "x"))).vars :=
    ha'.fresh_clear (Nat.le_succ n)
  -- what the layer assumes, and what is to be shown there, in terms of integers
  have hstepIff {I J : Interpretation} {ρ : Valuation} (hJ : I.AgreeOn (¬ Fresh n ·) J) :
      (∀ f ∈ (stepAssertions name claim (.int lower) n).map Assertion.formula, Satisfies J ρ f) ↔
        (lower.meaning I ρ : Int) ≤ (stepTerm n).meaning J ρ ∧
          ((nextTerm n).meaning J ρ : Int) = (stepTerm n).meaning J ρ + 1 ∧
            TrueOf claim I ρ ((stepTerm n).meaning J ρ) := by
    have hlower : (lower.meaning I ρ : Int) = lower.meaning J ρ :=
      meaning_congr lower (hJ.mono fun s hs => ha'.lower_old s hs) ρ
    rw [List.forall_mem_map, satisfies_stepAssertions, hlower, h.satisfies_iff ha' hk hJ]
    rfl
  have hsuccIff {I J : Interpretation} {ρ : Valuation} (hJ : I.AgreeOn (¬ Fresh n ·) J) :
      Satisfies J ρ (successorCase name claim n).formula ↔
        TrueOf claim I ρ ((nextTerm n).meaning J ρ) :=
    (Fact.satisfies_renamed _ _).trans (h.satisfies_iff ha' hnext hJ)
  refine (View.unsatisfiable_refutes_iff hassumed hsettled hhints).trans ?_
  simp only [Entails, View.formulas_steppingIn, List.forall_mem_append]
  constructor
  · intro hentails I ρ hI v hv hclaim
    -- the constants for the step and its successor take the integer and the next one as values
    obtain ⟨J, hJ, hkJ, hnextJ⟩ := exists_step I ρ n v
    have hactiveJ : ∀ f ∈ V.formulas, Satisfies J ρ f := fun f hf => hactive' f hf hJ (hI f hf)
    have hassumedJ := (hstepIff hJ).2 (by rw [hkJ, hnextJ]; exact ⟨hv, rfl, hclaim⟩)
    have hsucc := (hsuccIff hJ).1 (hentails J ρ ⟨hactiveJ, hassumedJ⟩)
    rwa [hnextJ] at hsucc
  · rintro hstep I ρ ⟨hI, hassumed⟩
    obtain ⟨hlow, hnextI, hclaim⟩ := (hstepIff (.refl _ I)).1 hassumed
    refine (hsuccIff (.refl _ I)).2 ?_
    rw [hnextI]
    exact hstep I ρ hI _ hlow hclaim

/-- **The queries of two-step induction have no model exactly if its conclusion follows** from what
is active. -/
theorem Substituted.unsatisfiable_queries_iff {V : View} {baseHints : List Symbol → List Formula}
    {stepHints : IntTerm → IntTerm → Fact → List Symbol → List Formula}
    (h : Substituted claim) (ha : Apart claim lower V.issued)
    (hactive : ∀ f ∈ V.formulas, Settled V.issued f)
    (hbase : ∀ e ∈ baseHints ((baseCase name claim (.int lower)).witnesses V.issued),
      Entails (V.formulas ++ [V.guard (baseCase name claim (.int lower)),
        .not (V.body (baseCase name claim (.int lower)))]) e)
    (hstep : let W := V.steppingIn name claim lower
      let successor := successorCase name claim (V.stepNumber claim lower)
      ∀ e ∈ hintsAt name claim stepHints (V.stepNumber claim lower),
        Entails (W.formulas ++ [W.guard successor, .not (W.body successor)]) e)
    (trigger : Option Trigger) :
    (Unsatisfiable (V.baseQuery name claim lower baseHints).2.formulas ∧
        Unsatisfiable (V.stepQuery name claim lower stepHints).2.formulas) ↔
      Entails V.formulas
        (twoStepConclusion name (.int lower) (claim (.int (.int "x"))) trigger).formula := by
  rw [h.unsatisfiable_baseQuery_iff ha hactive hbase,
    h.unsatisfiable_stepQuery_iff ha hactive hstep]
  simp only [Entails, satisfies_twoStepConclusion ha]
  constructor
  · rintro ⟨hbase, hstep⟩ I ρ hI v hv
    -- induction from the lower bound on
    induction v, hv using Int.leInduction with
    | base => exact hbase I ρ hI
    | succ v hv ih => exact hstep I ρ hI v hv ih
  · intro hall
    refine ⟨fun I ρ hI => hall I ρ hI _ (Int.le_refl _), fun I ρ hI v hv _ => ?_⟩
    exact hall I ρ hI (v + 1) (Int.le_add_one hv)

/-! ### Being accepted -/

variable {σ : Stance} {hs : List Formula} {r r₁ r₂ : Reply}

/-- Nothing is refused in the layer of the successor step, and the solver replies. -/
structure AcceptsStep (σ : Stance) (name : String) (claim : AnyTerm → Fact) (lower : IntTerm)
    (hs : List Formula) (r : Reply) : Prop where
  numbered : σ.Numbered
  proper : ∀ t : IntTerm, (claim (.int t)).Proper
  mentions : Fact.Mentions Expr.constants (Own claim) fun t : IntTerm => claim (.int t)
  own : ∀ s, Own claim s → s.name ∉ σ.retired
  lower : ∀ s ∈ lower.constants, s.name ∉ σ.retired
  /-- The claim about the step can be quantified. -/
  quantified : (hypothesis name claim σ.issued).fault? = none
  hints : ∀ e ∈ hs, σ.Admits e
  reply : σ.reply = .ok r

section AcceptsStep

variable (h : AcceptsStep σ name claim lower hs r)

include h

theorem AcceptsStep.admits :
    ∀ a ∈ stepAssertions name claim (.int lower) σ.issued, σ.Admits a.formula := by
  have hk : (Context.freshName "k" σ.issued) ∉ σ.retired := h.numbered.not_retired (Nat.le_refl _) _
  have hnext : (Context.freshName "k_next" (σ.issued + 1)) ∉ σ.retired :=
    h.numbered.not_retired (Nat.le_succ _) _
  simp only [stepAssertions, List.forall_mem_cons, List.not_mem_nil, false_implies, implies_true,
    and_true]
  refine ⟨fun s hs => ?_, ?_, fun s hs => ?_⟩
  · rcases mem_constants_compare.1 hs with hs | hs
    · rw [List.mem_singleton.1 hs]
      exact hk
    · exact h.lower s hs
  · exact List.forall_mem_cons.2 ⟨hnext, List.forall_mem_singleton.2 hk⟩
  · have hs := Fact.mem_constants_formula (f := hypothesis name claim σ.issued) hs
    rcases h.mentions (stepTerm σ.issued) s hs with hs | hs
    · exact h.own s hs
    · rw [List.mem_singleton.1 hs]
      exact hk

end AcceptsStep

end Induction

namespace Proof

variable {name : String} {claim : AnyTerm → Fact} {lower : IntTerm} {σ : Stance}
  {hs : List Formula} {r : Reply}

/-! ### The operations of the scheme -/

theorem returns_declareStep : Returns (declareStep "k") σ.push fun step σ' =>
    (∃ layer, step = .ofInts (stepTerm σ.issued) (nextTerm σ.issued) layer) ∧
      σ' = σ.fixing "k" "k_next" := by
  refine Returns.fixing ((returns_look _).bind fun layer σ₁ h => ?_)
  obtain ⟨-, rfl⟩ := h
  refine (returns_pure _).mono fun step σ₁ h => ?_
  exact ⟨⟨layer, h.1⟩, h.2⟩

/-- A step is fixed if what is assumed about it is not refused. -/
theorem returns_fixStep (h : AcceptsStep σ name claim lower hs r) :
    Returns (fixStep name claim (.int lower)) σ.push fun step σ' =>
      (∃ layer, step = .ofInts (stepTerm σ.issued) (nextTerm σ.issued) layer) ∧
        σ' = σ.fixing "k" "k_next" := by
  -- nothing is retired while the layer stays open
  have hadmits : ∀ a ∈ stepAssertions name claim (.int lower) σ.issued,
      (σ.fixing "k" "k_next").Admits a.formula := h.admits
  simp only [stepAssertions, List.forall_mem_cons, List.not_mem_nil, false_implies, implies_true,
    and_true] at hadmits
  obtain ⟨hlow, hnext, hhypothesis⟩ := hadmits
  refine returns_declareStep.bind fun step σ₁ h₁ => ?_
  obtain ⟨⟨layer, rfl⟩, rfl⟩ := h₁
  have hassume : Returns (assumeStep (.ofInts (stepTerm σ.issued) (nextTerm σ.issued) layer)
      (.int lower) "k") (σ.fixing "k" "k_next") fun _ σ' => σ' = σ.fixing "k" "k_next" := by
    refine (returns_assume hlow _).bind fun _ σ₂ h₂ => ?_
    subst h₂
    exact returns_assume hnext _
  refine hassume.bind fun _ σ₂ h₂ => ?_
  subst h₂
  refine ((returns_assumeFact (List.cons_ne_nil _ _) h.quantified hhypothesis).returning _).mono
    fun step σ₃ h₃ => ?_
  obtain ⟨rfl, _, rfl⟩ := h₃
  exact ⟨⟨layer, rfl⟩, rfl⟩

theorem fit_successorCase (h : AcceptsStep σ name claim lower hs r) :
    Fit (σ.fixing "k" "k_next") (successorCase name claim σ.issued)
      ((successorCase name claim σ.issued).witnesses (σ.issued + 2)) hs := by
  have hnext : ∀ s ∈ (nextTerm σ.issued).constants, s.name ∉ σ.retired :=
    List.forall_mem_singleton.2 (h.numbered.not_retired (Nat.le_succ _) "k_next")
  exact h.mentions.fit (h.numbered.layer _) h.own (h.proper _) hnext h.hints _

section StepLayer

variable {V : View} {stepHints : IntTerm → IntTerm → Fact → List Symbol → List Formula}

/-- Hints that are formulas built from the step, its successor, the hypothesis and the witnesses. -/
def stepsAsking (hints : IntTerm → IntTerm → Fact → List Symbol → List Formula) : StepHintsT Id :=
  fun step hypothesis ws => pure (hints step.k.toInt step.next.toInt hypothesis ws)

theorem runs_stepsAsking (hV : V.frames ≠ []) (n : Nat) (layer : String) :
    Runs (stepsAsking stepHints (.ofInts (stepTerm n) (nextTerm n) layer) (hypothesis name claim n)
      ((successorCase name claim n).witnesses (n + 2))) V [] fun hs V' =>
        hs = hintsAt name claim stepHints n ∧ V' = V.add [] := by
  rw [add_nil hV]
  exact runs_pure _

/-- **The query of the successor step is asked** if nothing is refused before. -/
theorem asksAll_stepLayer (hissued : σ.issued = V.issued)
    (h : AcceptsStep σ name claim lower (hintsAt name claim stepHints σ.issued) r) :
    AsksAll (stepLayer name claim (.int lower) (stepsAsking stepHints)) V σ
      [(V.stepping name claim (.int lower) V.issued).refutes (successorCase name claim V.issued) []
        (hintsAt name claim stepHints V.issued)] := by
  refine .scope fun layer _ => .next (runs_fixStep name claim (.int lower)) (returns_fixStep h)
    fun step V₁ σ₁ h₁ h₂ => ?_
  obtain ⟨⟨layer, rfl⟩, rfl⟩ := h₁
  obtain ⟨-, rfl⟩ := h₂
  have hfit := fit_successorCase h
  rw [hissued] at hfit
  exact asksAll_prove _ _ (congrArg (· + 2) hissued) hfit h.reply

/-- The layer of the successor step is closed again if its query is answered with `UNSAT`. -/
theorem returns_stepLayer
    (h : AcceptsStep σ name claim lower (hintsAt name claim stepHints σ.issued) r)
    (hunsat : Verdict.ofAnswer r.answer = .unsat) :
    Returns (stepLayer name claim (.int lower) (stepsAsking stepHints)) σ fun _ σ' =>
      σ.After σ' := by
  refine returns_scope fun layer _ => (returns_fixStep h).bind fun step σ₁ h₁ => ?_
  obtain ⟨⟨layer, rfl⟩, rfl⟩ := h₁
  exact returns_proveFixing _ (fit_successorCase h) h.reply hunsat

end StepLayer

theorem returns_concludeSteps {shape conclusion : Fact} (hshape : shape.Proper) {c : Context}
    (hc : c.Takes conclusion) (hafter : c.stance.After σ) (hadmits : σ.Admits conclusion.formula) :
    Returns (concludeSteps shape conclusion) σ fun f _ => f = conclusion := by
  have hchecked : conclusion.checked.mapError Failure.fact = .ok conclusion := by
    unfold Fact.checked
    rw [hc.covered]
    cases conclusion.trigger <;> rfl
  refine (returns_requireGuard hshape).bind fun _ σ₁ h₁ => ?_
  subst h₁
  refine (returns_require hchecked).bind fun f σ₁ h₁ => ?_
  obtain ⟨rfl, rfl⟩ := h₁
  exact ((hc.returns hafter hadmits).returning _).mono fun _ _ h => h.1

end Proof

/-! ### Two-step induction -/

section TwoStep

variable {c : Context} {name : String} {claim : AnyTerm → Fact} {lower : IntTerm}
  {baseHints : List Symbol → List Formula}
  {stepHints : IntTerm → IntTerm → Fact → List Symbol → List Formula} {r₁ r₂ : Reply}

/-- Nothing is refused until both queries of two-step induction are asked: the solver replies to
both, and refutes the first one. -/
structure Context.AcceptsSteps (c : Context) (name : String) (claim : AnyTerm → Fact)
    (lower : IntTerm) (baseHints : List Symbol → List Formula)
    (stepHints : IntTerm → IntTerm → Fact → List Symbol → List Formula) (r₁ r₂ : Reply) :
    Prop where
  proper : ∀ t : IntTerm, (claim (.int t)).Proper
  mentions : Fact.Mentions Expr.constants (Own claim) fun t : IntTerm => claim (.int t)
  own : ∀ s, Own claim s → s.name ∉ c.retired
  bound : ∀ s ∈ lower.constants, s.name ∉ c.retired
  /-- The claim about the step can be quantified. -/
  quantified : (hypothesis name claim (c.view.stepNumber claim lower)).fault? = none
  baseHints : ∀ e ∈ baseHints ((baseCase name claim (.int lower)).witnesses c.issued.length),
    c.stance.Admits e
  /-- The hints for the step mention no constants of the base case, either. -/
  stepHints : ∀ e ∈ hintsAt name claim stepHints (c.view.stepNumber claim lower),
    (c.stance.claimed ((baseCase name claim (.int lower)).witnesses c.stance.issued) r₁).Admits e
  reply : c.session.reply = .ok r₁
  refuted : Verdict.ofAnswer r₁.answer = .unsat
  next : c.stance.answered.reply = .ok r₂

namespace Proof

/-- Two-step induction with hints that are formulas. -/
def twoStepAsking (name : String) (claim : AnyTerm → Fact) (lower : IntTerm)
    (baseHints : List Symbol → List Formula)
    (stepHints : IntTerm → IntTerm → Fact → List Symbol → List Formula)
    (trigger : Option Trigger) : ProofM Fact :=
  twoStep name (fun t => pure (claim t)) (.int lower) (fun ws => pure (baseHints ws))
    (stepsAsking stepHints) trigger

theorem runs_twoStepAsking (V : View) (name : String) (claim : AnyTerm → Fact) (lower : IntTerm)
    (baseHints : List Symbol → List Formula)
    (stepHints : IntTerm → IntTerm → Fact → List Symbol → List Formula)
    (trigger : Option Trigger) :
    Runs (twoStepAsking name claim lower baseHints stepHints trigger) V
      [V.baseQuery name claim lower baseHints, V.stepQuery name claim lower stepHints] fun f V' =>
        f = twoStepConclusion name (.int lower) (claim (.int (.int "x"))) trigger ∧
          V'.formulas = V.formulas ++ [f.formula] := by
  refine (runs_twoStep trigger rfl (runs_pure _) fun layer =>
    runs_stepsAsking (List.cons_ne_nil _ _) _ layer).mono fun f V' h => ?_
  obtain ⟨rfl, rfl⟩ := h
  exact ⟨rfl, View.formulas_conclude _ _⟩

end Proof

namespace Context.AcceptsSteps

variable (h : c.AcceptsSteps name claim lower baseHints stepHints r₁ r₂)

include h

theorem fit (hc : c.Orderly) : Proof.Fit c.stance (baseCase name claim (.int lower))
    ((baseCase name claim (.int lower)).witnesses c.stance.issued)
    (baseHints ((baseCase name claim (.int lower)).witnesses c.stance.issued)) :=
  h.mentions.fit hc.stance_numbered h.own (h.proper lower) h.bound h.baseHints (name ++ "/base")

/-- After the base case nothing is refused in the layer of the successor step. -/
theorem step (hc : c.Orderly) (ha : Apart claim lower c.issued.length) {σ : Stance}
    (hσ : σ = c.stance.claimed ((baseCase name claim (.int lower)).witnesses c.stance.issued) r₁) :
    σ.issued = c.view.stepNumber claim lower ∧
      AcceptsStep σ name claim lower (hintsAt name claim stepHints σ.issued) r₂ := by
  have hafter := c.stance.after_claimed (baseCase name claim (.int lower)) r₁
  have hissued := c.stance.issued_claimed (baseCase name claim (.int lower)) r₁
  rw [← hσ] at hafter hissued
  refine ⟨hissued, hafter.numbered hc.stance_numbered, h.proper, h.mentions, fun s hs => ?_,
    fun s hs => ?_, ?_, ?_, ?_⟩
  · exact hafter.not_retired (h.own s hs) (ha.own_old s hs)
  · exact hafter.not_retired (h.bound s hs) (ha.lower_old s hs)
  · rw [hissued]
    exact h.quantified
  · rw [hissued, hσ]
    exact h.stepHints
  · rw [hσ]
    exact h.next

theorem admits (hc : c.Orderly) (ha : Apart claim lower c.issued.length) {σ : Stance}
    (hafter : c.stance.After σ) (trigger : Option Trigger) :
    σ.Admits
      (twoStepConclusion name (.int lower) (claim (.int (.int "x"))) trigger).formula := by
  have hx : "x" ∉ σ.retired :=
    (hafter.numbered hc.stance_numbered).not_retired_plain (by decide)
  have hclaim : ∀ s ∈ (claim (.int (.int "x"))).guard.constants ++
      (claim (.int (.int "x"))).body.constants, s.name ∉ σ.retired := by
    intro s hs
    rcases h.mentions (Term.int "x") s hs with hs | hs
    · exact hafter.not_retired (h.own s hs) (ha.own_old s hs)
    · rw [List.mem_singleton.1 hs]
      exact hx
  intro s hs
  rcases List.mem_append.1 (Fact.mem_constants_formula hs) with hs | hs
  · rcases List.mem_append.1 hs with hs | hs
    · rcases mem_constants_compare.1 hs with hs | hs
      · rw [List.mem_singleton.1 hs]
        exact hx
      · exact hafter.not_retired (h.bound s hs) (ha.lower_old s hs)
    · refine hclaim s (List.mem_append_left _ ?_)
      exact (List.mem_append.1 hs).resolve_right List.not_mem_nil
  · exact hclaim s (List.mem_append_right _ hs)

theorem asksAll (hc : c.Reachable) (ha : Apart claim lower c.issued.length)
    (trigger : Option Trigger) :
    Proof.AsksAll (Proof.twoStepAsking name claim lower baseHints stepHints trigger) c.view c.stance
      [c.view.baseQuery name claim lower baseHints,
        c.view.stepQuery name claim lower stepHints] := by
  unfold Proof.twoStepAsking
  rw [Proof.twoStep_eq]
  refine .bind (Proof.runs_prove_plain (Proof.runs_pure _))
    (Proof.returns_prove _ (h.fit hc.orderly) h.reply h.refuted) fun _ V₁ σ₁ hV₁ hσ₁ => ?_
  obtain rfl : V₁ = c.view.declare (claim (.int lower)).vars.length := hV₁
  obtain ⟨hissued, hstep⟩ := h.step hc.orderly ha hσ₁
  refine (Proof.asksAll_stepLayer hissued hstep).ending (Proof.runs_stepLayer rfl fun layer =>
    Proof.runs_stepsAsking (List.cons_ne_nil _ _) _ layer) fun _ _ c₁ h₁ => ?_
  obtain ⟨-, V', hshows, -⟩ := h₁
  exact (Proof.runs_concludeSteps _ _ c₁ hshows).mono fun _ _ _ _ => trivial

theorem returns (hc : c.Reachable) (ha : Apart claim lower c.issued.length)
    {trigger : Option Trigger} (hunsat : Verdict.ofAnswer r₂.answer = .unsat)
    (htakes : c.Takes
      (twoStepConclusion name (.int lower) (claim (.int (.int "x"))) trigger)) :
    Proof.Returns (Proof.twoStepAsking name claim lower baseHints stepHints trigger) c.stance
      fun f _ => f = twoStepConclusion name (.int lower) (claim (.int (.int "x"))) trigger := by
  have hbase := c.stance.after_claimed (baseCase name claim (.int lower)) r₁
  unfold Proof.twoStepAsking
  rw [Proof.twoStep_eq]
  refine .bind (Proof.returns_prove _ (h.fit hc.orderly) h.reply h.refuted) fun _ σ₁ hσ₁ => ?_
  rw [← hσ₁] at hbase
  obtain ⟨_, hstep⟩ := h.step hc.orderly ha hσ₁
  refine (Proof.returns_stepLayer hstep hunsat).bind fun _ σ₂ hσ₂ => ?_
  have hafter := hbase.trans hσ₂
  exact Proof.returns_concludeSteps (h.proper _) htakes hafter
    (h.admits hc.orderly ha hafter trigger)

end Context.AcceptsSteps

namespace Proof

/-- **Two-step induction is sound and complete.**  In a reachable state it asks two queries at most,
and both if nothing is refused and the first one is refuted.  Both have no model exactly if the
conclusion follows from what is active before.  The conclusion is drawn if both queries are refuted
and it is not refused, and nothing else is ever concluded. -/
theorem twoStep_faithful (hc : c.Reachable)
    (hactive : ∀ f ∈ c.session.active, Predates c.issued.length f) (h : Substituted claim)
    (ha : Apart claim lower c.issued.length)
    (hbase : let base := baseCase name claim (.int lower)
      ∀ e ∈ baseHints (base.witnesses c.issued.length),
        Entails (c.session.active ++ [c.view.guard base, .not (c.view.body base)]) e)
    (hstep : let V := c.view.steppingIn name claim lower
      let successor := successorCase name claim (c.view.stepNumber claim lower)
      ∀ e ∈ hintsAt name claim stepHints (c.view.stepNumber claim lower),
        Entails (V.formulas ++ [V.guard successor, .not (V.body successor)]) e)
    (trigger : Option Trigger) :
    let base := c.view.baseQuery name claim lower baseHints
    let step := c.view.stepQuery name claim lower stepHints
    let conclusion := twoStepConclusion name (.int lower) (claim (.int (.int "x"))) trigger
    let p := outcome (twoStepAsking name claim lower baseHints stepHints trigger) c
    ((Unsatisfiable base.2.formulas ∧ Unsatisfiable step.2.formulas) ↔
        Entails c.session.active conclusion.formula) ∧
      (∃ xs, c.Heard p.2 xs ∧ xs.map Exchange.query <+: [base, step]) ∧
      (∀ r₁ r₂, c.AcceptsSteps name claim lower baseHints stepHints r₁ r₂ →
        (∃ xs, c.Heard p.2 xs ∧ xs.map Exchange.query = [base, step]) ∧
          (Verdict.ofAnswer r₂.answer = .unsat → c.Takes conclusion → p.1 = .ok conclusion)) ∧
      (∀ f, p.1 = .ok f → f = conclusion ∧
        p.2.session.active = c.session.active ++ [conclusion.formula] ∧
          (p.2.Honest → Entails c.session.active conclusion.formula)) := by
  intro base step conclusion p
  have hshows := hc.shows
  have hiff : (Unsatisfiable base.2.formulas ∧ Unsatisfiable step.2.formulas) ↔
      Entails c.session.active conclusion.formula := by
    rw [hshows.active] at hactive hbase ⊢
    exact h.unsatisfiable_queries_iff ha (fun f hf => (hactive f hf).settled) hbase hstep trigger
  have hruns := runs_twoStepAsking c.view name claim lower baseHints stepHints trigger c hshows
  refine ⟨hiff, hruns.exists_heard, fun r₁ r₂ hr => ⟨hr.asksAll hc ha trigger c hshows rfl,
    fun hunsat htakes => ?_⟩, fun f hf => ?_⟩
  · obtain ⟨f, c', hout, rfl⟩ := hr.returns hc ha hunsat htakes c rfl
    exact congrArg Prod.fst hout
  · obtain ⟨⟨V', hshows', rfl, hformulas⟩, hunsat⟩ := hruns.of_ok_outcome hf
    refine ⟨rfl, ?_, fun hhonest => hiff.1 ⟨hunsat hhonest base ?_, hunsat hhonest step ?_⟩⟩
    · rw [hshows'.active, hformulas, hshows.active]
    · exact List.mem_cons_self
    · exact List.mem_cons_of_mem _ List.mem_cons_self

/-! ### A claim from a fixed number on -/

/-- From the fixed number on, adding a natural number does not lead below it. -/
def staysAbove (t : AnyTerm) : Fact :=
  .about "above" ["n"] (.atLeast (.int "n") 0)
    (.compare .ge (Term.plus t.toInt (.int "n")) (.int "k!0")) none

theorem substituted_staysAbove : Substituted staysAbove := by
  have hsubstitute (e : Formula) (t : IntTerm) (I : Interpretation) (ρ : Valuation) :
      Satisfies I ρ (e.substitute [⟨.int "x", t⟩]) ↔
        Satisfies (I.set (.int "x") (t.meaning I ρ)) ρ e := by
    rw [Satisfies, meaning_substitute]
    simp [Satisfies]
  refine ⟨fun _ => rfl, fun t I ρ => ?_, fun t I ρ => ?_⟩ <;>
    simp [hsubstitute, staysAbove, Fact.about, AnyTerm.toInt, AnyTerm.int]

theorem apart_staysAbove : Apart staysAbove (.int "k!0") fixedNumber.issued.length := by
  have hk : ¬ Fresh 1 (.int "k!0") := not_fresh_of_lt (Nat.lt_succ_self 0) "k" .int
  have hn : ¬ Fresh 1 (.int "n") := not_fresh_of_plain (by decide) 1
  refine ⟨by decide, by decide, List.forall_mem_singleton.2 hn, fun s ⟨hx, hs⟩ => ?_,
    List.forall_mem_singleton.2 hk⟩
  have hs : s ∈ [Symbol.int "n", .int "x", .int "n", .int "k!0"] := hs
  simp only [List.mem_cons, List.not_mem_nil, or_false, hx, false_or] at hs
  rcases hs with rfl | rfl | rfl
  · exact hn
  · exact hn
  · exact hk

theorem accepts_staysAbove : fixedNumber.AcceptsSteps "above" staysAbove (.int "k!0")
    (fun _ => []) (fun _ _ _ _ => []) .exhausted .exhausted where
  proper _ := ⟨rfl, rfl⟩
  mentions t s hs := by
    have hs : s ∈ .int "n" :: (t.constants ++ [.int "n"]) ++ [.int "k!0"] := hs
    simp only [List.mem_append, List.mem_cons, List.not_mem_nil, or_false] at hs
    have hn : Own staysAbove (.int "n") := ⟨by decide, by decide⟩
    have hk : Own staysAbove (.int "k!0") := ⟨by decide, by decide⟩
    rcases hs with (rfl | hs | rfl) | rfl
    · exact Or.inl hn
    · exact Or.inr hs
    · exact Or.inl hn
    · exact Or.inl hk
  own _ _ := List.not_mem_nil
  bound _ _ := List.not_mem_nil
  quantified := rfl
  baseHints _ he := absurd he List.not_mem_nil
  stepHints _ he := absurd he List.not_mem_nil
  reply := rfl
  refuted := rfl
  next := rfl

/-- Both queries for that claim are asked, neither has a model, and the conclusion is drawn. -/
theorem twoStep_faithful_staysAbove :
    let p := outcome (twoStepAsking "above" staysAbove (.int "k!0") (fun _ => [])
      (fun _ _ _ _ => []) none) fixedNumber
    (∃ xs, fixedNumber.Heard p.2 xs ∧ xs.length = 2 ∧
        ∀ x ∈ xs, Unsatisfiable x.question.formulas) ∧
      p.1 = .ok (twoStepConclusion "above" (.int (.int "k!0"))
        (staysAbove (.int (.int "x"))) none) := by
  intro p
  obtain ⟨hiff, _, hasked, _⟩ := @twoStep_faithful fixedNumber "above" staysAbove (.int "k!0")
    (fun _ => []) (fun _ _ _ _ => []) reachable_fixedNumber predates_fixedNumber
    substituted_staysAbove apart_staysAbove (fun _ he => absurd he List.not_mem_nil)
    (fun _ he => absurd he List.not_mem_nil) none
  obtain ⟨⟨xs, hheard, hxs⟩, hreturns⟩ := hasked _ _ accepts_staysAbove
  have hentails : Entails fixedNumber.session.active
      (twoStepConclusion "above" (.int (.int "k!0"))
        (staysAbove (.int (.int "x"))) none).formula := by
    intro I ρ _
    have habove (v n : Int) (hv : I.const .int "k!0" ≤ v) (hn : 0 ≤ n) :
        I.const .int "k!0" ≤ v + n := Int.le_trans hv (Int.le_add_of_nonneg_right hn)
    simpa [twoStepConclusion, staysAbove, Fact.about, Fact.satisfies_formula, AnyTerm.toInt,
      AnyTerm.int] using habove
  have hunsat := hiff.2 hentails
  have htakes : fixedNumber.Takes
      (twoStepConclusion "above" (.int (.int "k!0")) (staysAbove (.int (.int "x"))) none) :=
    ⟨rfl, rfl, fun hnil => absurd hnil (List.cons_ne_nil _ _)⟩
  obtain ⟨x, _, rfl, hx, hxs⟩ := List.map_eq_cons_iff.1 hxs
  obtain ⟨y, rfl, hy⟩ := List.map_eq_singleton_iff.1 hxs
  refine ⟨⟨[x, y], hheard, rfl, ?_⟩, hreturns rfl htakes⟩
  refine List.forall_mem_cons.2 ⟨?_, List.forall_mem_singleton.2 ?_⟩
  · rw [show x.question = _ from congrArg Prod.snd hx]
    exact hunsat.1
  · rw [show y.question = _ from congrArg Prod.snd hy]
    exact hunsat.2

end Proof

end TwoStep

end CandyCircle
