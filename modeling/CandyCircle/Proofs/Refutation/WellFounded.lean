/-
**Well-founded induction is sound and complete.**

The query of well-founded induction has no model exactly if what it concludes follows from what is
active: the claim about all pairs of natural numbers.  One direction is induction over the
lexicographic order, which the formulas of the scheme express: both components are natural numbers
in the hypothesis, for the pair itself and in the conclusion, and only strictly smaller pairs are
assumed.  The other one says that the scheme asks for nothing that does not follow.

The query for the least pair has no model either then.  Whether it is asked makes no difference to
what can be concluded.

Main definitions:

* `CandyCircle.Induction.pairValue` — the values of a pair;
* `CandyCircle.Induction.PairsApart` — variables and fresh constants do not clash;
* `CandyCircle.View.leastQuery`, `CandyCircle.View.pairQuery` — the queries of the scheme.

Main results:

* `CandyCircle.Induction.unsatisfiable_pairQuery_iff` — **the query for all pairs has no model
  exactly if the conclusion follows**;
* `CandyCircle.Proof.wellFounded_faithful` — well-founded induction asks these queries, and
  concludes only what follows.
-/
import CandyCircle.Proofs.Course
import CandyCircle.Proofs.Refutation.Faithful
import CandyCircle.Proofs.Refutation.Families

set_option autoImplicit false

namespace CandyCircle

open Logic

namespace Induction

/-! ### Claims about pairs -/

/-- The values of a pair. -/
noncomputable def pairValue (p : Pair) (I : Interpretation) (ρ : Valuation) : Int × Int :=
  (p.1.meaning I ρ, p.2.meaning I ρ)

/-- The constants that a pair mentions. -/
def pairConstants (p : Pair) : List Symbol :=
  p.1.constants ++ p.2.constants

theorem mem_constants_domain {p : Pair} {s : Symbol} (hs : s ∈ p.domain.constants) :
    s ∈ pairConstants p := by
  simpa [Pair.domain, mem_constants_all, pairConstants, Formula.atLeast, Expr.constants] using hs

theorem mem_constants_lt {p q : Pair} {s : Symbol} (hs : s ∈ (p.lt q).constants) :
    s ∈ pairConstants p ++ pairConstants q := by
  simp only [Pair.lt, mem_constants_any, mem_constants_all, mem_constants_compare,
    mem_constants_equate, List.mem_cons, List.not_mem_nil, or_false, exists_eq_or_imp,
    exists_eq_left] at hs
  simp only [pairConstants, List.mem_append]
  rcases hs with (hs | hs) | (hs | hs) | (hs | hs)
  · exact Or.inl (Or.inl hs)
  · exact Or.inr (Or.inl hs)
  · exact Or.inl (Or.inl hs)
  · exact Or.inr (Or.inl hs)
  · exact Or.inl (Or.inr hs)
  · exact Or.inr (Or.inr hs)

/-- The variables that stand for pairs. -/
def pairVars : List Symbol :=
  [.int "u1", .int "u2", .int "w1", .int "w2"]

/-- The variables of a claim are none of the constants that stand for pairs, the claim mentions none
of the variables that stand for pairs, and nothing mentions fresh constants from a number on. -/
structure PairsApart (claim : Pair → Fact) (own : Symbol → Prop) (n : Nat) : Prop where
  vars_clear : ∀ s ∈ pairVars, s ∉ (claim .bottom).vars
  own_clear : ∀ s ∈ pairVars, ¬ own s
  vars_old : ∀ s ∈ (claim .bottom).vars, ¬ Fresh n s
  own_old : ∀ s, own s → ¬ Fresh n s

/-- A claim is true of two integers. -/
def TrueAt (claim : Pair → Fact) (I : Interpretation) (ρ : Valuation) (a b : Int) : Prop :=
  Satisfies ((I.set (.int "w1") a).set (.int "w2") b) ρ (claim (.named "w1" "w2")).formula

/-- Two integers come before two others lexicographically. -/
def Before (a b a' b' : Int) : Prop :=
  a < a' ∨ a = a' ∧ b < b'

section Claims

variable {claim : Pair → Fact} {own : Symbol → Prop} {n : Nat} {I J : Interpretation}
  {ρ : Valuation} {p : Pair}

theorem PairsApart.mono (ha : PairsApart claim own n) {m : Nat} (h : n ≤ m) :
    PairsApart claim own m where
  vars_clear := ha.vars_clear
  own_clear := ha.own_clear
  vars_old s hs hm := ha.vars_old s hs (hm.mono h)
  own_old s hs hm := ha.own_old s hs (hm.mono h)

theorem ignores_pairValue {P : Symbol → Prop} (h : ∀ s ∈ pairConstants p, ¬ P s) (ρ : Valuation) :
    Ignores (pairValue p · ρ) P := by
  intro I J hIJ
  refine Prod.ext ?_ ?_
  · exact ignores_meaning (fun s hs => h s (List.mem_append_left _ hs)) ρ I J hIJ
  · exact ignores_meaning (fun s hs => h s (List.mem_append_right _ hs)) ρ I J hIJ

/-- Two variables that stand for pairs may be given any values without touching anything else. -/
theorem agreeOn_set_pair (I : Interpretation) {x y : Symbol} (hx : x ∈ pairVars) (hy : y ∈ pairVars)
    (a : x.kind.Value) (b : y.kind.Value) :
    I.AgreeOn (· ∉ pairVars) ((I.set x a).set y b) := by
  refine ((Interpretation.AgreeOn.set I x a).mono fun s hs => ?_).trans
    ((Interpretation.AgreeOn.set _ y b).mono fun s hs => ?_)
  · rintro rfl
    exact hs hx
  · rintro rfl
    exact hs hy

/-- **A claim about a pair is true of its values**, also where fresh constants and the variables
that stand for pairs have other values. -/
theorem satisfies_pair_iff (h : Fact.Reads pairValue own claim) (ha : PairsApart claim own n)
    (hp : ∀ s ∈ pairConstants p, s ∉ (claim .bottom).vars)
    (hIJ : I.AgreeOn (fun s => ¬ Fresh n s ∧ s ∉ pairVars) J) :
    Satisfies J ρ (claim p).formula ↔ TrueAt claim I ρ (p.1.meaning J ρ) (p.2.meaning J ρ) := by
  have hvars (q : Pair) : (claim q).vars = (claim .bottom).vars := h.vars q .bottom
  have hw : ∀ s ∈ pairConstants (.named "w1" "w2"), s ∉ (claim .bottom).vars := by
    refine fun s hs => ha.vars_clear s ?_
    exact List.mem_cons_of_mem _ (List.mem_cons_of_mem _ hs)
  unfold TrueAt
  refine h.formula_iff ?_ ?_ ?_ ?_
  · rw [hvars]
    exact ignores_pairValue hp ρ
  · rw [hvars]
    exact ignores_pairValue hw ρ
  · refine (hIJ.symm.mono fun s hs => ?_).trans
      ((agreeOn_set_pair I (x := .int "w1") (y := .int "w2") (by decide) (by decide) _ _).mono
        fun s hs hmem => ha.own_clear s hmem hs.1)
    exact ⟨ha.own_old s hs.1, fun hmem => ha.own_clear s hmem hs.1⟩
  · simp [pairValue, Pair.named]

/-- A claim about two variables that stand for pairs, with a condition in front of its guard, says
that it is true of all integers that meet the condition. -/
theorem satisfies_forPairs (h : Fact.Reads pairValue own claim) (ha : PairsApart claim own n)
    (hIJ : I.AgreeOn (fun s => ¬ Fresh n s ∧ s ∉ pairVars) J) {x y : String}
    (hx : .int x ∈ pairVars) (hy : .int y ∈ pairVars) (hxy : x ≠ y) {f : Fact}
    (hvars : f.vars = .int x :: .int y :: (claim (.named x y)).vars)
    (hbody : f.body = (claim (.named x y)).body) {q : Interpretation → Prop}
    (hguard : ∀ K, Satisfies K ρ f.guard ↔ q K ∧ Satisfies K ρ (claim (.named x y)).guard)
    (hq : Ignores q (· ∈ (claim .bottom).vars)) :
    Satisfies J ρ f.formula ↔
      ∀ a b : Int, q ((J.set (.int x) a).set (.int y) b) → TrueAt claim I ρ a b := by
  have hclear : ∀ s ∈ pairConstants (.named x y), s ∉ (claim .bottom).vars := by
    refine List.forall_mem_cons.2 ⟨ha.vars_clear _ hx, List.forall_mem_singleton.2 ?_⟩
    exact ha.vars_clear _ hy
  rw [Fact.satisfies_formula, hvars, hbody]
  simp only [hguard]
  change (∀ a b : Int, Quantifier.all.over (claim (.named x y)).vars
    (fun K => q K ∧ Satisfies K ρ (claim (.named x y)).guard →
      Satisfies K ρ (claim (.named x y)).body) ((J.set (.int x) a).set (.int y) b)) ↔ _
  refine forall_congr' fun a => forall_congr' fun b => ?_
  rw [← h.vars (.named x y)] at hq
  refine (Fact.over_guarded _ hq).trans (imp_congr_right fun _ => ?_)
  -- the variables have the values that they are given
  have hset : I.AgreeOn (fun s => ¬ Fresh n s ∧ s ∉ pairVars)
      ((J.set (.int x) a).set (.int y) b) :=
    hIJ.trans ((agreeOn_set_pair J hx hy a b).mono fun s hs => hs.2)
  have hvalues : Satisfies ((J.set (.int x) a).set (.int y) b) ρ (claim (.named x y)).formula ↔ _ :=
    satisfies_pair_iff h ha hclear hset
  simpa [Pair.named, hxy] using hvalues

/-- **What well-founded induction concludes**: the claim about all pairs of natural numbers. -/
theorem satisfies_wellFoundedConclusion (h : Fact.Reads pairValue own claim)
    (ha : PairsApart claim own n) (name : String) :
    Satisfies I ρ (wellFoundedConclusion name (claim (.named "w1" "w2"))).formula ↔
      ∀ a b : Int, 0 ≤ a → 0 ≤ b → TrueAt claim I ρ a b := by
  let q (J : Interpretation) : Prop := (0 : Int) ≤ J.const .int "w1" ∧ (0 : Int) ≤ J.const .int "w2"
  have hq : Ignores q (· ∈ (claim .bottom).vars) := by
    intro J K hJK
    have h1 : J.const .int "w1" = K.const .int "w1" :=
      hJK.value (.int "w1") (ha.vars_clear _ (by decide))
    have h2 : J.const .int "w2" = K.const .int "w2" :=
      hJK.value (.int "w2") (ha.vars_clear _ (by decide))
    simp only [q, h1, h2]
  refine Iff.trans (satisfies_forPairs (x := "w1") (y := "w2") h ha (.refl _ I) (by decide)
    (by decide) (by decide) (by rfl) (by rfl) (fun K => ?_) hq) ?_
  · simp [wellFoundedConclusion, Pair.domain, Pair.named, q]
  · simp [q]

/-- **The hypothesis of well-founded induction**: the claim about all smaller pairs. -/
theorem satisfies_smaller (h : Fact.Reads pairValue own claim) (ha : PairsApart claim own n)
    (hIJ : I.AgreeOn (¬ Fresh n ·) J) (name : String) :
    Satisfies J ρ (smallerHypothesis name (pairTerm n) (claim (.named "u1" "u2"))).formula ↔
      ∀ a b : Int, 0 ≤ a → 0 ≤ b →
        Before a b ((pairTerm n).1.meaning J ρ) ((pairTerm n).2.meaning J ρ) →
          TrueAt claim I ρ a b := by
  let v1 : String := Context.freshName "v1" n
  let v2 : String := Context.freshName "v2" (n + 1)
  let q (K : Interpretation) : Prop :=
    ((0 : Int) ≤ K.const .int "u1" ∧ (0 : Int) ≤ K.const .int "u2") ∧
      Before (K.const .int "u1") (K.const .int "u2") (K.const .int v1) (K.const .int v2)
  have hq : Ignores q (· ∈ (claim .bottom).vars) := by
    intro K L hKL
    have hu1 : K.const .int "u1" = L.const .int "u1" :=
      hKL.value (.int "u1") (ha.vars_clear _ (by decide))
    have hu2 : K.const .int "u2" = L.const .int "u2" :=
      hKL.value (.int "u2") (ha.vars_clear _ (by decide))
    have hv1 : K.const .int v1 = L.const .int v1 :=
      hKL.value (.int v1) fun hvar => ha.vars_old _ hvar ⟨"v1", n, Nat.le_refl n, rfl⟩
    have hv2 : K.const .int v2 = L.const .int v2 :=
      hKL.value (.int v2) fun hvar => ha.vars_old _ hvar ⟨"v2", n + 1, Nat.le_succ n, rfl⟩
    simp only [q, hu1, hu2, hv1, hv2]
  have hne (x stem : String) (number : Nat) (hx : '!' ∉ x.toList) :
      Context.freshName stem number ≠ x := Context.freshName_ne hx stem number
  refine Iff.trans (satisfies_forPairs (x := "u1") (y := "u2") h ha (hIJ.mono fun s hs => hs.1)
    (by decide) (by decide) (by decide) (by rfl) (by rfl) (fun K => ?_) hq) ?_
  · simp [smallerHypothesis, Pair.domain, Pair.named, Pair.lt, pairTerm, Before, q, v1, v2,
      and_assoc]
  · have hconst (a b : Int) (stem : String) (number : Nat) :
        (((J.set (.int "u1") a).set (.int "u2") b).const .int
          (Context.freshName stem number) : Int) =
            J.const .int (Context.freshName stem number) := by
      simp [hne "u1" stem number (by decide), hne "u2" stem number (by decide)]
    simp [q, v1, v2, hconst, pairTerm, Pair.named]

theorem settled_pair (h : Fact.Reads pairValue own claim) (ha : PairsApart claim own n)
    (hp : ∀ s ∈ pairConstants p, ¬ Fresh n s) (name : String) :
    ((claim p).renamed name).Settled n := by
  have hsettled := h.settled (t := p) ha.own_old fun ρ => ignores_pairValue hp ρ
  exact ⟨hsettled.guard, hsettled.body⟩

/-- What is assumed in the layer that fixes a pair. -/
theorem satisfies_pairAssertions (h : Fact.Reads pairValue own claim) (ha : PairsApart claim own n)
    (hIJ : I.AgreeOn (¬ Fresh n ·) J) (name : String) :
    (∀ a ∈ pairAssertions name claim n, Satisfies J ρ a.formula) ↔
      ((0 : Int) ≤ (pairTerm n).1.meaning J ρ ∧ (0 : Int) ≤ (pairTerm n).2.meaning J ρ) ∧
        ∀ a b : Int, 0 ≤ a → 0 ≤ b →
          Before a b ((pairTerm n).1.meaning J ρ) ((pairTerm n).2.meaning J ρ) →
            TrueAt claim I ρ a b := by
  rw [← satisfies_smaller h ha hIJ name]
  simp [pairAssertions, Pair.domain, Fact.assertion]

theorem pairTerm_old : ∀ s ∈ pairConstants (pairTerm n), ¬ Fresh (n + 2) s := by
  refine List.forall_mem_cons.2 ⟨?_, List.forall_mem_singleton.2 ?_⟩
  · exact not_fresh_of_lt (by omega) _ _
  · exact not_fresh_of_lt (by omega) _ _

theorem settled_pairAssertions (h : Fact.Reads pairValue own claim) (ha : PairsApart claim own n)
    (name : String) : ∀ a ∈ pairAssertions name claim n, Settled (n + 2) a.formula := by
  refine List.forall_mem_cons.2 ⟨?_, List.forall_mem_singleton.2 ?_⟩
  · exact settled_of_constants fun s hs => pairTerm_old s (mem_constants_domain hs)
  · intro I J ρ hIJ hI
    have hJ : I.AgreeOn (¬ Fresh n ·) J := hIJ.mono fun s hs hs' => hs (hs'.mono (by omega))
    have hvalue := ignores_pairValue (pairTerm_old (n := n)) ρ I J hIJ
    obtain ⟨h1, h2⟩ := Prod.mk.inj hvalue
    rw [Fact.assertion, satisfies_smaller h ha (.refl _ I), h1, h2] at hI
    rwa [Fact.assertion, satisfies_smaller h ha hJ]

end Claims

end Induction

open Induction

/-! ### The queries -/

/-- The hints for all pairs, as the constants of a number and the next one. -/
def Induction.pairHintsAt (name : String) (claim : Pair → Fact)
    (hints : Pair → Fact → List Symbol → List Formula) (n : Nat) : List Formula :=
  hints (pairTerm n) (smallerHypothesis name (pairTerm n) (claim (.named "u1" "u2")))
    ((pairCase name claim n).witnesses (n + 2))

namespace View

variable (V : View) (name : String) (claim : Pair → Fact)

/-- The query of the least pair. -/
def leastQuery (hints : List Symbol → List Formula) : Query :=
  let least := leastCase name claim
  V.refutes least [] (hints (least.witnesses V.issued))

/-- The query of all pairs, as the constants of a number and the next one. -/
def pairQuery (n : Nat) (hints : Pair → Fact → List Symbol → List Formula) : Query :=
  (V.descending name claim n).refutes (pairCase name claim n) [] (pairHintsAt name claim hints n)

theorem formulas_descending (n : Nat) : (V.descending name claim n).formulas = V.formulas ++
    (pairAssertions name claim n).map Assertion.formula := by
  simp [formulas, descending]

end View

namespace Induction

variable {claim : Pair → Fact} {own : Symbol → Prop} {name : String} {V : View} {n : Nat}

/-- **The query of all pairs has no model** exactly if wherever everything active is true the claim
is true of a pair if it is true of all smaller ones. -/
theorem unsatisfiable_pairQuery_iff_step {hints : Pair → Fact → List Symbol → List Formula}
    (h : Fact.Reads pairValue own claim) (hn : V.issued ≤ n) (ha : PairsApart claim own n)
    (hactive : ∀ f ∈ V.formulas, Settled V.issued f)
    (hhints : let W := V.descending name claim n
      ∀ e ∈ pairHintsAt name claim hints n,
        Entails (W.formulas ++
          [W.guard (pairCase name claim n), .not (W.body (pairCase name claim n))]) e) :
    Unsatisfiable (V.pairQuery name claim n hints).2.formulas ↔
      ∀ I ρ, (∀ f ∈ V.formulas, Satisfies I ρ f) → ∀ a b : Int, 0 ≤ a → 0 ≤ b →
        (∀ a' b' : Int, 0 ≤ a' → 0 ≤ b' → Before a' b' a b → TrueAt claim I ρ a' b') →
          TrueAt claim I ρ a b := by
  have hactive' : ∀ f ∈ V.formulas, Settled n f := fun f hf => Settled.mono (hactive f hf) hn
  have hassumed : ∀ f ∈ (V.descending name claim n).formulas, Settled (n + 2) f := by
    rw [View.formulas_descending]
    refine List.forall_mem_append.2 ⟨fun f hf => ?_, ?_⟩
    · exact Settled.mono (hactive' f hf) (Nat.le_add_right n 2)
    · exact List.forall_mem_map.2 (settled_pairAssertions h ha name)
  have hsettled := settled_pair h (ha.mono (Nat.le_add_right n 2)) pairTerm_old (name ++ "/step")
  have hclear : ∀ s ∈ pairConstants (pairTerm n), s ∉ (claim .bottom).vars := by
    refine List.forall_mem_cons.2 ⟨fun hvar => ?_, List.forall_mem_singleton.2 fun hvar => ?_⟩
    · exact ha.vars_old _ hvar ⟨"v1", n, Nat.le_refl n, rfl⟩
    · exact ha.vars_old _ hvar ⟨"v2", n + 1, Nat.le_succ n, rfl⟩
  have hpairIff {I J : Interpretation} {ρ : Valuation} (hJ : I.AgreeOn (¬ Fresh n ·) J) :
      Satisfies J ρ (pairCase name claim n).formula ↔
        TrueAt claim I ρ ((pairTerm n).1.meaning J ρ) ((pairTerm n).2.meaning J ρ) :=
    (Fact.satisfies_renamed _ _).trans
      (satisfies_pair_iff h ha hclear (hJ.mono fun s hs => hs.1))
  refine (View.unsatisfiable_refutes_iff hassumed hsettled hhints).trans ?_
  simp only [Entails, View.formulas_descending, List.forall_mem_append]
  constructor
  · intro hentails I ρ hI a b ha0 hb0 hsmaller
    -- the constants for the pair take the two integers as values
    obtain ⟨J, hJ, h1, h2⟩ := exists_fresh I n "v1" "v2" a b
    have h1 : (pairTerm n).1.meaning J ρ = a := h1
    have h2 : (pairTerm n).2.meaning J ρ = b := h2
    have hactiveJ : ∀ f ∈ V.formulas, Satisfies J ρ f := fun f hf => hactive' f hf hJ (hI f hf)
    have hassumedJ : ∀ f ∈ (pairAssertions name claim n).map Assertion.formula,
        Satisfies J ρ f := by
      rw [List.forall_mem_map, satisfies_pairAssertions h ha hJ, h1, h2]
      exact ⟨⟨ha0, hb0⟩, hsmaller⟩
    have hpair := (hpairIff hJ).1 (hentails J ρ ⟨hactiveJ, hassumedJ⟩)
    rwa [h1, h2] at hpair
  · rintro hstep I ρ ⟨hI, hassumed⟩
    rw [List.forall_mem_map, satisfies_pairAssertions h ha (.refl _ I)] at hassumed
    obtain ⟨⟨h1, h2⟩, hsmaller⟩ := hassumed
    exact (hpairIff (.refl _ I)).2 (hstep I ρ hI _ _ h1 h2 hsmaller)

/-- **The query of all pairs has no model exactly if the conclusion follows** from what is
active. -/
theorem unsatisfiable_pairQuery_iff {hints : Pair → Fact → List Symbol → List Formula}
    (h : Fact.Reads pairValue own claim) (hn : V.issued ≤ n) (ha : PairsApart claim own n)
    (hactive : ∀ f ∈ V.formulas, Settled V.issued f)
    (hhints : let W := V.descending name claim n
      ∀ e ∈ pairHintsAt name claim hints n,
        Entails (W.formulas ++
          [W.guard (pairCase name claim n), .not (W.body (pairCase name claim n))]) e) :
    Unsatisfiable (V.pairQuery name claim n hints).2.formulas ↔
      Entails V.formulas (wellFoundedConclusion name (claim (.named "w1" "w2"))).formula := by
  rw [unsatisfiable_pairQuery_iff_step h hn ha hactive hhints]
  simp only [Entails, satisfies_wellFoundedConclusion h ha]
  constructor
  · intro hstep I ρ hI a b ha0 hb0
    -- induction over the pairs of natural numbers
    exact Course.pair_induction (fun a b ha0 hb0 ih => hstep I ρ hI a b ha0 hb0 ih) ha0 hb0
  · exact fun hall I ρ hI a b ha0 hb0 _ => hall I ρ hI a b ha0 hb0

/-- **If the conclusion follows, the query of the least pair has no model**, whatever its hints
are. -/
theorem unsatisfiable_leastQuery (h : Fact.Reads pairValue own claim) (ha : PairsApart claim own n)
    (hentails : Entails V.formulas
      (wellFoundedConclusion name (claim (.named "w1" "w2"))).formula)
    (hints : List Symbol → List Formula) :
    Unsatisfiable (V.leastQuery name claim hints).2.formulas := by
  refine View.unsatisfiable_refutes (fun I ρ hI => ?_) _
  have hall := (satisfies_wellFoundedConclusion h ha name).1 (hentails I ρ hI)
  refine (Fact.satisfies_renamed _ _).2 ?_
  refine (satisfies_pair_iff h ha (fun s hs => absurd hs List.not_mem_nil) (.refl _ I)).2 ?_
  exact hall 0 0 (Int.le_refl 0) (Int.le_refl 0)

/-! ### Being accepted -/

section Admits

variable {σ : Stance} (hσ : σ.Numbered) (hmentions : Fact.Mentions pairConstants own claim)
  (hown : ∀ s, own s → s.name ∉ σ.retired)

include hσ

theorem named_not_retired {x y : String} (hx : .int x ∈ pairVars) (hy : .int y ∈ pairVars) :
    ∀ s ∈ pairConstants (.named x y), s.name ∉ σ.retired := by
  have hplain : ∀ s ∈ pairVars, '!' ∉ s.name.toList := by decide
  refine List.forall_mem_cons.2 ⟨?_, List.forall_mem_singleton.2 ?_⟩
  · exact hσ.not_retired_plain (hplain _ hx)
  · exact hσ.not_retired_plain (hplain _ hy)

include hmentions hown

theorem claim_not_retired {x y : String} (hx : .int x ∈ pairVars) (hy : .int y ∈ pairVars) :
    ∀ s ∈ (claim (.named x y)).guard.constants ++ (claim (.named x y)).body.constants,
      s.name ∉ σ.retired :=
  fun s hs => (hmentions _ s hs).elim (hown s) (named_not_retired hσ hx hy s)

theorem admits_wellFoundedConclusion (name : String) :
    σ.Admits (wellFoundedConclusion name (claim (.named "w1" "w2"))).formula := by
  have hw := named_not_retired hσ (x := "w1") (y := "w2") (by decide) (by decide)
  have hclaim := claim_not_retired hσ hmentions hown (x := "w1") (y := "w2") (by decide) (by decide)
  intro s hs
  rcases List.mem_append.1 (Fact.mem_constants_formula hs) with hs | hs
  · obtain ⟨f, hf, hs⟩ := mem_constants_all.1 hs
    simp only [List.mem_cons, List.not_mem_nil, or_false] at hf
    rcases hf with rfl | rfl
    · exact hw s (mem_constants_domain hs)
    · exact hclaim s (List.mem_append_left _ hs)
  · exact hclaim s (List.mem_append_right _ hs)

end Admits

/-- Nothing is refused in the layer that fixes a pair, and the solver replies. -/
structure AcceptsPair (σ : Stance) (claim : Pair → Fact) (own : Symbol → Prop) (hs : List Formula)
    (r : Reply) : Prop where
  numbered : σ.Numbered
  proper : ∀ p, (claim p).Proper
  mentions : Fact.Mentions pairConstants own claim
  own : ∀ s, own s → s.name ∉ σ.retired
  hints : ∀ e ∈ hs, σ.Admits e
  reply : σ.reply = .ok r

section AcceptsPair

variable {σ : Stance} {hs : List Formula} {r : Reply} (h : AcceptsPair σ claim own hs r)

include h

theorem AcceptsPair.pair_not_retired :
    ∀ s ∈ pairConstants (pairTerm σ.issued), s.name ∉ σ.retired := by
  refine List.forall_mem_cons.2 ⟨?_, List.forall_mem_singleton.2 ?_⟩
  · exact h.numbered.not_retired (Nat.le_refl _) "v1"
  · exact h.numbered.not_retired (Nat.le_succ _) "v2"

theorem AcceptsPair.admits (name : String) :
    ∀ a ∈ pairAssertions name claim σ.issued, σ.Admits a.formula := by
  have hpair := h.pair_not_retired
  have hu := named_not_retired h.numbered (x := "u1") (y := "u2") (by decide) (by decide)
  have hclaim := claim_not_retired h.numbered h.mentions h.own (x := "u1") (y := "u2") (by decide)
    (by decide)
  refine List.forall_mem_cons.2 ⟨fun s hs => hpair s (mem_constants_domain hs),
    List.forall_mem_singleton.2 fun s hs => ?_⟩
  have hs : s ∈ (smallerHypothesis name (pairTerm σ.issued)
    (claim (.named "u1" "u2"))).formula.constants := hs
  rcases List.mem_append.1 (Fact.mem_constants_formula hs) with hs | hs
  · obtain ⟨f, hf, hs⟩ := mem_constants_all.1 hs
    simp only [List.mem_cons, List.not_mem_nil, or_false] at hf
    rcases hf with rfl | rfl | rfl
    · exact hu s (mem_constants_domain hs)
    · exact (List.mem_append.1 (mem_constants_lt hs)).elim (hu s) (hpair s)
    · exact hclaim s (List.mem_append_left _ hs)
  · exact hclaim s (List.mem_append_right _ hs)

end AcceptsPair

end Induction

namespace Proof

variable {name : String} {claim : Pair → Fact} {own : Symbol → Prop} {σ : Stance}
  {hs : List Formula} {r : Reply} {V : View} {hints : Pair → Fact → List Symbol → List Formula}

/-! ### The operations of the scheme -/

/-- A pair is fixed if what is assumed about it is not refused. -/
theorem returns_fixPair (h : AcceptsPair σ claim own hs r) :
    Returns (fixPair name claim) σ.push fun v σ' =>
      v = pairTerm σ.issued ∧ σ' = σ.fixing "v1" "v2" := by
  -- nothing is retired while the layer stays open
  have hadmits : ∀ a ∈ pairAssertions name claim σ.issued,
      (σ.fixing "v1" "v2").Admits a.formula := h.admits name
  obtain ⟨hdomain, hsmaller⟩ := List.forall_mem_cons.1 hadmits
  have hsmaller := List.forall_mem_singleton.1 hsmaller
  have hfault : (smallerHypothesis name (pairTerm σ.issued) (claim (.named "u1" "u2"))).fault? =
      none := Fact.Proper.fault? ⟨rfl, (h.proper _).body⟩ rfl
  refine Returns.fixing ((returns_assume hdomain _).bind fun _ σ₁ h₁ => ?_)
  subst h₁
  refine (returns_requireGuard (h.proper _)).bind fun _ σ₁ h₁ => ?_
  subst h₁
  refine ((returns_assumeFact (List.cons_ne_nil _ _) hfault hsmaller).returning _).mono
    fun v σ₁ h₁ => ?_
  obtain ⟨rfl, _, rfl⟩ := h₁
  exact ⟨rfl, rfl⟩

theorem fit_pairCase (h : AcceptsPair σ claim own hs r) (name : String) :
    Fit (σ.fixing "v1" "v2") (pairCase name claim σ.issued)
      ((pairCase name claim σ.issued).witnesses (σ.issued + 2)) hs :=
  h.mentions.fit (h.numbered.layer _) h.own (h.proper _) h.pair_not_retired h.hints _

/-- Hints that are formulas built from the pair, the hypothesis and the witnesses. -/
def pairsAsking (hints : Pair → Fact → List Symbol → List Formula) : PairHintsT Id :=
  fun v hypothesis ws => pure (hints v hypothesis ws)

theorem runs_pairsAsking (hV : V.frames ≠ []) (n : Nat) :
    Runs (pairsAsking hints (pairTerm n)
      (smallerHypothesis name (pairTerm n) (claim (.named "u1" "u2")))
      ((pairCase name claim n).witnesses (n + 2))) V [] fun hs V' =>
        hs = pairHintsAt name claim hints n ∧ V' = (V.add []).declare 0 := by
  rw [add_nil hV]
  exact runs_pure _

/-- **What well-founded induction asks about all pairs**, and what it concludes then. -/
theorem runs_pairs (V : View) (name : String) (claim : Pair → Fact)
    (hints : Pair → Fact → List Symbol → List Formula) :
    Runs (pairLayer name claim (pairsAsking hints) >>= fun _ => concludePairs name claim) V
      [V.pairQuery name claim V.issued hints] fun f V' =>
        f = wellFoundedConclusion name (claim (.named "w1" "w2")) ∧
          V'.formulas = V.formulas ++ [f.formula] := by
  refine .bind [_] [] (runs_pairLayer rfl (runs_pairsAsking (List.cons_ne_nil _ _) _))
    fun _ W h => ?_
  subst h
  refine ⟨⟨rfl, rfl, rfl⟩, (runs_concludePairs name claim).mono fun f V' h => ?_⟩
  obtain ⟨rfl, rfl⟩ := h
  exact ⟨rfl, View.formulas_conclude _ _⟩

/-- **The query of all pairs is asked** if nothing is refused before. -/
theorem asksAll_pairs (hissued : σ.issued = V.issued)
    (h : AcceptsPair σ claim own (pairHintsAt name claim hints σ.issued) r) :
    AsksAll (pairLayer name claim (pairsAsking hints) >>= fun _ => concludePairs name claim) V σ
      [V.pairQuery name claim V.issued hints] := by
  have hlayer : AsksAll (pairLayer name claim (pairsAsking hints)) V σ
      [V.pairQuery name claim V.issued hints] := by
    refine .scope fun layer _ => .next (runs_fixPair name claim) (returns_fixPair h)
      fun v V₁ σ₁ h₁ h₂ => ?_
    obtain ⟨rfl, rfl⟩ := h₁
    obtain ⟨-, rfl⟩ := h₂
    have hfit := fit_pairCase h name
    rw [hissued] at hfit
    exact asksAll_prove _ _ (congrArg (· + 2) hissued) hfit h.reply
  refine hlayer.ending (runs_pairLayer rfl (runs_pairsAsking (List.cons_ne_nil _ _) _))
    fun _ _ c₁ h₁ => ?_
  obtain ⟨-, V', hshows, -⟩ := h₁
  exact (runs_concludePairs name claim c₁ hshows).mono fun _ _ _ _ => trivial

/-- The layer is closed again if the query of all pairs is refuted. -/
theorem returns_pairLayer (h : AcceptsPair σ claim own (pairHintsAt name claim hints σ.issued) r)
    (hunsat : Verdict.ofAnswer r.answer = .unsat) :
    Returns (pairLayer name claim (pairsAsking hints)) σ fun _ σ' => σ.After σ' := by
  refine returns_scope fun layer _ => (returns_fixPair h).bind fun v σ₁ h₁ => ?_
  obtain ⟨rfl, rfl⟩ := h₁
  exact returns_proveFixing _ (fit_pairCase h name) h.reply hunsat

/-- **The conclusion is drawn** if the query of all pairs is refuted and it is not refused. -/
theorem returns_pairs {c : Context} (hafter : c.stance.After σ)
    (htakes : c.Takes (wellFoundedConclusion name (claim (.named "w1" "w2"))))
    (h : AcceptsPair σ claim own (pairHintsAt name claim hints σ.issued) r)
    (hown : ∀ s, own s → ¬ Fresh σ.issued s) (hunsat : Verdict.ofAnswer r.answer = .unsat) :
    Returns (pairLayer name claim (pairsAsking hints) >>= fun _ => concludePairs name claim) σ
      fun f _ => f = wellFoundedConclusion name (claim (.named "w1" "w2")) := by
  refine (returns_pairLayer h hunsat).bind fun _ σ₂ hσ₂ => ?_
  refine (returns_requireGuard (h.proper _)).bind fun _ σ₃ h₃ => ?_
  subst h₃
  have hadmits := admits_wellFoundedConclusion (hσ₂.numbered h.numbered) h.mentions
    (fun s hs => hσ₂.not_retired (h.own s hs) (hown s hs)) name
  exact ((htakes.returns (hafter.trans hσ₂) hadmits).returning _).mono fun _ _ h => h.1

end Proof

/-! ### Well-founded induction -/

section WellFounded

variable {c : Context} {name : String} {claim : Pair → Fact} {own : Symbol → Prop}
  {baseHints : Option (List Symbol → List Formula)}
  {stepHints : Pair → Fact → List Symbol → List Formula} {r : Reply} {σ : Stance}

/-- The number of the first constant that stands for a pair: the least pair may have been asked
about before. -/
def View.pairNumber (V : View) (claim : Pair → Fact)
    (baseHints : Option (List Symbol → List Formula)) : Nat :=
  V.issued + if baseHints.isSome then (claim .bottom).vars.length else 0

/-- The least pair is not asked about, or its query is asked and refuted. -/
inductive Context.PastLeast (c : Context) (name : String) (claim : Pair → Fact) :
    Option (List Symbol → List Formula) → Stance → Prop where
  | unasked : PastLeast c name claim none c.stance
  | refuted {hints : List Symbol → List Formula} {r : Reply}
      (hhints : ∀ e ∈ hints ((leastCase name claim).witnesses c.issued.length), c.stance.Admits e)
      (hreply : c.session.reply = .ok r) (hunsat : Verdict.ofAnswer r.answer = .unsat) :
      PastLeast c name claim (some hints)
        (c.stance.claimed ((leastCase name claim).witnesses c.stance.issued) r)

/-- Nothing is refused until all queries of well-founded induction are asked: the solver replies to
all of them, and refutes that of the least pair. -/
structure Context.AcceptsPairs (c : Context) (name : String) (claim : Pair → Fact)
    (own : Symbol → Prop) (baseHints : Option (List Symbol → List Formula))
    (stepHints : Pair → Fact → List Symbol → List Formula) (r : Reply) : Prop where
  proper : ∀ p, (claim p).Proper
  mentions : Fact.Mentions pairConstants own claim
  own : ∀ s, own s → s.name ∉ c.retired
  /-- After the least pair the hints are not refused, and the solver replies. -/
  layer : ∃ σ, c.PastLeast name claim baseHints σ ∧
    (∀ e ∈ pairHintsAt name claim stepHints (c.view.pairNumber claim baseHints), σ.Admits e) ∧
      σ.reply = .ok r

theorem Context.PastLeast.after (h : c.PastLeast name claim baseHints σ) :
    c.stance.After σ ∧ σ.issued = c.view.pairNumber claim baseHints := by
  cases h with
  | unasked => exact ⟨⟨rfl, rfl, Nat.le_refl _, fun _ hname => Or.inl hname⟩, rfl⟩
  | refuted => exact ⟨c.stance.after_claimed _ _, c.stance.issued_claimed _ _⟩

namespace Proof

/-- Well-founded induction with hints that are formulas. -/
def wellFoundedAsking (name : String) (claim : Pair → Fact)
    (baseHints : Option (List Symbol → List Formula))
    (stepHints : Pair → Fact → List Symbol → List Formula) : ProofM Fact :=
  wellFounded name (fun p => pure (claim p)) (pairsAsking stepHints)
    (baseHints.map fun hints ws => pure (hints ws))

/-- The queries of well-founded induction. -/
def pairQueries (V : View) (name : String) (claim : Pair → Fact)
    (baseHints : Option (List Symbol → List Formula))
    (stepHints : Pair → Fact → List Symbol → List Formula) : List Query :=
  (baseHints.map (V.leastQuery name claim)).toList ++
    [V.pairQuery name claim (V.pairNumber claim baseHints) stepHints]

theorem runs_wellFoundedAsking (V : View) (name : String) (claim : Pair → Fact)
    (baseHints : Option (List Symbol → List Formula))
    (stepHints : Pair → Fact → List Symbol → List Formula) :
    Runs (wellFoundedAsking name claim baseHints stepHints) V
      (pairQueries V name claim baseHints stepHints) fun f V' =>
        f = wellFoundedConclusion name (claim (.named "w1" "w2")) ∧
          V'.formulas = V.formulas ++ [f.formula] := by
  unfold wellFoundedAsking
  cases baseHints with
  | none =>
      refine (wellFounded_eq name claim _).symm ▸ ?_
      exact runs_pairs V name claim stepHints
  | some hints =>
      refine (wellFounded_eq_some name claim _ _).symm ▸ ?_
      refine .bind [_] [_] (runs_prove_plain (runs_pure _)) fun _ V₁ h₁ => ?_
      obtain rfl : V₁ = V.declare (claim .bottom).vars.length := h₁
      exact ⟨⟨rfl, rfl, rfl⟩, runs_pairs _ name claim stepHints⟩

end Proof

namespace Context.AcceptsPairs

variable (h : c.AcceptsPairs name claim own baseHints stepHints r)

include h

/-- After the least pair nothing is refused in the layer that fixes a pair. -/
theorem step (hc : c.Orderly) (ha : PairsApart claim own c.issued.length) :
    ∃ σ, c.PastLeast name claim baseHints σ ∧
      AcceptsPair σ claim own (pairHintsAt name claim stepHints σ.issued) r := by
  obtain ⟨σ, hpast, hhints, hreply⟩ := h.layer
  obtain ⟨hafter, hissued⟩ := hpast.after
  refine ⟨σ, hpast, hafter.numbered hc.stance_numbered, h.proper, h.mentions, fun s hs => ?_, ?_,
    hreply⟩
  · exact hafter.not_retired (h.own s hs) (ha.own_old s hs)
  · rwa [hissued]

theorem fit_leastCase (hc : c.Orderly) {hints : List Formula}
    (hhints : ∀ e ∈ hints, c.stance.Admits e) :
    Proof.Fit c.stance (leastCase name claim)
      ((leastCase name claim).witnesses c.stance.issued) hints :=
  h.mentions.fit hc.stance_numbered h.own (h.proper _) (fun _ hs => absurd hs List.not_mem_nil)
    hhints (name ++ "/base")

theorem asksAll (hc : c.Reachable) (ha : PairsApart claim own c.issued.length) :
    Proof.AsksAll (Proof.wellFoundedAsking name claim baseHints stepHints) c.view c.stance
      (Proof.pairQueries c.view name claim baseHints stepHints) := by
  obtain ⟨σ, hpast, hstep⟩ := h.step hc.orderly ha
  unfold Proof.wellFoundedAsking
  cases hpast with
  | unasked =>
      refine (Proof.wellFounded_eq name claim _).symm ▸ ?_
      exact Proof.asksAll_pairs (V := c.view) rfl hstep
  | refuted hhints hreply hunsat =>
      refine (Proof.wellFounded_eq_some name claim _ _).symm ▸ ?_
      refine .bind (Proof.runs_prove_plain (Proof.runs_pure _))
        (Proof.returns_prove _ (h.fit_leastCase hc.orderly hhints) hreply hunsat)
        fun _ V₁ σ₁ hV₁ hσ₁ => ?_
      obtain rfl : V₁ = c.view.declare (claim .bottom).vars.length := hV₁
      rw [← hσ₁] at hstep
      refine Proof.asksAll_pairs ?_ hstep
      rw [hσ₁]
      exact c.stance.issued_claimed _ _

theorem returns (hc : c.Reachable) (ha : PairsApart claim own c.issued.length)
    (htakes : c.Takes (wellFoundedConclusion name (claim (.named "w1" "w2"))))
    (hunsat : Verdict.ofAnswer r.answer = .unsat) :
    Proof.Returns (Proof.wellFoundedAsking name claim baseHints stepHints) c.stance
      fun f _ => f = wellFoundedConclusion name (claim (.named "w1" "w2")) := by
  obtain ⟨σ, hpast, hstep⟩ := h.step hc.orderly ha
  obtain ⟨hafter, hissued⟩ := hpast.after
  have hpairs := Proof.returns_pairs hafter htakes hstep
    (fun s hs hfresh => ha.own_old s hs (hfresh.mono hafter.issued)) hunsat
  unfold Proof.wellFoundedAsking
  cases hpast with
  | unasked => exact (Proof.wellFounded_eq name claim _).symm ▸ hpairs
  | refuted hhints hreply hunsat =>
      refine (Proof.wellFounded_eq_some name claim _ _).symm ▸ ?_
      refine .bind (Proof.returns_prove _ (h.fit_leastCase hc.orderly hhints) hreply hunsat)
        fun _ σ₁ hσ₁ => ?_
      exact hσ₁ ▸ hpairs

end Context.AcceptsPairs

namespace Proof

/-- **Well-founded induction is sound and complete.**  In a reachable state it asks about all pairs,
after the least one if there are hints for that, and asks nothing else.  The query of all pairs has
no model exactly if the conclusion follows from what is active before; and then that of the least
pair has none, either.  The conclusion is drawn if the queries are refuted and it is not refused,
and nothing else is ever concluded. -/
theorem wellFounded_faithful (hc : c.Reachable)
    (hactive : ∀ f ∈ c.session.active, Predates c.issued.length f)
    (h : Fact.Reads pairValue own claim) (ha : PairsApart claim own c.issued.length)
    (hstep : let n := c.view.pairNumber claim baseHints
      let V := c.view.descending name claim n
      ∀ e ∈ pairHintsAt name claim stepHints n, Entails (V.formulas ++
        [V.guard (pairCase name claim n), .not (V.body (pairCase name claim n))]) e) :
    let step := c.view.pairQuery name claim (c.view.pairNumber claim baseHints) stepHints
    let queries := pairQueries c.view name claim baseHints stepHints
    let conclusion := wellFoundedConclusion name (claim (.named "w1" "w2"))
    let p := outcome (wellFoundedAsking name claim baseHints stepHints) c
    (Unsatisfiable step.2.formulas ↔ Entails c.session.active conclusion.formula) ∧
      (Unsatisfiable step.2.formulas → ∀ q ∈ queries, Unsatisfiable q.2.formulas) ∧
      (∃ xs, c.Heard p.2 xs ∧ xs.map Exchange.query <+: queries) ∧
      (∀ r, c.AcceptsPairs name claim own baseHints stepHints r →
        (∃ xs, c.Heard p.2 xs ∧ xs.map Exchange.query = queries) ∧
          (Verdict.ofAnswer r.answer = .unsat → c.Takes conclusion → p.1 = .ok conclusion)) ∧
      (∀ f, p.1 = .ok f → f = conclusion ∧
        p.2.session.active = c.session.active ++ [conclusion.formula] ∧
          (p.2.Honest → Entails c.session.active conclusion.formula)) := by
  intro step queries conclusion p
  have hshows := hc.shows
  have hn : c.view.issued ≤ c.view.pairNumber claim baseHints := Nat.le_add_right _ _
  have hiff : Unsatisfiable step.2.formulas ↔ Entails c.session.active conclusion.formula := by
    rw [hshows.active] at hactive ⊢
    exact unsatisfiable_pairQuery_iff h hn (ha.mono hn) (fun f hf => (hactive f hf).settled) hstep
  have hruns := runs_wellFoundedAsking c.view name claim baseHints stepHints c hshows
  refine ⟨hiff, fun hunsat => List.forall_mem_append.2 ⟨?_, List.forall_mem_singleton.2 hunsat⟩,
    hruns.exists_heard, fun r hr => ⟨hr.asksAll hc ha c hshows rfl, fun hunsat htakes => ?_⟩,
    fun f hf => ?_⟩
  · -- the least pair
    have hentails := hiff.1 hunsat
    rw [hshows.active] at hentails
    intro q hq
    obtain ⟨hints, -, rfl⟩ := Option.map_eq_some_iff.1 (Option.mem_toList.1 hq)
    exact unsatisfiable_leastQuery h ha hentails hints
  · obtain ⟨f, c', hout, rfl⟩ := hr.returns hc ha htakes hunsat c rfl
    exact congrArg Prod.fst hout
  · obtain ⟨⟨V', hshows', rfl, hformulas⟩, hunsat⟩ := hruns.of_ok_outcome hf
    refine ⟨rfl, ?_, fun hhonest => hiff.1 (hunsat hhonest step ?_)⟩
    · rw [hshows'.active, hformulas, hshows.active]
    · exact List.mem_append_right _ List.mem_cons_self

/-! ### A claim about pairs beside a fixed number -/

/-- Two numbers, a natural number and the fixed number have a natural number as their sum. -/
def sumOfFour (p : Pair) : Fact :=
  .about "sum" ["n"] (.atLeast (.int "n") 0)
    (.atLeast (Term.plus (Term.plus p.1 p.2) (Term.plus (.int "n") (.int "k!0"))) 0) none

/-- What that claim mentions besides its pair. -/
def ownOfSum : List Symbol :=
  [.int "n", .int "k!0"]

theorem reads_sumOfFour : Fact.Reads pairValue (· ∈ ownOfSum) sumOfFour := by
  have hn {I J : Interpretation} (hIJ : I.AgreeOn (· ∈ ownOfSum) J) :
      (I.const .int "n" : Int) = J.const .int "n" := hIJ.value (.int "n") (by decide)
  have hk {I J : Interpretation} (hIJ : I.AgreeOn (· ∈ ownOfSum) J) :
      (I.const .int "k!0" : Int) = J.const .int "k!0" := hIJ.value (.int "k!0") (by decide)
  refine ⟨fun _ _ => rfl, fun hIJ _ hI => ?_, fun hIJ hvalue hI => ?_⟩
  · simpa [sumOfFour, Fact.about, hn hIJ] using hI
  · obtain ⟨h1, h2⟩ := Prod.mk.inj hvalue
    simpa [sumOfFour, Fact.about, hn hIJ, hk hIJ, h1, h2] using hI

theorem apart_sumOfFour : PairsApart sumOfFour (· ∈ ownOfSum) fixedNumber.issued.length where
  vars_clear := by decide
  own_clear := by decide
  vars_old := List.forall_mem_singleton.2 (not_fresh_of_plain (by decide) 1)
  own_old := by
    refine List.forall_mem_cons.2 ⟨?_, List.forall_mem_singleton.2 ?_⟩
    · exact not_fresh_of_plain (by decide) 1
    · exact not_fresh_of_lt (Nat.lt_succ_self 0) "k" .int

theorem accepts_sumOfFour : fixedNumber.AcceptsPairs "sum" sumOfFour (· ∈ ownOfSum)
    (some fun _ => []) (fun _ _ _ => []) .exhausted where
  proper _ := ⟨rfl, rfl⟩
  mentions p s hs := by
    have hs : s ∈ .int "n" :: (pairConstants p ++ ownOfSum ++ []) := hs
    rw [List.append_nil] at hs
    rcases List.mem_cons.1 hs with rfl | hs
    · exact Or.inl (by decide)
    · exact (List.mem_append.1 hs).symm
  own _ _ := List.not_mem_nil
  layer := ⟨_, .refuted (fun _ he => absurd he List.not_mem_nil) rfl rfl,
    fun _ he => absurd he List.not_mem_nil, rfl⟩

/-- The least pair and all pairs are asked about for that claim, neither query has a model, and the
conclusion is drawn. -/
theorem wellFounded_faithful_sumOfFour :
    let p := outcome (wellFoundedAsking "sum" sumOfFour (some fun _ => []) fun _ _ _ => [])
      fixedNumber
    (∃ xs, fixedNumber.Heard p.2 xs ∧ xs.length = 2 ∧
        ∀ x ∈ xs, Unsatisfiable x.question.formulas) ∧
      p.1 = .ok (wellFoundedConclusion "sum" (sumOfFour (.named "w1" "w2"))) := by
  intro p
  obtain ⟨hiff, hleast, _, hasked, _⟩ := @wellFounded_faithful fixedNumber "sum" sumOfFour
    (· ∈ ownOfSum) (some fun _ => []) (fun _ _ _ => []) reachable_fixedNumber
    predates_fixedNumber reads_sumOfFour apart_sumOfFour (fun _ he => absurd he List.not_mem_nil)
  obtain ⟨⟨xs, hheard, hxs⟩, hreturns⟩ := hasked _ accepts_sumOfFour
  have hentails : Entails fixedNumber.session.active
      (wellFoundedConclusion "sum" (sumOfFour (.named "w1" "w2"))).formula := by
    intro I ρ hI
    have hk : 0 ≤ I.const .int "k!0" := hI _ List.mem_cons_self
    have hsum (a b n : Int) (ha : 0 ≤ a) (hb : 0 ≤ b) (hn : 0 ≤ n) :
        0 ≤ a + b + (n + I.const .int "k!0") :=
      Int.add_nonneg (Int.add_nonneg ha hb) (Int.add_nonneg hn hk)
    simpa [wellFoundedConclusion, sumOfFour, Fact.about, Fact.satisfies_formula, Pair.domain,
      Pair.named] using hsum
  have htakes : fixedNumber.Takes
      (wellFoundedConclusion "sum" (sumOfFour (.named "w1" "w2"))) :=
    ⟨rfl, rfl, fun hnil => absurd hnil (List.cons_ne_nil _ _)⟩
  refine ⟨⟨xs, hheard, ?_, fun x hx => ?_⟩, hreturns rfl htakes⟩
  · rw [← List.length_map (f := Exchange.query), hxs]
    rfl
  · refine hleast (hiff.2 hentails) x.query ?_
    rw [← hxs]
    exact List.mem_map.2 ⟨x, hx, rfl⟩

end Proof

end WellFounded

end CandyCircle
