/-
**Instances mean what the fact means.**

An instance has terms in place of the variables of a fact, all of them at once, and what the terms
mention is not taken by the quantifiers that they come to stand under.  So an instance says that the
guard implies the body where the variables have the values of the terms, and its negation says that
the guard holds and the body fails there, even if the terms mention the variables themselves.  A
fact is false if it fails for some values of its variables, and, since every value has a literal
that denotes it, if it fails for some terms.

Main definitions:

* `CandyCircle.Logic.Interpretation.Valued` — an interpretation with the values of terms for
  symbols;
* `CandyCircle.Fact.Fits` — there is a term of its sort for each variable of a fact;
* `CandyCircle.Fact.Means` — **what an instance and its negation say**;
* `CandyCircle.Fact.Generalizes` — what a formula says of all instances.

Main results:

* `CandyCircle.Logic.valued_assigned`, `CandyCircle.Logic.Interpretation.Valued.unique` — there is
  just one interpretation with the values of terms for symbols;
* `CandyCircle.Fact.Fits.instanceAt_eq`, `CandyCircle.Fact.Fits.negationAt_eq` — instances are not
  refused;
* `CandyCircle.Fact.instances_mean` — **instances mean what the fact means**.
-/
import CandyCircle.Proofs.Logic.Constants

set_option autoImplicit false

namespace CandyCircle

open Logic

namespace Logic

variable {I J J' : Interpretation} {ρ : Valuation} {vars : List Symbol} {terms : List AnyTerm}

/-! ### Values of terms for symbols -/

/-- A value of either sort. -/
abbrev AnyValue := (kind : Kind) × kind.Value

/-- What a term stands for, with its sort. -/
noncomputable def AnyTerm.meaning (I : Interpretation) (ρ : Valuation) (t : AnyTerm) : AnyValue :=
  ⟨t.kind, t.term.meaning I ρ⟩

/-- The value of a constant, with its sort. -/
def Interpretation.anyValue (I : Interpretation) (s : Symbol) : AnyValue :=
  ⟨s.kind, I.value s⟩

/-- The second interpretation gives symbols the values that terms have in the first one, and differs
in nothing else. -/
structure Interpretation.Valued (I : Interpretation) (ρ : Valuation) (vars : List Symbol)
    (terms : List AnyTerm) (J : Interpretation) : Prop where
  agreeOn : I.AgreeOn (· ∉ vars) J
  values : vars.map J.anyValue = terms.map (AnyTerm.meaning I ρ)

/-- **There is only one interpretation** with the values of terms for symbols. -/
theorem Interpretation.Valued.unique (h : I.Valued ρ vars terms J) (h' : I.Valued ρ vars terms J') :
    J = J' := by
  have hvalues := h.values.trans h'.values.symm
  have hoff : J.AgreeOn (· ∉ vars) J' := h.agreeOn.symm.trans h'.agreeOn
  have hon : ∀ s ∈ vars, J.value s = J'.value s := fun s hs =>
    eq_of_heq (Sigma.mk.inj (List.map_inj_left.1 hvalues s hs)).2
  refine Interpretation.AgreeOn.eq_of_forall (P := fun _ => True)
    ⟨hoff.func, hoff.divZero, hoff.modZero, fun s _ => ?_⟩ fun _ => trivial
  by_cases hs : s ∈ vars
  · exact hon s hs
  · exact hoff.value s hs

/-- One symbol more takes the value of a term, if it is not among the others. -/
theorem Interpretation.Valued.cons {s : Symbol} {t : Term s.kind} (h : I.Valued ρ vars terms J)
    (hs : s ∉ vars) :
    I.Valued ρ (s :: vars) (⟨s.kind, t⟩ :: terms) (J.set s (t.meaning I ρ)) where
  agreeOn := by
    refine (h.agreeOn.mono fun u hu => ?_).trans
      ((Interpretation.AgreeOn.set J s _).mono fun u hu => ?_)
    · exact fun hmem => hu (List.mem_cons_of_mem _ hmem)
    · exact fun heq => hu (heq ▸ List.mem_cons_self)
  values := by
    have hrest : vars.map (J.set s (t.meaning I ρ)).anyValue = vars.map J.anyValue := by
      refine List.map_congr_left fun u hu => ?_
      have hne : u ≠ s := fun heq => hs (heq ▸ hu)
      rw [anyValue, anyValue, J.value_set_of_ne _ hne]
    rw [List.map_cons, List.map_cons, hrest, h.values, anyValue, J.value_set_self]
    rfl

/-- The term of an assignment, its sort apart. -/
def Assignment.any (a : Assignment) : AnyTerm :=
  ⟨a.symbol.kind, a.term⟩

/-- **There is an interpretation** with the values of terms for distinct symbols. -/
theorem valued_assigned (I : Interpretation) (ρ : Valuation) {as : List Assignment}
    (hdistinct : (as.map Assignment.symbol).Nodup) :
    I.Valued ρ (as.map Assignment.symbol) (as.map Assignment.any) (I.assigned ρ as) := by
  induction as with
  | nil => exact ⟨.refl _ I, rfl⟩
  | cons a rest ih =>
      obtain ⟨hfirst, hrest⟩ := List.nodup_cons.1 hdistinct
      rw [Interpretation.assigned_cons]
      exact (ih hrest).cons hfirst

/-- The term that denotes a value. -/
noncomputable def Kind.literal : (kind : Kind) → kind.Value → Term kind
  | .int, v => .num v
  | .bool, p => .lit (byCase p true false)

theorem meaning_literal (I : Interpretation) (ρ : Valuation) : ∀ (kind : Kind) (v : kind.Value),
    (kind.literal v).meaning I ρ = v
  | .int, _ => rfl
  | .bool, p => by
      refine propext ?_
      by_cases hp : p <;> simp [Kind.literal, Expr.meaning, byCase, hp]

end Logic

namespace Fact

variable {f : Fact} {terms : List AnyTerm} {I J : Interpretation} {ρ : Valuation}

/-! ### Terms that fit -/

/-- There is a term for each variable of a fact, of its sort, and no integer in place of a
formula. -/
structure Fits (f : Fact) (terms : List AnyTerm) : Prop where
  kinds : terms.map AnyTerm.kind = f.vars.map Symbol.kind
  proper : ∀ t ∈ terms, t.Proper

/-- The variables themselves fit. -/
theorem fits_vars (f : Fact) : f.Fits (f.vars.map Symbol.any) where
  kinds := by
    rw [List.map_map]
    rfl
  proper t ht := by
    obtain ⟨s, _, rfl⟩ := List.mem_map.1 ht
    exact AnyTerm.proper_const _ _

/-- The variables have their own values. -/
theorem valued_vars (f : Fact) (J : Interpretation) (ρ : Valuation) :
    J.Valued ρ f.vars (f.vars.map Symbol.any) J where
  agreeOn := .refl _ J
  values := by
    rw [List.map_map]
    rfl

/-- The literals for the values that an interpretation gives the variables. -/
noncomputable def literals (f : Fact) (J : Interpretation) : List AnyTerm :=
  f.vars.map fun s => ⟨s.kind, s.kind.literal (J.value s)⟩

theorem fits_literals (f : Fact) (J : Interpretation) : f.Fits (f.literals J) where
  kinds := by
    rw [literals, List.map_map]
    rfl
  proper t ht := by
    obtain ⟨⟨name, kind⟩, _, rfl⟩ := List.mem_map.1 ht
    intro p hp
    cases kind with
    | int => cases hp
    | bool =>
        cases hp
        rfl

/-- Literals have the values that they were made from. -/
theorem valued_literals (h : I.AgreeOn (· ∉ f.vars) J) :
    I.Valued ρ f.vars (f.literals J) J where
  agreeOn := h
  values := by
    rw [literals, List.map_map]
    refine List.map_congr_left fun s _ => ?_
    simp only [Function.comp, AnyTerm.meaning, meaning_literal]
    rfl

/-- Terms for symbols, each of the sort of its symbol, are assignments. -/
theorem exists_assignments {vars : List Symbol}
    (hkinds : terms.map AnyTerm.kind = vars.map Symbol.kind) :
    ∃ as : List Assignment, as.map Assignment.symbol = vars ∧ as.map Assignment.any = terms := by
  induction vars generalizing terms with
  | nil => exact ⟨[], rfl, (List.map_eq_nil_iff.1 hkinds).symm⟩
  | cons s rest ih =>
      cases terms with
      | nil => cases hkinds
      | cons t ts =>
          obtain ⟨kind, t⟩ := t
          obtain ⟨hkind, hrest⟩ := List.cons.inj hkinds
          simp only at hkind
          subst hkind
          obtain ⟨as, rfl, rfl⟩ := ih hrest
          exact ⟨⟨s, t⟩ :: as, rfl, rfl⟩

theorem mapM_assign? (as : List Assignment) :
    (((as.map Assignment.symbol).zip (as.map Assignment.any)).mapM fun p => assign? p.1 p.2) =
      some as := by
  induction as with
  | nil => rfl
  | cons a rest ih =>
      have ha : assign? a.symbol a.any = some a := dif_pos rfl
      simp only [List.map_cons, List.zip_cons_cons, List.mapM_cons, ha, ih]
      rfl

namespace Fits

/-- Terms that fit are put in place of the variables. -/
theorem bind_spec (h : f.Fits terms) :
    f.assignments terms = .ok (f.bind terms) ∧ (f.bind terms).map Assignment.symbol = f.vars ∧
      (f.bind terms).map Assignment.any = terms := by
  obtain ⟨as, hvars, hterms⟩ := exists_assignments h.kinds
  have hlength : terms.length = f.vars.length := by simpa using congrArg List.length h.kinds
  have hmapM := mapM_assign? as
  rw [hvars, hterms] at hmapM
  have hok : f.assignments terms = .ok as := by simp [assignments, hlength, hmapM]
  rw [← eq_bind hok]
  exact ⟨hok, hvars, hterms⟩

theorem isStanding_substitute (h : f.Fits terms) {e : Formula} (he : e.isStanding = false) :
    Formula.isStanding (e.substitute (f.bind terms)) = false :=
  Logic.isStanding_substitute he fun _ ha => h.proper _ (term_mem_of_mem_bind ha)

/-- The interpretation in which an instance is read gives the variables the values of the terms. -/
theorem valued (h : f.Fits terms) (hdistinct : f.vars.Nodup) :
    I.Valued ρ f.vars terms (I.assigned ρ (f.bind terms)) := by
  obtain ⟨-, hvars, hterms⟩ := h.bind_spec
  rw [← hvars] at hdistinct
  have hvalued := valued_assigned I ρ hdistinct
  rwa [hvars, hterms] at hvalued

/-- **An instance is not refused.** -/
theorem instanceAt_eq (h : f.Fits terms) (hf : f.Proper) :
    f.instanceAt terms = .ok (f.matrixFor terms) := by
  rw [instanceAt, hf.matrixFault?, h.bind_spec.1]
  rfl

end Fits

/-! ### What instances say -/

/-- The negation of an instance: the guard holds of the terms and the body fails. -/
def negationFor (f : Fact) (terms : List AnyTerm) : Formula :=
  Formula.all [f.guardFor terms, .not (f.bodyFor terms)]

/-- **The negation of an instance is not refused.** -/
theorem Fits.negationAt_eq (h : f.Fits terms) (hf : f.Proper) :
    f.negationAt terms = .ok (f.negationFor terms) := by
  have hguard := h.isStanding_substitute hf.guard
  have hbody := h.isStanding_substitute hf.body
  have hfails : (Formula.negation (f.body.substitute (f.bind terms))).mapError FactFault.form =
      .ok (.not (f.bodyFor terms)) := by
    rw [Formula.negation, Formula.proper, hbody]
    rfl
  have hformulas : [f.guard.substitute (f.bind terms), .not (f.bodyFor terms)].any
      Formula.isStanding = false := by
    rw [List.any_cons, hguard]
    rfl
  have hboth : (Formula.conjunction [f.guard.substitute (f.bind terms),
      .not (f.bodyFor terms)]).mapError FactFault.form = .ok (f.negationFor terms) := by
    rw [Formula.conjunction, hformulas]
    rfl
  rw [negationAt, h.bind_spec.1]
  simp only [Bind.bind, Except.bind, hfails]
  exact hboth

/-- An instance says that the guard implies the body where the variables have the values of the
terms. -/
theorem satisfies_matrixFor_iff (h : f.Fits terms) (hdistinct : f.vars.Nodup)
    (hJ : I.Valued ρ f.vars terms J) :
    Satisfies I ρ (f.matrixFor terms) ↔ (Satisfies J ρ f.guard → Satisfies J ρ f.body) := by
  rw [hJ.unique (h.valued hdistinct), Satisfies, matrixFor, meaning_substitute]
  exact f.satisfies_matrix

/-- Its negation says that the guard holds there and the body fails. -/
theorem satisfies_negationFor (h : f.Fits terms) (hdistinct : f.vars.Nodup)
    (hJ : I.Valued ρ f.vars terms J) :
    Satisfies I ρ (f.negationFor terms) ↔ Satisfies J ρ f.guard ∧ ¬ Satisfies J ρ f.body := by
  rw [hJ.unique (h.valued hdistinct), ← satisfies_guardFor, ← satisfies_bodyFor, negationFor,
    meaning_all, List.forall_mem_cons, List.forall_mem_singleton]
  rfl

/-- **What an instance and its negation say**, as the variables have the values of the terms. -/
structure Means (f : Fact) (I : Interpretation) (ρ : Valuation) (terms : List AnyTerm)
    (inst neg : Formula) : Prop where
  /-- The variables can have these values. -/
  exists_valued : ∃ J, I.Valued ρ f.vars terms J
  /-- With these values the guard implies the body. -/
  inst_iff : ∀ J, I.Valued ρ f.vars terms J →
    (Satisfies I ρ inst ↔ (Satisfies J ρ f.guard → Satisfies J ρ f.body))
  /-- The negation is true if the instance is false. -/
  neg_iff : Satisfies I ρ neg ↔ ¬ Satisfies I ρ inst

theorem means_of_fits (h : f.Fits terms) (hdistinct : f.vars.Nodup) :
    f.Means I ρ terms (f.matrixFor terms) (f.negationFor terms) where
  exists_valued := ⟨_, h.valued hdistinct⟩
  inst_iff _ hJ := satisfies_matrixFor_iff h hdistinct hJ
  neg_iff := by
    rw [satisfies_negationFor h hdistinct (h.valued hdistinct),
      satisfies_matrixFor_iff h hdistinct (h.valued hdistinct), Classical.not_imp]

/-! ### What the fact says of its instances -/

/-- **What a formula says of the instances of a fact.** -/
structure Generalizes (f : Fact) (I : Interpretation) (ρ : Valuation) (e : Formula) : Prop where
  /-- If it is true, all instances are. -/
  instances : Satisfies I ρ e → ∀ terms inst, f.Fits terms → f.instanceAt terms = .ok inst →
    Satisfies I ρ inst
  /-- It is false if the variables have values for which the fact fails. -/
  fails_iff_values : ¬ Satisfies I ρ e ↔ ∃ J neg, I.AgreeOn (· ∉ f.vars) J ∧
    f.negationAt (f.vars.map Symbol.any) = .ok neg ∧ Satisfies J ρ neg
  /-- It is false if there are terms for which the fact fails. -/
  fails_iff_terms : ¬ Satisfies I ρ e ↔ ∃ terms neg, f.Fits terms ∧
    f.negationAt terms = .ok neg ∧ Satisfies I ρ neg

/-- A fact is false if its guard holds and its body fails for some values of its variables. -/
theorem not_satisfies_formula_iff (f : Fact) :
    ¬ Satisfies I ρ f.formula ↔
      ∃ J, I.AgreeOn (· ∉ f.vars) J ∧ Satisfies J ρ f.guard ∧ ¬ Satisfies J ρ f.body := by
  simp only [satisfies_formula_iff, not_forall, exists_prop]

theorem generalizes_formula (hf : f.Proper) (hdistinct : f.vars.Nodup) :
    f.Generalizes I ρ f.formula where
  instances h terms inst _ hinst := by
    rw [eq_matrixFor hinst]
    exact satisfies_matrixFor h terms
  fails_iff_values := by
    rw [not_satisfies_formula_iff]
    refine exists_congr fun J => ?_
    rw [← satisfies_negationFor f.fits_vars hdistinct (f.valued_vars J ρ),
      f.fits_vars.negationAt_eq hf]
    constructor
    · exact fun ⟨hagree, hneg⟩ => ⟨_, hagree, rfl, hneg⟩
    · rintro ⟨_, hagree, heq, hneg⟩
      cases heq
      exact ⟨hagree, hneg⟩
  fails_iff_terms := by
    rw [not_satisfies_formula_iff]
    constructor
    · -- the values for which the fact fails have literals
      rintro ⟨J, hagree, hfails⟩
      have hfits := f.fits_literals J
      refine ⟨f.literals J, _, hfits, hfits.negationAt_eq hf, ?_⟩
      exact (satisfies_negationFor hfits hdistinct (valued_literals hagree)).2 hfails
    · rintro ⟨terms, neg, hfits, heq, hneg⟩
      rw [hfits.negationAt_eq hf] at heq
      cases heq
      have hvalued := hfits.valued (I := I) (ρ := ρ) hdistinct
      exact ⟨_, hvalued.agreeOn, (satisfies_negationFor hfits hdistinct hvalued).1 hneg⟩

/-- **Instances mean what the fact means**: none is refused for terms that fit, and the formula of
the fact, if it can be built, says that all of them are true. -/
theorem instances_mean (hf : f.Proper) (hdistinct : f.vars.Nodup) (I : Interpretation)
    (ρ : Valuation) :
    (∀ terms, f.Fits terms → ∃ inst neg, f.instanceAt terms = .ok inst ∧
        f.negationAt terms = .ok neg ∧ f.Means I ρ terms inst neg) ∧
      ∀ e, f.formula? = .ok e → f.Generalizes I ρ e := by
  constructor
  · intro terms hfits
    exact ⟨_, _, hfits.instanceAt_eq hf, hfits.negationAt_eq hf, means_of_fits hfits hdistinct⟩
  · intro e he
    rw [eq_formula he]
    exact generalizes_formula hf hdistinct

/-- Of two numbers the greater is the less one and something: the fact binds a name in its body. -/
def reaches : Fact :=
  .about "reaches" ["x", "y"] (.order .lt (Term.int "x") (Term.int "y"))
    (.thereIs [.int "j"] (.equate ((Term.int "x").plus (Term.int "j")) (Term.int "y")) []) none

/-- The constants `y` and `j` are one and three; whatever else there is, is zero or false. -/
def oneAndThree : Interpretation where
  const
    | .int, name => if name = "y" then (1 : Int) else if name = "j" then (3 : Int) else (0 : Int)
    | .bool, _ => False
  func kind _ _ := kind.filler
  divZero _ := 0
  modZero _ := 0

/-- With a variable of its own and the name that it binds in place of its variables, a fact says of
one and three what it should. -/
theorem instances_mean_own_names :
    reaches.Proper ∧ reaches.vars.Nodup ∧
      reaches.Fits [.int (Term.int "y"), .int (Term.int "j")] ∧
      reaches.formula? = .ok reaches.formula ∧
      ∃ inst neg, reaches.instanceAt [.int (Term.int "y"), .int (Term.int "j")] = .ok inst ∧
        reaches.negationAt [.int (Term.int "y"), .int (Term.int "j")] = .ok neg ∧
        Satisfies oneAndThree (fun kind _ => kind.filler) inst ∧
        ¬ Satisfies oneAndThree (fun kind _ => kind.filler) neg := by
  have hproper : reaches.Proper := ⟨rfl, rfl⟩
  have hdistinct : reaches.vars.Nodup := by decide
  have hfits : reaches.Fits [.int (Term.int "y"), .int (Term.int "j")] := by
    refine ⟨rfl, ?_⟩
    simp only [List.forall_mem_cons]
    exact ⟨AnyTerm.proper_const _ _, AnyTerm.proper_const _ _, by simp⟩
  obtain ⟨hinstances, -⟩ :=
    instances_mean hproper hdistinct oneAndThree (fun kind _ => kind.filler)
  obtain ⟨inst, neg, hinst, hneg, hmeans⟩ := hinstances _ hfits
  have htrue : Satisfies oneAndThree (fun kind _ => kind.filler) inst := by
    obtain ⟨J, hJ⟩ := hmeans.exists_valued
    refine (hmeans.inst_iff J hJ).2 fun _ => ?_
    have hx : J.const .int "x" = (1 : Int) := eq_of_heq (Sigma.mk.inj (List.cons.inj hJ.values).1).2
    have hy : J.const .int "y" = (3 : Int) :=
      eq_of_heq (Sigma.mk.inj (List.cons.inj (List.cons.inj hJ.values).2).1).2
    refine (satisfies_quantify J _ .some _ _ none []).2 ⟨(2 : Int), ?_⟩
    refine (meaning_equate _ _ _ _).2 ?_
    simp [Term.plus, Term.int, Expr.meaning, Interpretation.arith, hx, hy]
  exact ⟨hproper, hdistinct, hfits, rfl, inst, neg, hinst, hneg, htrue,
    fun h => hmeans.neg_iff.1 h htrue⟩

end Fact

end CandyCircle
