/-
**What truth depends on.**

The names that a search finds in a term are all that its value depends on, functions apart.  They
are the names of the constants that occur in it, under whatever quantifiers; a quantifier takes out
the constants that it binds, of their names and sorts, and a constant may stand under a quantifier
whose variable goes by its name.  So the truth of a formula that is not refused for retired
constants does not depend on the values of these, whatever its bound variables are called.

Main definitions:

* `CandyCircle.Logic.Captures` — **some names are all that a term depends on**;
* `CandyCircle.Logic.Independent` — constants of some names have no influence on the truth of a
  formula.

Main results:

* `CandyCircle.Logic.captures_names` — the names that are found are all that a term depends on;
* `CandyCircle.Context.names_capture` — **nothing retired has influence on what is not refused**.
-/
import CandyCircle.Proofs.Fact.Instances
import CandyCircle.Proofs.Logic.Agreement
import CandyCircle.Proofs.Refutation.Leaking

set_option autoImplicit false

namespace CandyCircle

open Logic

namespace Logic

/-- **Some names are all that a term depends on.** -/
structure Captures {kind : Kind} (names : List String) (t : Term kind) : Prop where
  /-- They are the names of the constants that occur in it outside of patterns. -/
  mem_iff : ∀ name, name ∈ names ↔ ∃ x, t.Occurs False x ∧ x.name = name
  /-- It has one value under all interpretations that agree on functions and on the constants of
  these names. -/
  meaning_eq : ∀ I J : Interpretation, I.AgreeOn (fun x => x.name ∈ names) J →
    ∀ ρ, t.meaning I ρ = t.meaning J ρ

/-- A formula is true or not, whatever the values of the constants of some names are. -/
def Independent (names : List String) (f : Formula) : Prop :=
  ∀ I J : Interpretation, I.AgreeOn (fun x => x.name ∉ names) J →
    ∀ ρ, Satisfies I ρ f ↔ Satisfies J ρ f

/-- **The names that are found are all that a term depends on.** -/
theorem captures_names {kind : Kind} (t : Term kind) : Captures t.names t where
  mem_iff _ := mem_names_iff_occurs
  meaning_eq _ _ h ρ :=
    meaning_congr t (h.mono fun x hx => mem_names_iff.2 ⟨x, hx, rfl⟩) ρ

/-- A formula does not depend on constants whose names are not found in it. -/
theorem independent_of_names {names : List String} {f : Formula}
    (h : ∀ name ∈ f.names, name ∉ names) : Independent names f := by
  intro I J hIJ ρ
  have hnames : I.AgreeOn (fun x => x.name ∈ f.names) J := hIJ.mono fun x hx => h x.name hx
  exact iff_of_eq ((captures_names f).meaning_eq I J hnames ρ)

end Logic

namespace Context

/-- **The names that are found are all that a term depends on**, and a quantifier takes out the
names of what it binds and of nothing else.  Those of retired constants are what a formula is
refused for, and so the truth of a formula that is not refused does not depend on retired constants.
-/
theorem names_capture :
    (∀ (kind : Kind) (t : Term kind), Captures t.names t) ∧
      (∀ (q : Quantifier) (vars : List Symbol) (body : Formula) (id : Option String)
        (pattern : List AnyTerm) (name : String),
        name ∈ (Formula.quantify q vars body id pattern).names ↔
          ∃ x, (body.Occurs False x ∧ x ∉ vars) ∧ x.name = name) ∧
      ∀ (c : Context) (f : Formula),
        (∀ name, name ∈ c.leaks f ↔ name ∈ c.retired ∧ name ∈ f.names) ∧
          ∀ what, c.refuseLeaks f what = .ok () → Independent c.retired f := by
  refine ⟨fun kind t => captures_names t, fun q vars body id pattern name => ?_, fun c f => ?_⟩
  · simp only [mem_names_iff_occurs, occurs_quantify, false_and, or_false]
  · refine ⟨fun name => ?_, fun what hpasses => ?_⟩
    · rw [mem_leaks_iff, mem_names_iff_occurs]
    · exact independent_of_names (Proof.not_retired_of_refuseLeaks hpasses)

/-- Whatever the variable is called, all integers are at least a constant that goes by its name. -/
def namesake : Formula :=
  Expr.substitute [⟨.int "a", Term.int "w!0"⟩]
    (Formula.quantify .all [.int "w!0"] (.order .ge (Term.int "w!0") (Term.int "a")) none [])

/-- The name of a retired constant is found in a formula that mentions the constant under a
quantifier of the same name, and the formula does not depend on the constant that this one replaced;
a formula that only binds the name is not refused, and does not depend on the retired constant. -/
theorem names_capture_namesake :
    ("w!0" ∈ namesake.names ∧ "a" ∉ namesake.names) ∧
      (Fact.oneAndThree.AgreeOn (fun x => x.name ∈ namesake.names)
          (Fact.oneAndThree.set (.int "a") (5 : Int)) ∧
        Expr.meaning Fact.oneAndThree (fun kind _ => kind.filler) namesake =
          Expr.meaning (Fact.oneAndThree.set (.int "a") (5 : Int)) (fun kind _ => kind.filler)
            namesake) ∧
      retiring.refuseLeaks shadowing.formula "" = .ok () ∧
      (Fact.oneAndThree.AgreeOn (fun x => x.name ∉ retiring.retired)
          (Fact.oneAndThree.set (.int "w!0") (5 : Int)) ∧
        (Satisfies Fact.oneAndThree (fun kind _ => kind.filler) shadowing.formula ↔
          Satisfies (Fact.oneAndThree.set (.int "w!0") (5 : Int)) (fun kind _ => kind.filler)
            shadowing.formula)) := by
  obtain ⟨hcaptures, -, hleaks⟩ := names_capture
  have hnames : "w!0" ∈ namesake.names ∧ "a" ∉ namesake.names := by decide +kernel
  have hagree : Fact.oneAndThree.AgreeOn (fun x => x.name ∈ namesake.names)
      (Fact.oneAndThree.set (.int "a") (5 : Int)) := by
    refine (Interpretation.AgreeOn.set _ (.int "a") _).mono ?_
    rintro _ hx rfl
    exact hnames.2 hx
  have hpasses : retiring.refuseLeaks shadowing.formula "" = .ok () := by
    rw [refuseLeaks_eq, if_pos (by decide +kernel)]
  have hretired : Fact.oneAndThree.AgreeOn (fun x => x.name ∉ retiring.retired)
      (Fact.oneAndThree.set (.int "w!0") (5 : Int)) := by
    refine (Interpretation.AgreeOn.set _ (.int "w!0") _).mono ?_
    rintro _ hx rfl
    exact hx (mem_retired_retiring.2 rfl)
  exact ⟨hnames, ⟨hagree, (hcaptures .bool namesake).meaning_eq _ _ hagree _⟩, hpasses, hretired,
    (hleaks retiring _).2 "" hpasses _ _ hretired _⟩

end Context

end CandyCircle
