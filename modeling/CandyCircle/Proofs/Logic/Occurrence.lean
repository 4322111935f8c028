/-
**Where constants occur.**

A constant occurs in syntax at its own place, under connectives, in arguments, under quantifiers,
and in the instantiation patterns of quantifiers.  The constants that are collected from a term are
exactly those that occur outside of patterns.

Main definitions:

* `CandyCircle.Logic.Expr.Occurs` — **a constant occurs**, in patterns only if these count.

Main results:

* `CandyCircle.Logic.mem_constants_iff` — the collected constants are those that occur outside of
  patterns;
* `CandyCircle.Logic.mem_names_iff_occurs` — so are the constants whose names are found;
* `CandyCircle.Logic.occurs_bindSymbols`, `CandyCircle.Logic.occurs_quantify` — a quantifier takes
  out its variables, and nothing else;
* `CandyCircle.Fact.occurs_formula_iff` — what occurs in the formula of a fact.
-/
import CandyCircle.Proofs.Logic.Constants

set_option autoImplicit false

namespace CandyCircle

open Logic

namespace Logic

variable {x : Symbol}

/-- **A constant occurs in syntax**, in the patterns of quantifiers only if these count. -/
def Expr.Occurs (patterns : Prop) (x : Symbol) {s : Shape} : Expr s → Prop
  | .num _ => False
  | .lit _ => False
  | .const kind name => x = ⟨name, kind⟩
  | .bound _ _ => False
  | .arith _ a b => a.Occurs patterns x ∨ b.Occurs patterns x
  | .neg a => a.Occurs patterns x
  | .order _ a b => a.Occurs patterns x ∨ b.Occurs patterns x
  | .ratio a _ _ => a.Occurs patterns x
  | .standing a => a.Occurs patterns x
  | .eq _ a b => a.Occurs patterns x ∨ b.Occurs patterns x
  | .ne _ a b => a.Occurs patterns x ∨ b.Occurs patterns x
  | .not a => a.Occurs patterns x
  | .and as => as.Occurs patterns x
  | .or as => as.Occurs patterns x
  | .imp a b => a.Occurs patterns x ∨ b.Occurs patterns x
  | .ite _ c a b => c.Occurs patterns x ∨ a.Occurs patterns x ∨ b.Occurs patterns x
  | .app _ _ args => args.Occurs patterns x
  | .quant _ _ body _ pattern => body.Occurs patterns x ∨ patterns ∧ pattern.Occurs patterns x
  | .nil _ => False
  | .cons _ a rest => a.Occurs patterns x ∨ rest.Occurs patterns x
  | .noPattern => False
  | .pat _ a rest => a.Occurs patterns x ∨ rest.Occurs patterns x

/-- **The collected constants are those that occur outside of patterns.** -/
theorem mem_constants_iff {s : Shape} {e : Expr s} : x ∈ e.constants ↔ e.Occurs False x := by
  induction e with
  | num | lit | bound | nil | noPattern => exact iff_of_false List.not_mem_nil id
  | const kind name => exact List.mem_singleton
  | neg a ih | ratio a _ _ ih | standing a ih | not a ih | and a ih | or a ih | app _ _ a ih =>
      exact ih
  | arith _ a b iha ihb | order _ a b iha ihb | eq _ a b iha ihb | ne _ a b iha ihb
  | imp a b iha ihb | cons _ a b iha ihb | pat _ a b iha ihb =>
      exact List.mem_append.trans (or_congr iha ihb)
  | ite _ c a b ihc iha ihb =>
      change x ∈ c.constants ++ a.constants ++ b.constants ↔ _ ∨ _ ∨ _
      rw [List.mem_append, List.mem_append, or_assoc]
      exact or_congr ihc (or_congr iha ihb)
  | quant _ _ body _ pattern ih _ =>
      exact ih.trans (or_iff_left And.left).symm

/-- **The names that are found are those of the constants that occur outside of patterns.** -/
theorem mem_names_iff_occurs {kind : Kind} {t : Term kind} {name : String} :
    name ∈ t.names ↔ ∃ x, t.Occurs False x ∧ x.name = name := by
  simp only [mem_names_iff, mem_constants_iff]

/-- What stands in place of constants decides which still occur. -/
theorem occurs_replace {patterns left : Prop} {r : Replacement}
    (hconst : ∀ d kind name,
      (r.const d kind name).Occurs patterns x ↔ x = ⟨name, kind⟩ ∧ left)
    (hbound : ∀ d kind index, ¬ (r.bound d kind index).Occurs patterns x) {s : Shape} (e : Expr s) :
    ∀ d, (e.replace r d).Occurs patterns x ↔ e.Occurs patterns x ∧ left := by
  induction e with
  | num | lit | nil | noPattern => exact fun _ => (iff_of_false id fun h => h.1)
  | const kind name => exact fun d => hconst d kind name
  | bound kind index => exact fun d => iff_of_false (hbound d kind index) fun h => h.1
  | neg a ih | ratio a _ _ ih | standing a ih | not a ih | and a ih | or a ih | app _ _ a ih =>
      exact ih
  | arith _ a b iha ihb | order _ a b iha ihb | eq _ a b iha ihb | ne _ a b iha ihb
  | imp a b iha ihb | cons _ a b iha ihb | pat _ a b iha ihb =>
      exact fun d => (or_congr (iha d) (ihb d)).trans or_and_right.symm
  | ite _ c a b ihc iha ihb =>
      intro d
      change _ ∨ _ ∨ _ ↔ (_ ∨ _ ∨ _) ∧ left
      rw [or_and_right, or_and_right]
      exact or_congr (ihc d) (or_congr (iha d) (ihb d))
  | quant _ vars body _ pattern ih ihpattern =>
      intro d
      change _ ∨ patterns ∧ _ ↔ (_ ∨ patterns ∧ _) ∧ left
      rw [or_and_right, and_assoc]
      exact or_congr (ih _) (and_congr_right fun _ => ihpattern _)

/-- **A quantifier takes out its variables**, and nothing else. -/
theorem occurs_bindSymbols {patterns : Prop} {s : Shape} (e : Expr s) (vars : List Symbol) :
    (e.bindSymbols vars).Occurs patterns x ↔ e.Occurs patterns x ∧ x ∉ vars := by
  refine occurs_replace (fun d kind name => ?_) (fun d kind index => ?_) e 0
  · have hplace : position? vars ⟨name, kind⟩ = none ↔ (⟨name, kind⟩ : Symbol) ∉ vars := by
      rw [position?, List.idxOf?_eq_none_iff, List.mem_reverse]
    by_cases hmem : (⟨name, kind⟩ : Symbol) ∈ vars
    · obtain ⟨place, hsome⟩ := Option.ne_none_iff_exists'.1 fun hnone => hplace.1 hnone hmem
      simp only [hsome]
      refine iff_of_false id ?_
      rintro ⟨rfl, hnot⟩
      exact hnot hmem
    · simp only [hplace.2 hmem]
      refine (and_iff_left_of_imp ?_).symm
      rintro rfl
      exact hmem
  · change ¬ (liftBound vars.length d kind index).Occurs patterns x
    unfold liftBound
    split <;> exact id

theorem occurs_ofTerms {patterns : Prop} (terms : List AnyTerm) :
    (Expr.ofTerms terms).Occurs patterns x ↔ ∃ t ∈ terms, t.term.Occurs patterns x := by
  induction terms with
  | nil => exact iff_of_false id (by simp)
  | cons t rest ih =>
      simp only [List.mem_cons, exists_eq_or_imp]
      exact or_congr_right ih

/-- **What occurs in a quantified formula** occurs in its matrix, or in its pattern if patterns
count, and is none of its variables. -/
theorem occurs_quantify {patterns : Prop} {q : Quantifier} {vars : List Symbol} {body : Formula}
    {id : Option String} {pattern : List AnyTerm} :
    (Formula.quantify q vars body id pattern).Occurs patterns x ↔
      (body.Occurs patterns x ∨ patterns ∧ ∃ t ∈ pattern, t.term.Occurs patterns x) ∧
        x ∉ vars := by
  change (body.bindSymbols vars).Occurs patterns x ∨
    patterns ∧ ((Expr.ofTerms pattern).bindSymbols vars).Occurs patterns x ↔ _
  rw [occurs_bindSymbols, occurs_bindSymbols, occurs_ofTerms, or_and_right, and_assoc]

end Logic

namespace Fact

variable {x : Symbol}

theorem occurs_matrix_iff {patterns : Prop} (f : Fact) :
    f.matrix.Occurs patterns x ↔ f.guard.Occurs patterns x ∨ f.body.Occurs patterns x := by
  unfold matrix
  split
  · rename_i htrue
    have hguard : f.guard = .lit true := by
      unfold Formula.isTrue at htrue
      split at htrue
      · assumption
      · cases htrue
    rw [hguard]
    exact (or_iff_right id).symm
  · rfl

/-- **What occurs in the formula of a fact** occurs in its guard or its body, or in its trigger if
patterns count and there are variables, and is none of its variables. -/
theorem occurs_formula_iff {patterns : Prop} (f : Fact) : f.formula.Occurs patterns x ↔
    (f.guard.Occurs patterns x ∨ f.body.Occurs patterns x ∨
      (patterns ∧ f.vars ≠ [] ∧ ∃ t ∈ (f.trigger.map Trigger.terms).getD [],
        t.term.Occurs patterns x)) ∧ x ∉ f.vars := by
  unfold formula
  split
  · rename_i hvars
    simp [List.isEmpty_iff.1 hvars, occurs_matrix_iff]
  · rename_i hvars
    have hne : f.vars ≠ [] := by simpa using hvars
    simp only [occurs_quantify, occurs_matrix_iff, hne, ne_eq, not_false_eq_true, true_and,
      or_assoc]

end Fact

end CandyCircle
