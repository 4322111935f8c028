/-
**Free constants after replacement.**

A constant of syntax in which constants and bound variables were replaced comes from what stands in
their place.  So an instance of a formula mentions what the formula mentions and what the terms in
place of its constants mention, and a quantified formula mentions nothing that its matrix does not
mention.

Main definitions:

* `CandyCircle.Logic.AnyTerm.Proper` — a term is no integer in place of a formula.

Main results:

* `CandyCircle.Logic.mem_constants_replace` — **constants come from what stands in place of
  others**;
* `CandyCircle.Logic.mem_constants_substitute`, `CandyCircle.Fact.mem_constants_formula` — instances
  and quantified formulas;
* `CandyCircle.Fact.isStanding_bodyFor` — constants in place of variables turn no formula into an
  integer.
-/
import CandyCircle.Proofs.Fact
import CandyCircle.Proofs.Logic.Search

set_option autoImplicit false

namespace CandyCircle

open Logic

namespace Logic

variable {r : Replacement} {x : Symbol}

/-- A constant comes from what stands in place of some constants, or of bound variables. -/
def Replacement.Brings (r : Replacement) (cs : List Symbol) (x : Symbol) : Prop :=
  (∃ d, ∃ t ∈ cs, x ∈ (r.const d t.kind t.name).constants) ∨
    ∃ d kind index, x ∈ (r.bound d kind index).constants

theorem Replacement.Brings.mono {cs cs' : List Symbol} (h : r.Brings cs x) (hcs : cs ⊆ cs') :
    r.Brings cs' x := by
  rcases h with ⟨d, t, ht, hx⟩ | hbound
  · exact Or.inl ⟨d, t, hcs ht, hx⟩
  · exact Or.inr hbound

/-- **Constants come from what stands in place of others**, or of bound variables. -/
theorem mem_constants_replace {s : Shape} (e : Expr s) : ∀ {d : Nat},
    x ∈ (e.replace r d).constants → r.Brings e.constants x := by
  induction e with
  | num | lit | nil | noPattern => intro d h; simp [Expr.replace, Expr.constants] at h
  | const kind name =>
      intro d h
      exact Or.inl ⟨d, ⟨name, kind⟩, List.mem_singleton.2 rfl, h⟩
  | bound kind index =>
      intro d h
      exact Or.inr ⟨d, kind, index, h⟩
  | neg a ih | ratio a _ _ ih | standing a ih | not a ih | and a ih | or a ih | app _ _ a ih
  | quant _ _ a _ _ ih _ =>
      intro d h
      exact ih h
  | arith _ a b iha ihb | order _ a b iha ihb | eq _ a b iha ihb | ne _ a b iha ihb
  | imp a b iha ihb | cons _ a b iha ihb | pat _ a b iha ihb =>
      intro d h
      rcases List.mem_append.1 h with h | h
      · exact (iha h).mono (List.subset_append_left _ _)
      · exact (ihb h).mono (List.subset_append_right _ _)
  | ite _ c a b ihc iha ihb =>
      intro d h
      rcases List.mem_append.1 h with h | h
      · refine Replacement.Brings.mono ?_ (List.subset_append_left _ _)
        rcases List.mem_append.1 h with h | h
        · exact (ihc h).mono (List.subset_append_left _ _)
        · exact (iha h).mono (List.subset_append_right _ _)
      · exact (ihb h).mono (List.subset_append_right _ _)

/-- Writing a numeral first does not change what a comparison mentions. -/
theorem mem_constants_compare {op : Order} {a b : IntTerm} :
    x ∈ (Formula.compare op a b).constants ↔ x ∈ a.constants ∨ x ∈ b.constants := by
  unfold Formula.compare
  split
  · exact List.mem_append.trans or_comm
  · exact List.mem_append

theorem mem_constants_equate {a b : IntTerm} :
    x ∈ (Formula.equate a b).constants ↔ x ∈ a.constants ∨ x ∈ b.constants := by
  unfold Formula.equate
  split
  · exact List.mem_append.trans or_comm
  · exact List.mem_append

theorem mem_constants_ofList {kind : Kind} {as : List (Term kind)} :
    x ∈ (Expr.ofList as).constants ↔ ∃ a ∈ as, x ∈ a.constants := by
  induction as with
  | nil => simp [Expr.ofList, Expr.constants]
  | cons a rest ih => simp [Expr.ofList, Expr.constants, ih]

theorem mem_constants_all {fs : List Formula} :
    x ∈ (Formula.all fs).constants ↔ ∃ f ∈ fs, x ∈ f.constants := by
  exact mem_constants_ofList

theorem mem_constants_any {fs : List Formula} :
    x ∈ (Formula.any fs).constants ↔ ∃ f ∈ fs, x ∈ f.constants := by
  exact mem_constants_ofList

theorem constants_liftBound (n d : Nat) (kind : Kind) (index : Nat) :
    (liftBound n d kind index).constants = [] := by
  unfold liftBound
  split <;> rfl

theorem mem_constants_lift {s : Shape} {e : Expr s} {n : Nat} (h : x ∈ (e.lift n).constants) :
    x ∈ e.constants := by
  rcases mem_constants_replace e h with ⟨_, t, ht, hx⟩ | ⟨_, _, _, hx⟩
  · rwa [List.mem_singleton.1 hx]
  · rw [constants_liftBound] at hx
    cases hx

theorem mem_of_find? {as : List Assignment} {kind : Kind} {name : String} {t : Term kind}
    (h : Assignment.find? as kind name = some t) :
    (⟨⟨name, kind⟩, t⟩ : Assignment) ∈ as := by
  induction as with
  | nil => cases h
  | cons a rest ih =>
      obtain ⟨⟨name', kind'⟩, t'⟩ := a
      unfold Assignment.find? at h
      split at h
      · rename_i hkind
        split at h
        · rename_i hname
          subst hkind hname
          cases h
          exact List.mem_cons_self
        · exact List.mem_cons_of_mem _ (ih h)
      · exact List.mem_cons_of_mem _ (ih h)

/-- **An instance mentions** what was mentioned before, or what a term mentions. -/
theorem mem_constants_substitute {s : Shape} {e : Expr s} {as : List Assignment}
    (h : x ∈ (e.substitute as).constants) :
    x ∈ e.constants ∨ ∃ a ∈ as, x ∈ a.term.constants := by
  rcases mem_constants_replace e h with ⟨_, t, ht, hx⟩ | ⟨_, _, _, hx⟩
  · simp only at hx
    split at hx
    · rename_i u hfind
      exact Or.inr ⟨_, mem_of_find? hfind, mem_constants_lift hx⟩
    · rw [List.mem_singleton.1 hx]
      exact Or.inl ht
  · cases hx

theorem mem_constants_bindSymbols {s : Shape} {e : Expr s} {vars : List Symbol}
    (h : x ∈ (e.bindSymbols vars).constants) : x ∈ e.constants := by
  rcases mem_constants_replace e h with ⟨_, t, ht, hx⟩ | ⟨_, _, _, hx⟩
  · simp only at hx
    split at hx
    · cases hx
    · rwa [List.mem_singleton.1 hx]
  · rw [constants_liftBound] at hx
    cases hx

/-- No integer stands in place of a formula that a term is. -/
def AnyTerm.Proper (t : AnyTerm) : Prop :=
  ∀ p, t.formula? = some p → Formula.isStanding p = false

theorem AnyTerm.proper_const (kind : Kind) (name : String) :
    AnyTerm.Proper ⟨kind, .const kind name⟩ := by
  intro p hp
  cases kind with
  | int => cases hp
  | bool =>
      cases hp
      rfl

/-- Terms in place of constants turn no formula into an integer, unless they stand for one. -/
theorem isStanding_substitute {e : Formula} {as : List Assignment} (he : e.isStanding = false)
    (has : ∀ a ∈ as, AnyTerm.Proper ⟨a.symbol.kind, a.term⟩) :
    Formula.isStanding (e.substitute as) = false := by
  cases e with
  | standing a => cases he
  | const _ name =>
      simp only [Expr.substitute, Expr.replace]
      split
      · rename_i t hfind
        -- a term that comes to stand under no binders is no integer if it was none
        have ht := has _ (mem_of_find? hfind) t rfl
        cases t with
        | standing a => cases ht
        | _ => rfl
      · rfl
  | _ => rfl

end Logic

namespace Fact

variable {f : Fact} {x : Symbol}

theorem mem_constants_matrix (h : x ∈ f.matrix.constants) :
    x ∈ f.guard.constants ++ f.body.constants := by
  unfold matrix at h
  split at h
  · exact List.mem_append_right _ h
  · exact h

/-- **The formula of a fact mentions** nothing besides its guard and its body. -/
theorem mem_constants_formula (h : x ∈ f.formula.constants) :
    x ∈ f.guard.constants ++ f.body.constants := by
  unfold formula at h
  split at h
  · exact mem_constants_matrix h
  · exact mem_constants_matrix (mem_constants_bindSymbols h)

theorem term_mem_of_mem_bind {terms : List AnyTerm} {a : Assignment} (h : a ∈ f.bind terms) :
    (⟨a.symbol.kind, a.term⟩ : AnyTerm) ∈ terms := by
  obtain ⟨p, hp, ha⟩ := List.mem_filterMap.1 h
  obtain ⟨s, kind, t⟩ := p
  unfold assign? at ha
  split at ha
  · rename_i hkind
    cases ha
    simp only at hkind
    subst hkind
    exact (List.of_mem_zip hp).2
  · cases ha

/-- Among the terms in place of variables are only constants, if only these are given. -/
theorem exists_of_mem_bind {ws : List Symbol} {a : Assignment}
    (h : a ∈ f.bind (ws.map Symbol.any)) : ∃ w ∈ ws, a.term.constants = [w] ∧
      a.term = .const a.symbol.kind w.name := by
  obtain ⟨w, hw, heq⟩ := List.mem_map.1 (term_mem_of_mem_bind h)
  obtain ⟨name, kind⟩ := w
  obtain ⟨s, t⟩ := a
  obtain ⟨hkind, hterm⟩ := AnyTerm.mk.inj heq
  simp only at hkind
  subst hkind
  cases hterm
  exact ⟨_, hw, rfl, rfl⟩

/-- **A part of a claim for constants mentions** these, and what it mentioned before. -/
theorem mem_constants_bind {e : Formula} {ws : List Symbol}
    (h : x ∈ (e.substitute (f.bind (ws.map Symbol.any))).constants) : x ∈ e.constants ∨ x ∈ ws := by
  refine (mem_constants_substitute h).imp_right fun ⟨a, ha, hx⟩ => ?_
  obtain ⟨w, hw, hconstants, _⟩ := exists_of_mem_bind ha
  rw [hconstants] at hx
  rwa [List.mem_singleton.1 hx]

/-- **The body of a claim for constants** is no integer if the body is none. -/
theorem isStanding_bodyFor (h : f.body.isStanding = false) (ws : List Symbol) :
    (f.bodyFor (ws.map Symbol.any)).isStanding = false := by
  refine isStanding_substitute h fun a ha => ?_
  obtain ⟨w, _, _, hterm⟩ := exists_of_mem_bind ha
  rw [hterm]
  exact AnyTerm.proper_const _ _

end Fact

end CandyCircle
