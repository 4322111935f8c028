/-
**What replacement does to meaning.**

Terms in place of constants, and constants under a quantifier, are one recursion; so are the proofs
that they mean what they should.  A replacement that is right about constants and bound variables at
every depth is right about all syntax.  Substituting terms for constants comes to changing the
values of these constants, and quantifying constants to letting their values range.

Main definitions:

* `CandyCircle.Logic.Interpretation.set` — an interpretation with the value of a constant changed;
* `CandyCircle.Logic.Interpretation.assigned` — with those that are substituted for;
* `CandyCircle.Logic.Quantifier.over` — a property of interpretations while the values of constants
  range.

Main results:

* `CandyCircle.Logic.meaning_replace` — **a replacement that is right about constants and bound
  variables is right about all syntax**;
* `CandyCircle.Logic.meaning_substitute` — substitution changes the values of constants;
* `CandyCircle.Logic.satisfies_quantify` — quantifying constants lets their values range.
-/
import CandyCircle.Logic.Meaning
import CandyCircle.Logic.Replacement
import Mathlib.Logic.Function.Basic

set_option autoImplicit false

namespace CandyCircle.Logic

/-! ### Valuations -/

/-- A valuation without the values of the innermost variables. -/
def Valuation.drop (n : Nat) (ρ : Valuation) : Valuation :=
  fun kind index => ρ kind (index + n)

/-- A valuation without the values of `n` variables from number `depth` on. -/
def Valuation.skip (n depth : Nat) (ρ : Valuation) : Valuation :=
  fun kind index => if index < depth then ρ kind index else ρ kind (index + n)

theorem Valuation.skip_zero (n : Nat) (ρ : Valuation) : ρ.skip n 0 = ρ.drop n := by
  funext kind index
  simp [skip, drop]

@[simp] theorem Valuation.drop_zero (ρ : Valuation) : ρ.drop 0 = ρ := rfl

@[simp] theorem Valuation.drop_push {kind : Kind} (v : kind.Value) (n : Nat) (ρ : Valuation) :
    (ρ.push v).drop (n + 1) = ρ.drop n := rfl

@[simp] theorem Valuation.push_self {kind : Kind} (v : kind.Value) (ρ : Valuation) :
    ρ.push v kind 0 = v := by
  simp [push]

theorem Valuation.skip_push {kind : Kind} (v : kind.Value) (n depth : Nat) (ρ : Valuation) :
    (ρ.push v).skip n (depth + 1) = (ρ.skip n depth).push v := by
  funext kind' index
  cases index with
  | zero => simp [skip, push]
  | succ index =>
      simp only [skip, push, Nat.add_lt_add_iff_right]
      split
      · rfl
      · rw [Nat.add_right_comm]

/-! ### Quantifiers -/

/-- What a quantifier says of a property. -/
def Quantifier.values {α : Sort _} : Quantifier → (α → Prop) → Prop
  | .all, p => ∀ a, p a
  | .some, p => ∃ a, p a

theorem Quantifier.values_congr {α : Sort _} (q : Quantifier) {p p' : α → Prop}
    (h : ∀ a, p a ↔ p' a) : q.values p ↔ q.values p' := by
  cases q with
  | all => exact forall_congr' h
  | some => exact exists_congr h

theorem Quantifier.says_nil (q : Quantifier) (p : Valuation → Prop) (ρ : Valuation) :
    q.says [] p ρ ↔ p ρ := by
  cases q <;> rfl

theorem Quantifier.says_cons (q : Quantifier) (s : Symbol) (rest : List Symbol)
    (p : Valuation → Prop) (ρ : Valuation) :
    q.says (s :: rest) p ρ ↔ q.values fun v : s.kind.Value => q.says rest p (ρ.push v) := by
  cases q <;> rfl

/-- A quantifier looks at a property only where the outer variables have their values. -/
theorem Quantifier.says_congr (q : Quantifier) (vars : List Symbol) :
    ∀ {p p' : Valuation → Prop} {ρ : Valuation},
      (∀ ρ', ρ'.drop vars.length = ρ → (p ρ' ↔ p' ρ')) →
      ( q.says vars p ρ ↔ q.says vars p' ρ) := by
  induction vars with
  | nil =>
      intro p p' ρ h
      rw [q.says_nil, q.says_nil]
      exact h ρ rfl
  | cons s rest ih =>
      intro p p' ρ h
      rw [q.says_cons, q.says_cons]
      refine q.values_congr fun v => ih fun ρ' hρ' => h ρ' ?_
      funext kind index
      have := congrFun (congrFun hρ' kind) (index + 1)
      simpa [Valuation.drop, Valuation.push, Nat.add_right_comm, Nat.add_assoc, Nat.add_comm 1]
        using this

/-! ### Replacement -/

section Replace

variable {r : Replacement} {I J : Interpretation} {R : Nat → Valuation → Valuation → Prop}

/-- A relation between the valuations of syntax and of its replacement that passes under a binder
passes under a quantifier. -/
theorem Quantifier.says_related (q : Quantifier) (vars : List Symbol)
    (hpush : ∀ {d ρ ρ'} {kind : Kind} (v : kind.Value),
      R d ρ ρ' → R (d + 1) (ρ.push v) (ρ'.push v)) :
    ∀ {d : Nat} {ρ ρ' : Valuation} {p p' : Valuation → Prop}, R d ρ ρ' →
      (∀ ρ ρ', R (d + vars.length) ρ ρ' → (p ρ ↔ p' ρ')) →
      ( q.says vars p ρ ↔ q.says vars p' ρ') := by
  induction vars with
  | nil =>
      intro d ρ ρ' p p' hR h
      rw [q.says_nil, q.says_nil]
      exact h ρ ρ' hR
  | cons s rest ih =>
      intro d ρ ρ' p p' hR h
      rw [q.says_cons, q.says_cons]
      refine q.values_congr fun v => ih (hpush v hR) fun ρ ρ' hR' => h ρ ρ' ?_
      rwa [List.length_cons, Nat.add_comm rest.length, ← Nat.add_assoc]

/-- **A replacement that is right about constants and bound variables is right about all
syntax.** -/
theorem meaning_replace (hfunc : I.func = J.func) (hdiv : I.divZero = J.divZero)
    (hmod : I.modZero = J.modZero)
    (hconst : ∀ {d ρ ρ'} (kind : Kind) (name : String), R d ρ ρ' →
      (r.const d kind name).meaning I ρ = J.const kind name)
    (hbound : ∀ {d ρ ρ'} (kind : Kind) (index : Nat), R d ρ ρ' →
      (r.bound d kind index).meaning I ρ = ρ' kind index)
    (hpush : ∀ {d ρ ρ'} {kind : Kind} (v : kind.Value),
      R d ρ ρ' → R (d + 1) (ρ.push v) (ρ'.push v))
    {s : Shape} (e : Expr s) :
    ∀ {d : Nat} {ρ ρ' : Valuation}, R d ρ ρ' → (e.replace r d).meaning I ρ = e.meaning J ρ' := by
  induction e with
  | num | lit | nil | noPattern | pat => intros; rfl
  | const kind name => exact hconst kind name
  | bound kind index => exact hbound kind index
  | arith op a b iha ihb =>
      intro d ρ ρ' h
      simp only [Expr.replace, Expr.meaning, iha h, ihb h]
      cases op <;> simp [Interpretation.arith, hdiv, hmod]
  | neg a ih | ratio a _ _ ih | standing a ih | not a ih | and a ih | or a ih =>
      intro d ρ ρ' h
      simp only [Expr.replace, Expr.meaning, ih h]
  | order _ a b iha ihb | eq _ a b iha ihb | ne _ a b iha ihb | imp a b iha ihb
  | cons _ a b iha ihb =>
      intro d ρ ρ' h
      simp only [Expr.replace, Expr.meaning, iha h, ihb h]
  | ite _ c a b ihc iha ihb =>
      intro d ρ ρ' h
      simp only [Expr.replace, Expr.meaning, ihc h, iha h, ihb h]
  | app kind name args ih =>
      intro d ρ ρ' h
      simp only [Expr.replace, Expr.meaning, ih h, hfunc]
  | quant q vars body id pattern ih _ =>
      intro d ρ ρ' h
      exact propext (q.says_related vars hpush h fun ρ ρ' h' => iff_of_eq (ih h'))

end Replace

/-- Syntax as it reads under more variables means what it meant without them. -/
theorem meaning_lift (I : Interpretation) (n : Nat) {s : Shape} (e : Expr s) (ρ : Valuation) :
    (e.lift n).meaning I ρ = e.meaning I (ρ.drop n) := by
  unfold Expr.lift
  refine meaning_replace (R := fun d ρ ρ' => ρ' = ρ.skip n d) rfl rfl rfl ?_ ?_ ?_ e
    (ρ.skip_zero n).symm
  · intros
    rfl
  · rintro d ρ _ kind index rfl
    simp only [liftBound, Valuation.skip]
    split <;> rfl
  · rintro d ρ _ kind v rfl
    exact (ρ.skip_push v n d).symm

/-! ### Terms in place of constants -/

/-- The value of a constant. -/
def Interpretation.value (I : Interpretation) (s : Symbol) : s.kind.Value :=
  I.const s.kind s.name

/-- An interpretation with the value of a constant changed. -/
def Interpretation.set (I : Interpretation) (s : Symbol) (v : s.kind.Value) : Interpretation :=
  { I with const := fun kind name => Function.update I.value s v ⟨name, kind⟩ }

@[simp] theorem Interpretation.func_set (I : Interpretation) (s : Symbol) (v : s.kind.Value) :
    (I.set s v).func = I.func := rfl

@[simp] theorem Interpretation.arith_set (I : Interpretation) (s : Symbol) (v : s.kind.Value) :
    (I.set s v).arith = I.arith := by
  funext op a b
  cases op <;> rfl

theorem Interpretation.value_set (I : Interpretation) (s : Symbol) (v : s.kind.Value) :
    (I.set s v).value = Function.update I.value s v := rfl

theorem Interpretation.value_set_self (I : Interpretation) (s : Symbol) (v : s.kind.Value) :
    (I.set s v).value s = v := by
  rw [value_set, Function.update_self]

theorem Interpretation.value_set_of_ne (I : Interpretation) {s t : Symbol} (v : s.kind.Value)
    (h : t ≠ s) : (I.set s v).value t = I.value t := by
  rw [value_set, Function.update_of_ne h]

/-- The values of integer constants when one of them is changed. -/
@[simp] theorem Interpretation.const_set_int (I : Interpretation) (name name' : String) (v : Int) :
    (I.set (.int name) v).const .int name' = if name' = name then v else I.const .int name' := by
  by_cases h : name' = name
  · subst h
    rw [if_pos rfl]
    exact I.value_set_self (.int name') v
  · rw [if_neg h]
    have hne : Symbol.int name' ≠ .int name := by simpa [Symbol.int] using h
    exact I.value_set_of_ne (s := .int name) v hne

/-- The values of truth values when an integer is changed. -/
@[simp] theorem Interpretation.const_set_bool (I : Interpretation) (name name' : String) (v : Int) :
    (I.set (.int name) v).const .bool name' = I.const .bool name' := by
  have hne : (⟨name', .bool⟩ : Symbol) ≠ .int name := by simp [Symbol.int]
  exact I.value_set_of_ne (s := .int name) v hne

/-- An interpretation with the values of terms for the constants that they stand in place of. -/
noncomputable def Interpretation.assigned (I : Interpretation) (ρ : Valuation)
    (as : List Assignment) : Interpretation :=
  { I with const := fun kind name =>
      match Assignment.find? as kind name with
      | some t => t.meaning I ρ
      | none => I.const kind name }

/-- **Substitution changes the values of constants.** -/
theorem meaning_substitute (I : Interpretation) (ρ : Valuation) (as : List Assignment) {s : Shape}
    (e : Expr s) : (e.substitute as).meaning I ρ = e.meaning (I.assigned ρ as) ρ := by
  unfold Expr.substitute
  -- under `d` binders the terms are read without the innermost `d` variables
  refine meaning_replace (I := I) (J := I.assigned ρ as)
    (R := fun d ρ₁ ρ₂ => ρ₁ = ρ₂ ∧ ρ₁.drop d = ρ) rfl rfl rfl ?_ ?_ ?_ e ⟨rfl, ρ.drop_zero⟩
  · rintro d ρ₁ _ kind name ⟨rfl, rfl⟩
    simp only [Interpretation.assigned]
    cases Assignment.find? as kind name with
    | none => rfl
    | some t => exact meaning_lift I d t ρ₁
  · rintro d ρ₁ _ kind index ⟨rfl, _⟩
    rfl
  · rintro d ρ₁ _ kind v ⟨rfl, rfl⟩
    exact ⟨rfl, rfl⟩

@[simp] theorem Interpretation.assigned_nil (I : Interpretation) (ρ : Valuation) :
    I.assigned ρ [] = I := rfl

/-- Of several terms in place of a constant the first one counts. -/
theorem Interpretation.assigned_cons (I : Interpretation) (ρ : Valuation) (s : Symbol)
    (t : Term s.kind) (as : List Assignment) :
    I.assigned ρ (⟨s, t⟩ :: as) = (I.assigned ρ as).set s (t.meaning I ρ) := by
  unfold assigned set
  congr
  funext kind name
  by_cases h : (⟨name, kind⟩ : Symbol) = s
  · subst h
    simp [Assignment.find?]
  · rw [Function.update_of_ne h]
    have : ¬ (s.kind = kind ∧ s.name = name) := by
      rintro ⟨rfl, rfl⟩
      exact h rfl
    simp only [Assignment.find?, value]
    by_cases hk : s.kind = kind
    · have hn : s.name ≠ name := fun hn => this ⟨hk, hn⟩
      simp [hk, hn]
    · simp [hk]

@[simp] theorem Interpretation.assigned_cons_int (I : Interpretation) (ρ : Valuation)
    (name : String) (t : IntTerm) (as : List Assignment) :
    I.assigned ρ (⟨.int name, t⟩ :: as) = (I.assigned ρ as).set (.int name) (t.meaning I ρ) :=
  I.assigned_cons ρ (.int name) t as

/-! ### Quantified constants -/

/-- What a quantifier says of a property of interpretations while the values of constants range. -/
def Quantifier.over (q : Quantifier) : List Symbol → (Interpretation → Prop) → Interpretation → Prop
  | [], p, I => p I
  | s :: rest, p, I => q.values fun v : s.kind.Value => q.over rest p (I.set s v)

@[simp] theorem Quantifier.over_nil (q : Quantifier) (p : Interpretation → Prop)
    (I : Interpretation) : q.over [] p I ↔ p I := Iff.rfl

@[simp] theorem Quantifier.over_all_int (name : String) (rest : List Symbol)
    (p : Interpretation → Prop) (I : Interpretation) :
    Quantifier.all.over (.int name :: rest) p I ↔
      ∀ v : Int, Quantifier.all.over rest p (I.set (.int name) v) := Iff.rfl

@[simp] theorem Quantifier.over_some_int (name : String) (rest : List Symbol)
    (p : Interpretation → Prop) (I : Interpretation) :
    Quantifier.some.over (.int name :: rest) p I ↔
      ∃ v : Int, Quantifier.some.over rest p (I.set (.int name) v) := Iff.rfl

/-- An interpretation with the values of bound variables for the constants that they stand for. -/
def Interpretation.captured (I : Interpretation) (vars : List Symbol) (ρ : Valuation) :
    Interpretation :=
  { I with const := fun kind name =>
      match position? vars ⟨name, kind⟩ with
      | some place => ρ kind place
      | none => I.const kind name }

theorem meaning_bindSymbols (I : Interpretation) (vars : List Symbol) (ρ : Valuation) {s : Shape}
    (e : Expr s) :
    (e.bindSymbols vars).meaning I ρ = e.meaning (I.captured vars ρ) (ρ.drop vars.length) := by
  unfold Expr.bindSymbols
  -- the new variables lie between the `d` inner ones and the outer ones, which make room for them
  refine meaning_replace (I := I) (J := I.captured vars ρ)
    (R := fun d ρ₁ ρ₂ => ρ₂ = ρ₁.skip vars.length d ∧ ρ₁.drop d = ρ) rfl rfl rfl ?_ ?_ ?_ e
    ⟨(ρ.skip_zero _).symm, ρ.drop_zero⟩
  · rintro d ρ₁ _ kind name ⟨rfl, rfl⟩
    simp only [Interpretation.captured]
    cases position? vars ⟨name, kind⟩ with
    | none => rfl
    | some place => exact congrArg (ρ₁ kind) (Nat.add_comm d place)
  · rintro d ρ₁ _ kind index ⟨rfl, _⟩
    simp only [liftBound, Valuation.skip]
    split <;> rfl
  · rintro d ρ₁ _ kind v ⟨rfl, rfl⟩
    exact ⟨(ρ₁.skip_push v _ d).symm, rfl⟩

/-- Of several variables the first one is the farthest. -/
theorem position?_cons (s : Symbol) (rest : List Symbol) (t : Symbol) :
    position? (s :: rest) t = (position? rest t).or (if t = s then some rest.length else none) := by
  simp only [position?, List.idxOf?, List.reverse_cons, List.findIdx?_append, List.length_reverse,
    List.findIdx?_singleton, eq_comm (a := s), beq_iff_eq]
  split <;> simp

/-- The first of several variables takes the value of the outermost bound one. -/
theorem Interpretation.captured_cons (I : Interpretation) (s : Symbol) (rest : List Symbol)
    (ρ : Valuation) :
    I.captured (s :: rest) ρ = (I.set s (ρ s.kind rest.length)).captured rest ρ := by
  unfold captured set
  congr
  funext kind name
  by_cases h : (⟨name, kind⟩ : Symbol) = s
  · subst h
    simp only [position?_cons, if_pos, Function.update_self]
    cases position? rest ⟨name, kind⟩ <;> rfl
  · simp only [position?_cons, if_neg h, Option.or_none, Function.update_of_ne h]
    cases position? rest ⟨name, kind⟩ <;> rfl

/-- While the bound variables range, so do the constants that they stand for. -/
theorem Quantifier.says_captured (q : Quantifier) (vars : List Symbol)
    (p : Interpretation → Prop) : ∀ (I : Interpretation) (ρ : Valuation),
      q.says vars (fun ρ' => p (I.captured vars ρ')) ρ ↔ q.over vars p I := by
  induction vars with
  | nil =>
      intro I ρ
      rw [q.says_nil]
      rfl
  | cons s rest ih =>
      intro I ρ
      rw [q.says_cons, Quantifier.over]
      refine q.values_congr fun v => ?_
      rw [← ih (I.set s v) (ρ.push v)]
      -- the first constant is the outermost variable, whose value is already there
      refine q.says_congr rest fun ρ' hρ' => ?_
      have hv : ρ' s.kind rest.length = v := by
        have := congrFun (congrFun hρ' s.kind) 0
        simpa [Valuation.drop] using this
      rw [Interpretation.captured_cons, hv]

/-- **Quantifying constants lets their values range.** -/
theorem satisfies_quantify (I : Interpretation) (ρ : Valuation) (q : Quantifier)
    (vars : List Symbol) (body : Formula) (id : Option String) (pattern : List AnyTerm) :
    Satisfies I ρ (.quantify q vars body id pattern) ↔
      q.over vars (fun J => Satisfies J ρ body) I := by
  rw [← q.says_captured vars _ I ρ]
  refine q.says_congr vars fun ρ' hρ' => ?_
  rw [meaning_bindSymbols, hρ']
  rfl

end CandyCircle.Logic
