/-
**Interpretations that agree.**

Two interpretations that differ only in the values of constants that a formula does not mention give
it the same truth value.  A quantified formula speaks of all interpretations that differ only in the
values of its variables.  A fresh constant carries a number that no earlier one carries, so that its
value may be chosen without touching what was said before.

Main definitions:

* `CandyCircle.Logic.Interpretation.AgreeOn` — two interpretations agree on some constants;
* `CandyCircle.Logic.Fresh` — a symbol is one of the fresh constants from a number on;
* `CandyCircle.Logic.Settled` — no choice of values for these constants changes the truth of a
  formula.

Main results:

* `CandyCircle.Logic.meaning_congr` — **meaning depends only on the free constants**;
* `CandyCircle.Logic.over_all_iff` — quantifiers range over the interpretations that differ only in
  the values of the variables;
* `CandyCircle.Context.freshName_inj` — fresh names tell their numbers.
-/
import CandyCircle.Logic.Names
import CandyCircle.Proofs.Logic.Replacement
import CandyCircle.Refutation.Context

set_option autoImplicit false

namespace CandyCircle.Logic

/-! ### Agreement -/

/-- Two interpretations agree on functions, on operations by zero, and on some constants. -/
structure Interpretation.AgreeOn (P : Symbol → Prop) (I J : Interpretation) : Prop where
  /-- They give functions the same values. -/
  func : I.func = J.func
  /-- They agree on quotients by zero. -/
  divZero : I.divZero = J.divZero
  /-- They agree on remainders by zero. -/
  modZero : I.modZero = J.modZero
  /-- They give the constants the same values. -/
  value : ∀ s, P s → I.value s = J.value s

namespace Interpretation.AgreeOn

variable {P Q : Symbol → Prop} {I J K : Interpretation}

theorem refl (P : Symbol → Prop) (I : Interpretation) : I.AgreeOn P I :=
  ⟨rfl, rfl, rfl, fun _ _ => rfl⟩

theorem symm (h : I.AgreeOn P J) : J.AgreeOn P I :=
  ⟨h.func.symm, h.divZero.symm, h.modZero.symm, fun s hs => (h.value s hs).symm⟩

theorem trans (h : I.AgreeOn P J) (h' : J.AgreeOn P K) : I.AgreeOn P K :=
  ⟨h.func.trans h'.func, h.divZero.trans h'.divZero, h.modZero.trans h'.modZero,
    fun s hs => (h.value s hs).trans (h'.value s hs)⟩

theorem mono (h : I.AgreeOn P J) (hQ : ∀ s, Q s → P s) : I.AgreeOn Q J :=
  ⟨h.func, h.divZero, h.modZero, fun s hs => h.value s (hQ s hs)⟩

/-- Changing the value of one constant changes nothing else. -/
theorem set (I : Interpretation) (s : Symbol) (v : s.kind.Value) :
    I.AgreeOn (· ≠ s) (I.set s v) :=
  ⟨rfl, rfl, rfl, fun _ ht => (I.value_set_of_ne v ht).symm⟩

/-- Interpretations that agree on everything are the same. -/
theorem eq_of_forall (h : I.AgreeOn P J) (hP : ∀ s, P s) : I = J := by
  obtain ⟨const, func, divZero, modZero⟩ := I
  obtain ⟨const', func', divZero', modZero'⟩ := J
  obtain ⟨rfl, rfl, rfl, hvalue⟩ := h
  congr
  funext kind name
  exact hvalue ⟨name, kind⟩ (hP _)

end Interpretation.AgreeOn

/-- **Meaning depends only on the free constants** and on the functions. -/
theorem meaning_congr {I J : Interpretation} {s : Shape} (e : Expr s) :
    I.AgreeOn (· ∈ e.constants) J → ∀ ρ, e.meaning I ρ = e.meaning J ρ := by
  induction e with
  | num | lit | bound | nil | noPattern | pat => intros; rfl
  | const kind name =>
      intro h ρ
      exact h.value ⟨name, kind⟩ (List.mem_singleton.2 rfl)
  | arith op a b iha ihb =>
      intro h ρ
      simp only [Expr.meaning, iha (h.mono fun s hs => List.mem_append_left _ hs),
        ihb (h.mono fun s hs => List.mem_append_right _ hs)]
      cases op <;> simp [Interpretation.arith, h.divZero, h.modZero]
  | neg a ih | ratio a _ _ ih | standing a ih | not a ih | and a ih | or a ih =>
      intro h ρ
      simp only [Expr.meaning, ih h]
  | order _ a b iha ihb | eq _ a b iha ihb | ne _ a b iha ihb | imp a b iha ihb
  | cons _ a b iha ihb =>
      intro h ρ
      simp only [Expr.meaning, iha (h.mono fun s hs => List.mem_append_left _ hs),
        ihb (h.mono fun s hs => List.mem_append_right _ hs)]
  | ite _ c a b ihc iha ihb =>
      intro h ρ
      have hca : I.AgreeOn (· ∈ c.constants ++ a.constants) J :=
        h.mono fun s hs => List.mem_append_left _ hs
      simp only [Expr.meaning, ihc (hca.mono fun s hs => List.mem_append_left _ hs),
        iha (hca.mono fun s hs => List.mem_append_right _ hs),
        ihb (h.mono fun s hs => List.mem_append_right _ hs)]
  | app kind name args ih =>
      intro h ρ
      simp only [Expr.meaning, ih h, h.func]
  | quant q vars body id pattern ih _ =>
      intro h ρ
      exact propext (q.says_congr vars fun ρ' _ => iff_of_eq (ih h ρ'))

/-! ### What quantifiers range over -/

section Over

variable {I J : Interpretation}

/-- What agrees off one variable more does so once that variable has its value. -/
theorem Interpretation.AgreeOn.set_value {s : Symbol} {rest : List Symbol}
    (h : I.AgreeOn (· ∉ s :: rest) J) : (I.set s (J.value s)).AgreeOn (· ∉ rest) J where
  func := h.func
  divZero := h.divZero
  modZero := h.modZero
  value t ht := by
    by_cases hts : t = s
    · subst hts
      exact I.value_set_self t _
    · rw [I.value_set_of_ne _ hts]
      exact h.value t (by simp [hts, ht])

theorem Interpretation.AgreeOn.of_set {s : Symbol} {rest : List Symbol} {v : s.kind.Value}
    (h : (I.set s v).AgreeOn (· ∉ rest) J) : I.AgreeOn (· ∉ s :: rest) J :=
  ((set I s v).mono fun t ht => (by simp at ht; exact ht.1)).trans
    (h.mono fun t ht => (by simp at ht; exact ht.2))

/-- Something holds for all values of variables if it holds under all interpretations that differ
only in them. -/
theorem over_all_iff (vars : List Symbol) (p : Interpretation → Prop) : ∀ I : Interpretation,
    Quantifier.all.over vars p I ↔ ∀ J, I.AgreeOn (· ∉ vars) J → p J := by
  induction vars with
  | nil =>
      intro I
      constructor
      · intro hp J hJ
        rwa [hJ.eq_of_forall fun s => List.not_mem_nil] at hp
      · intro h
        exact h I (.refl _ I)
  | cons s rest ih =>
      intro I
      constructor
      · intro h J hJ
        exact (ih _).1 (h (J.value s)) J hJ.set_value
      · intro h v
        exact (ih _).2 fun J hJ => h J hJ.of_set

end Over

end CandyCircle.Logic

/-! ### Fresh constants -/

namespace CandyCircle.Context

theorem toList_freshName (stem : String) (n : Nat) :
    (freshName stem n).toList = stem.toList ++ '!' :: Nat.toDigits 10 n := by
  simp [freshName, Decimal.ofNat]

theorem bang_mem_freshName (stem : String) (n : Nat) : '!' ∈ (freshName stem n).toList := by
  rw [toList_freshName]
  exact List.mem_append_right _ List.mem_cons_self

/-- A name without an exclamation mark is not fresh. -/
theorem freshName_ne {name : String} (h : '!' ∉ name.toList) (stem : String) (n : Nat) :
    freshName stem n ≠ name := by
  rintro rfl
  exact h (bang_mem_freshName stem n)

/-- **Fresh names tell their numbers.** -/
theorem freshName_inj {a b : String} {m n : Nat} (h : freshName a m = freshName b n) : m = n := by
  -- the numeral is what comes after the last exclamation mark
  have hdigits (stem : String) (n : Nat) :
      (freshName stem n).toList.reverse.takeWhile (· != '!') = (Nat.toDigits 10 n).reverse := by
    rw [toList_freshName, List.reverse_append, List.reverse_cons, List.append_assoc,
      List.takeWhile_append_of_pos]
    · simp
    · intro c hc
      have := Nat.isDigit_of_mem_toDigits (by omega) (by omega) (List.mem_reverse.1 hc)
      rw [bne_iff_ne]
      rintro rfl
      exact absurd this (by decide)
  have heq : Nat.toDigits 10 m = Nat.toDigits 10 n := by
    rw [← List.reverse_inj, ← hdigits a m, ← hdigits b n, h]
  rw [← Nat.ofDigitChars_ten_toDigits (n := m), heq, Nat.ofDigitChars_ten_toDigits]

end CandyCircle.Context

namespace CandyCircle.Logic

open Context

/-- A symbol is one of the fresh constants whose number is at least `n`. -/
def Fresh (n : Nat) (s : Symbol) : Prop :=
  ∃ stem number, n ≤ number ∧ s.name = freshName stem number

theorem Fresh.mono {n n' : Nat} (h : n ≤ n') {s : Symbol} (hs : Fresh n' s) : Fresh n s := by
  obtain ⟨stem, number, hn, hs⟩ := hs
  exact ⟨stem, number, Nat.le_trans h hn, hs⟩

theorem not_fresh_of_lt {n number : Nat} (h : number < n) (stem : String) (kind : Kind) :
    ¬ Fresh n ⟨freshName stem number, kind⟩ := by
  rintro ⟨stem', number', hn, hs⟩
  have := freshName_inj hs
  omega

theorem not_fresh_of_plain {s : Symbol} (h : '!' ∉ s.name.toList) (n : Nat) : ¬ Fresh n s := by
  rintro ⟨stem, number, _, hs⟩
  exact freshName_ne h stem number hs.symm

/-- The truth of a formula does not depend on the values of the fresh constants from number `n`
on. -/
def Settled (n : Nat) (f : Formula) : Prop :=
  ∀ {I J : Interpretation} {ρ : Valuation}, I.AgreeOn (¬ Fresh n ·) J →
    Satisfies I ρ f → Satisfies J ρ f

/-- A formula that mentions no fresh constants from a number on does not depend on them. -/
theorem settled_of_constants {n : Nat} {f : Formula} (h : ∀ s ∈ f.constants, ¬ Fresh n s) :
    Settled n f := by
  intro I J ρ hJ hf
  rwa [Satisfies, ← meaning_congr f (hJ.mono h)]

end CandyCircle.Logic
