/-
**The meaning of terms.**

An interpretation gives a value to every constant and function symbol.  Quotient and remainder are
the Euclidean ones; by zero they are whatever the interpretation says.  Under an interpretation and
values for the loose bound variables, a term for an integer denotes an integer and a formula a
proposition.

Main definitions:

* `CandyCircle.Logic.Interpretation`, `CandyCircle.Logic.Valuation` — what constants, functions and
  bound variables stand for;
* `CandyCircle.Logic.Expr.meaning` — what syntax stands for;
* `CandyCircle.Logic.Satisfies`, `CandyCircle.Logic.Unsatisfiable`, `CandyCircle.Logic.Entails` —
  truth of a formula, and the relations between lists of formulas that rest on it.

Main results:

* `CandyCircle.Logic.meaning_all`, `CandyCircle.Logic.meaning_any` — conjunctions and disjunctions
  of lists;
* `CandyCircle.Logic.meaning_compare`, `CandyCircle.Logic.meaning_equate`,
  `CandyCircle.Logic.meaning_differ` — writing a numeral first changes nothing.
-/
import CandyCircle.Logic.Term

set_option autoImplicit false

namespace CandyCircle.Logic

/-- The values of a sort. -/
abbrev Kind.Value : Kind → Type
  | .int => Int
  | .bool => Prop

/-- What constants and functions stand for. -/
structure Interpretation where
  const : (kind : Kind) → String → kind.Value
  func : (kind : Kind) → String → List Int → kind.Value
  /-- The quotient by zero. -/
  divZero : Int → Int
  /-- The remainder by zero. -/
  modZero : Int → Int

/-- Values for bound variables by number. -/
abbrev Valuation := (kind : Kind) → Nat → kind.Value

/-- A value that a variable of the other sort stands for. -/
def Kind.filler : (kind : Kind) → kind.Value
  | .int => (0 : Int)
  | .bool => False

/-- A valuation with a value for one variable more, which becomes number 0. -/
def Valuation.push {kind : Kind} (v : kind.Value) (ρ : Valuation) : Valuation :=
  fun kind' index =>
    match index with
    | 0 => if h : kind = kind' then h ▸ v else kind'.filler
    | index + 1 => ρ kind' index

/-- A property of valuations for all values of further variables. -/
def forEach : List Symbol → (Valuation → Prop) → Valuation → Prop
  | [], p, ρ => p ρ
  | s :: rest, p, ρ => ∀ v : s.kind.Value, forEach rest p (ρ.push v)

/-- A property of valuations for some values of further variables. -/
def forSome : List Symbol → (Valuation → Prop) → Valuation → Prop
  | [], p, ρ => p ρ
  | s :: rest, p, ρ => ∃ v : s.kind.Value, forSome rest p (ρ.push v)

/-- What a quantifier says of a property of valuations. -/
def Quantifier.says : Quantifier → List Symbol → (Valuation → Prop) → Valuation → Prop
  | .all => forEach
  | .some => forSome

/-- The operation on integers, quotient and remainder by zero apart. -/
def Interpretation.arith (I : Interpretation) : Arith → Int → Int → Int
  | .add, a, b => a + b
  | .sub, a, b => a - b
  | .mul, a, b => a * b
  | .div, a, b => if b = 0 then I.divZero a else a / b
  | .mod, a, b => if b = 0 then I.modZero a else a % b

/-- The relation between integers. -/
def Order.Holds : Order → Int → Int → Prop
  | .le, a, b => a ≤ b
  | .lt, a, b => a < b
  | .ge, a, b => a ≥ b
  | .gt, a, b => a > b

/-- What a part of syntax stands for. -/
abbrev Shape.Meaning : Shape → Type
  | .one kind => kind.Value
  | .many kind => List kind.Value
  | .pattern => Unit

open Classical in
/-- One of two values, as a proposition is true or not. -/
noncomputable def byCase {α : Type} (c : Prop) (a b : α) : α :=
  if c then a else b

/-- What syntax stands for. -/
noncomputable def Expr.meaning (I : Interpretation) {s : Shape} (ρ : Valuation) :
    Expr s → s.Meaning
  | .num n => n
  | .lit b => b = true
  | .const kind name => I.const kind name
  | .bound kind index => ρ kind index
  | .arith op a b => I.arith op (a.meaning I ρ) (b.meaning I ρ)
  | .neg a => -(show Int from a.meaning I ρ)
  | .order op a b => op.Holds (a.meaning I ρ) (b.meaning I ρ)
  | .ratio a n d => (show Int from a.meaning I ρ) * d = n
  | .standing a => (show Int from a.meaning I ρ) ≠ 0
  | .eq _ a b => a.meaning I ρ = b.meaning I ρ
  | .ne _ a b => a.meaning I ρ ≠ b.meaning I ρ
  | .not a => ¬ a.meaning I ρ
  | .and as => ∀ p ∈ as.meaning I ρ, p
  | .or as => ∃ p ∈ as.meaning I ρ, p
  | .imp a b => a.meaning I ρ → b.meaning I ρ
  | .ite _ c a b =>
      byCase (c.meaning I ρ) (a.meaning I ρ) (b.meaning I ρ)
  | .app kind name args => I.func kind name (args.meaning I ρ)
  | .quant q vars body _ _ => q.says vars (fun ρ' => body.meaning I ρ') ρ
  | .nil _ => []
  | .cons _ a rest => a.meaning I ρ :: rest.meaning I ρ
  | .noPattern => ()
  | .pat _ _ _ => ()

/-! ### Truth -/

/-- A formula is true. -/
def Satisfies (I : Interpretation) (ρ : Valuation) (f : Formula) : Prop :=
  f.meaning I ρ

/-- No interpretation makes all the formulas true. -/
def Unsatisfiable (formulas : List Formula) : Prop :=
  ∀ I ρ, ¬ ∀ f ∈ formulas, Satisfies I ρ f

/-- Every interpretation that makes all the formulas true makes the last one true. -/
def Entails (formulas : List Formula) (f : Formula) : Prop :=
  ∀ I ρ, (∀ g ∈ formulas, Satisfies I ρ g) → Satisfies I ρ f

/-! ### Lists and comparisons -/

theorem meaning_ofList (I : Interpretation) (ρ : Valuation) {kind : Kind}
    (as : List (Term kind)) :
    (Expr.ofList as).meaning I ρ = as.map (Expr.meaning I ρ) := by
  induction as with
  | nil => rfl
  | cons a rest ih => simp [Expr.ofList, Expr.meaning, ih]

/-- The conjunction of a list is true when all its members are. -/
theorem meaning_all (I : Interpretation) (ρ : Valuation) (as : List Formula) :
    Satisfies I ρ (Formula.all as) ↔ ∀ a ∈ as, Satisfies I ρ a := by
  simp only [Satisfies, Formula.all, Expr.meaning, meaning_ofList]
  exact List.forall_mem_map

/-- The disjunction of a list is true when one of its members is. -/
theorem meaning_any (I : Interpretation) (ρ : Valuation) (as : List Formula) :
    Satisfies I ρ (Formula.any as) ↔ ∃ a ∈ as, Satisfies I ρ a := by
  simp only [Satisfies, Formula.any, Expr.meaning, meaning_ofList]
  constructor
  · rintro ⟨p, hp, h⟩
    obtain ⟨a, ha, rfl⟩ := List.mem_map.1 hp
    exact ⟨a, ha, h⟩
  · rintro ⟨a, ha, h⟩
    exact ⟨_, List.mem_map.2 ⟨a, ha, rfl⟩, h⟩

/-- A relation holds when its converse holds of the sides exchanged. -/
theorem Order.holds_converse (op : Order) (a b : Int) : op.converse.Holds b a ↔ op.Holds a b := by
  cases op <;> rfl

/-- Writing a numeral first does not change a comparison. -/
theorem meaning_compare (I : Interpretation) (ρ : Valuation) (op : Order) (a b : IntTerm) :
    Satisfies I ρ (Formula.compare op a b) ↔ op.Holds (a.meaning I ρ) (b.meaning I ρ) := by
  unfold Formula.compare
  split
  · exact op.holds_converse _ _
  · rfl

/-- Writing a numeral first does not change an equation. -/
theorem meaning_equate (I : Interpretation) (ρ : Valuation) (a b : IntTerm) :
    Satisfies I ρ (Formula.equate a b) ↔ a.meaning I ρ = b.meaning I ρ := by
  unfold Formula.equate
  split
  · exact eq_comm
  · rfl

/-- Writing a numeral first does not change a disequation. -/
theorem meaning_differ (I : Interpretation) (ρ : Valuation) (a b : IntTerm) :
    Satisfies I ρ (Formula.differ a b) ↔ a.meaning I ρ ≠ b.meaning I ρ := by
  unfold Formula.differ
  split
  · exact ne_comm
  · rfl

end CandyCircle.Logic
