/-
**Operators on terms of either sort.**

Whoever writes a term may put a formula in place of an integer, and an integer in place of a
formula.  A formula in place of an integer stands for one or zero, but two formulas have no
difference, no quotient and no remainder, and a formula has no negative.  An integer in place of a
formula stands as it is where a formula is only stated; connectives and quantifiers refuse it.

Main definitions:

* `CandyCircle.Logic.FormFault`, `CandyCircle.Logic.FormFault.message` — why something cannot be
  built from given terms;
* `CandyCircle.Logic.Formula.ofAny`, `CandyCircle.Logic.Formula.toAny` — terms in place of formulas,
  and back;
* `CandyCircle.Logic.AnyTerm.arith`, `CandyCircle.Logic.AnyTerm.negative` — arithmetic;
* `CandyCircle.Logic.Formula.negation`, `CandyCircle.Logic.Formula.implication`,
  `CandyCircle.Logic.Formula.conjunction`, `CandyCircle.Logic.Formula.disjunction`,
  `CandyCircle.Logic.Formula.quantified` — connectives and quantifiers.

Main results:

* `CandyCircle.Logic.toAny_ofAny` — a term in place of a formula is found again.
-/
import CandyCircle.Data.Kind
import CandyCircle.Logic.Replacement

set_option autoImplicit false

namespace CandyCircle.Logic

/-- Why something cannot be built from given terms. -/
inductive FormFault where
  /-- A term of another sort stands in place of a constant. -/
  | sorts
  /-- A quantifier has no variables. -/
  | noVariables
  /-- A quantifier has neither variables nor a formula. -/
  | noFormula
  /-- A quantifier ranges over an integer instead of a formula. -/
  | quantifiedInteger
  /-- Terms are no pattern. -/
  | pattern
  /-- A quantifier stands in a pattern. -/
  | quantifierInPattern
  /-- An integer stands where a formula is needed. -/
  | notFormula
  /-- An integer stands among the arguments of a connective. -/
  | integerUnder (connective : String)
  /-- A text is no numeral. -/
  | noNumeral
  /-- A numeral is no whole number. -/
  | brokenNumeral
  deriving DecidableEq, Repr

/-- The wording of a fault. -/
def FormFault.message : FormFault → String
  | sorts => "Z3 invalid substitution, mismatching \"from\" and \"to\" sorts."
  | noVariables => "Invalid bounded variable(s)"
  | noFormula => "Z3 expression expected"
  | quantifiedInteger => "b'type error'"
  | pattern => "b'invalid pattern'"
  | quantifierInPattern => "b'invalid argument'"
  | notFormula => "Value cannot be converted into a Z3 Boolean value"
  | integerUnder connective =>
      "b'Sort mismatch at argument #1 for function (declare-fun " ++ connective ++
        " (Bool Bool) Bool) supplied sort is Int'"
  | noNumeral => "b'parser error'"
  | brokenNumeral => "b'invalid rational value passed as an integer'"

/-! ### Kinds of formulas -/

/-- Whether a term is a quantifier. -/
def AnyTerm.isQuantifier (t : AnyTerm) : Bool :=
  match t.formula? with
  | some (.quant ..) => true
  | _ => false

/-- The name of the kind of a formula, as complaints use it. -/
def AnyTerm.formulaKind (t : AnyTerm) : String :=
  if t.isQuantifier then "QuantifierRef" else "BoolRef"

/-! ### Terms in place of formulas -/

/-- A term in place of a formula. -/
def Formula.ofAny : AnyTerm → Formula
  | ⟨.bool, p⟩ => p
  | ⟨.int, a⟩ => .standing a

/-- The term that stands in place of a formula. -/
def Formula.toAny : Formula → AnyTerm
  | .standing a => .int a
  | p => ⟨.bool, p⟩

/-- Whether an integer stands in place of a formula. -/
def Formula.isStanding : Formula → Bool
  | .standing _ => true
  | _ => false

/-- A term in place of a formula is found again. -/
theorem toAny_ofAny (t : AnyTerm) (h : ∀ p, t.formula? = some p → Formula.isStanding p = false) :
    Formula.toAny (Formula.ofAny t) = t := by
  obtain ⟨kind, t⟩ := t
  cases kind with
  | int => rfl
  | bool =>
      have h := h t rfl
      unfold Formula.toAny Formula.ofAny
      cases t <;> simp_all [Formula.isStanding]

/-- A formula that no integer stands in place of. -/
def Formula.proper (p : Formula) : Except FormFault Formula :=
  if isStanding p then .error .notFormula else .ok p

/-! ### Arithmetic -/

/-- The sign of an operation, as complaints use it. -/
def Arith.complaintSign : Arith → String
  | add => "+"
  | sub => "-"
  | mul => "*"
  | div => "/"
  | mod => "%"

/-- An operation on terms.  A formula times a term is the term if the formula holds, and zero
otherwise. -/
def AnyTerm.arith (op : Arith) (a b : AnyTerm) : Except KindFault AnyTerm :=
  match op, a, b with
  | .mul, ⟨.bool, p⟩, b => .ok (.int (.ite .int p b.toInt (.num 0)))
  | .mul, a, ⟨.bool, p⟩ => .ok (.int (.ite .int p a.toInt (.num 0)))
  | .add, a, b => .ok (.int (.arith .add a.toInt b.toInt))
  | op, ⟨.bool, p⟩, ⟨.bool, q⟩ =>
      .error (.operands op.complaintSign (formulaKind ⟨.bool, p⟩) (formulaKind ⟨.bool, q⟩))
  | op, a, b => .ok (.int (.arith op a.toInt b.toInt))

/-- The negative of a term. -/
def AnyTerm.negative (a : AnyTerm) : Except KindFault AnyTerm :=
  match a.int? with
  | some n => .ok (.int (.neg n))
  | none => .error (.operand "-" a.formulaKind)

/-! ### Connectives and quantifiers -/

namespace Formula

/-- The negation of a formula. -/
def negation (p : Formula) : Except FormFault Formula := do
  return .not (← proper p)

/-- A formula implies another one. -/
def implication (p q : Formula) : Except FormFault Formula := do
  return .imp (← proper p) (← proper q)

/-- The conjunction of formulas. -/
def conjunction (as : List Formula) : Except FormFault Formula :=
  if as.any isStanding then .error (.integerUnder "and") else .ok (all as)

/-- The disjunction of formulas. -/
def disjunction (as : List Formula) : Except FormFault Formula :=
  if as.any isStanding then .error (.integerUnder "or") else .ok (any as)

/-- A formula quantified over symbols, of which there has to be one. -/
def quantified (q : Quantifier) (vars : List Symbol) (body : Formula) : Except FormFault Formula :=
  match vars.isEmpty, isStanding body with
  | true, true => .error .noFormula
  | true, false => .error .noVariables
  | false, true => .error .quantifiedInteger
  | false, false => .ok (quantify q vars body none [])

end Formula

end CandyCircle.Logic
