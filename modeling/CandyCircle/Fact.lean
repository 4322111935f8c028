/-
**Facts.**

A fact says of all values of its variables that a guard implies a body.  It may carry a trigger,
the terms whose appearance makes a solver instantiate it, and it may be local to one symbolic step.
Besides the quantified formula, a fact has an instance for every choice of terms.  A guard or a body
may be an integer in place of a formula, but an implication between them is refused then.

Main definitions:

* `CandyCircle.Trigger`, `CandyCircle.Step`, `CandyCircle.Fact` — the types;
* `CandyCircle.FactFault`, `CandyCircle.FactFault.message` — why a fact or an instance is refused;
* `CandyCircle.Fact.checked` — a fact whose trigger mentions all its variables;
* `CandyCircle.Fact.matrix`, `CandyCircle.Fact.formula` — the implication, and its quantified form;
* `CandyCircle.Fact.fault?`, `CandyCircle.Fact.formula?` — why there is no quantified form, and the
  quantified form if there is one;
* `CandyCircle.Fact.instanceAt`, `CandyCircle.Fact.negationAt`, `CandyCircle.Fact.guardAt`,
  `CandyCircle.Fact.bodyAt` — the parts of a fact for given terms;
* `CandyCircle.Fact.display`, `CandyCircle.Fact.toData` — a fact for reading, and as data.
-/
import CandyCircle.Data
import CandyCircle.Logic.Display
import CandyCircle.Logic.Pattern
import CandyCircle.Logic.Structure

set_option autoImplicit false

namespace CandyCircle

open Logic

/-! ### Triggers and steps -/

/-- The terms whose appearance together instantiates a fact; there is at least one. -/
structure Trigger where
  first : AnyTerm
  others : List AnyTerm

namespace Trigger

/-- The terms of a trigger. -/
def terms (t : Trigger) : List AnyTerm :=
  t.first :: t.others

/-- The trigger of integer terms. -/
def ofInts (first : IntTerm) (others : List IntTerm) : Trigger :=
  ⟨.int first, others.map .int⟩

/-- The names that the terms of a trigger mention. -/
def mentions (t : Trigger) : List String :=
  t.terms.flatMap fun a => a.term.names

/-- A trigger for reading. -/
def display (t : Trigger) : String :=
  "Trigger" ++ enclosed (Text.commaSeparated (t.terms.map fun a => a.term.display))

end Trigger

/-- A symbolic step and its successor, fixed inside one layer.  A formula in place of one of them
stands for one or zero. -/
structure Step where
  /-- The step. -/
  k : AnyTerm
  /-- Its successor. -/
  next : AnyTerm
  /-- The layer that fixes them. -/
  layer : String

/-- A step for reading. -/
def Step.display (s : Step) : String :=
  s.k.term.display ++ " -> " ++ s.next.term.display

/-- The step whose parts are integers. -/
def Step.ofInts (k next : IntTerm) (layer : String) : Step :=
  ⟨.int k, .int next, layer⟩

/-! ### Facts -/

/-- For all values of the variables the guard implies the body. -/
structure Fact where
  name : String
  /-- The variables that it quantifies. -/
  vars : List Symbol
  /-- The condition under which it speaks. -/
  guard : Formula
  /-- What it says. -/
  body : Formula
  /-- What instantiates it. -/
  trigger : Option Trigger
  /-- The step that it is local to. -/
  step : Option Step

/-- Whether a fact belongs to the base or to a step. -/
inductive Scope where
  /-- It holds for all steps. -/
  | everywhere
  /-- It is local to one step. -/
  | oneStep
  deriving DecidableEq, Repr

/-- The word for a scope. -/
def Scope.word : Scope → String
  | everywhere => "global"
  | oneStep => "local"

/-- Why a fact, or an instance of one, is refused. -/
inductive FactFault where
  /-- A trigger has no terms. -/
  | noTriggerTerm
  /-- A trigger does not mention some variables. -/
  | uncovered (trigger : Trigger) (fact : String) (missing : List String)
  /-- An instance is asked for with the wrong number of terms. -/
  | arity (fact : String) (vars terms : Nat)
  /-- A formula cannot be built. -/
  | form (fault : FormFault)

/-- The wording of a fault. -/
def FactFault.message : FactFault → String
  | noTriggerTerm => "a trigger needs at least one term"
  | uncovered trigger fact missing =>
      "trigger " ++ trigger.display ++ " of '" ++ fact ++ "' does not mention " ++
        Text.commaSeparated missing
  | arity fact vars terms =>
      "'" ++ fact ++ "' quantifies " ++ Decimal.ofNat vars ++ " variable(s), got " ++
        Decimal.ofNat terms ++ " term(s)"
  | form fault => fault.message

/-- The trigger of a list of terms. -/
def Trigger.ofTerms : List AnyTerm → Except FactFault Trigger
  | [] => .error .noTriggerTerm
  | first :: others => .ok ⟨first, others⟩

namespace Fact

/-- A fact that says something without variables or condition. -/
def plain (name : String) (body : Formula) : Fact :=
  { name, vars := [], guard := .lit true, body, trigger := none, step := none }

/-- A fact about integers. -/
def about (name : String) (vars : List String) (guard body : Formula) (trigger : Option Trigger) :
    Fact :=
  { name, vars := vars.map Symbol.int, guard, body, trigger, step := none }

/-- The names of variables that a trigger does not mention. -/
def missing (f : Fact) : List String :=
  match f.trigger with
  | none => []
  | some t => (f.vars.map Symbol.name).filter fun name => !t.mentions.contains name

/-- The fact, provided that its trigger mentions all its variables. -/
def checked (f : Fact) : Except FactFault Fact :=
  match f.trigger, f.missing with
  | some t, first :: others => .error (.uncovered t f.name (first :: others))
  | _, _ => .ok f

/-- Whether the fact belongs to the base or to a step. -/
def scope (f : Fact) : Scope :=
  if f.step.isSome then .oneStep else .everywhere

/-- The fact under another name. -/
def renamed (f : Fact) (name : String) : Fact :=
  { f with name }

/-- The guard implies the body; a guard that is literally true is left out. -/
def matrix (f : Fact) : Formula :=
  if Formula.isTrue f.guard then f.body else .imp f.guard f.body

/-- The name that a quantifier carries; an empty name is none. -/
def label (f : Fact) : Option String :=
  if Symbol.known f.name = Symbol.known "" then none else some (Symbol.known f.name)

/-- The fact as a formula: quantified over its variables, if it has any, with its trigger as the
pattern. -/
def formula (f : Fact) : Formula :=
  if f.vars.isEmpty then f.matrix
  else .quantify .all f.vars f.matrix f.label ((f.trigger.map Trigger.terms).getD [])

/-- Why the guard cannot imply the body, if it cannot: an integer stands in place of one of them. -/
def matrixFault? (f : Fact) : Option FormFault :=
  if Formula.isTrue f.guard then none
  else if f.guard.isStanding || f.body.isStanding then some .notFormula
  else none

/-- Why the matrix cannot be quantified with terms as the pattern, if it cannot.  Whether a
quantifier is among several terms is seen before the matrix is looked at, and in a single term after
it. -/
def quantifiedFault? (f : Fact) (terms : List AnyTerm) : Option FormFault :=
  let quantifier :=
    if terms.any AnyTerm.isQuantifier then some FormFault.quantifierInPattern else none
  let integer := if f.matrix.isStanding then some FormFault.quantifiedInteger else none
  let pattern := if terms.isEmpty || isPattern f.vars terms then none else some FormFault.pattern
  let early := if 1 < terms.length then quantifier else none
  early <|> f.matrixFault? <|> quantifier <|> integer <|> pattern

/-- Why the fact is no formula, if it is none. -/
def fault? (f : Fact) : Option FormFault :=
  if f.vars.isEmpty then f.matrixFault?
  else f.quantifiedFault? ((f.trigger.map Trigger.terms).getD [])

/-- What a fact says, barring a fault. -/
def barring {α : Type} (fault : Option FormFault) (a : α) : Except FactFault α :=
  match fault with
  | none => .ok a
  | some fault => .error (.form fault)

/-- The fact as a formula, provided that it can be quantified with its trigger as the pattern. -/
def formula? (f : Fact) : Except FactFault Formula :=
  barring f.fault? f.formula

/-! ### Instances -/

/-- A term of either sort in place of a constant, if the sorts agree. -/
def assign? (s : Symbol) (t : AnyTerm) : Option Assignment :=
  if h : t.kind = s.kind then some ⟨s, h ▸ t.term⟩ else none

/-- Terms in place of the variables, in their order. -/
def assignments (f : Fact) (terms : List AnyTerm) : Except FactFault (List Assignment) :=
  if terms.length = f.vars.length then
    match (f.vars.zip terms).mapM fun p => assign? p.1 p.2 with
    | some as => .ok as
    | none => .error (.form .sorts)
  else .error (.arity f.name f.vars.length terms.length)

/-- The instance of the fact for given terms. -/
def instanceAt (f : Fact) (terms : List AnyTerm) : Except FactFault Formula := do
  let matrix ← barring f.matrixFault? f.matrix
  return matrix.substitute (← f.assignments terms)

/-- The guard holds of given terms and the body fails. -/
def negationAt (f : Fact) (terms : List AnyTerm) : Except FactFault Formula := do
  let as ← f.assignments terms
  let fails ← (Formula.negation (f.body.substitute as)).mapError .form
  (Formula.conjunction [f.guard.substitute as, fails]).mapError .form

/-- The guard for given terms. -/
def guardAt (f : Fact) (terms : List AnyTerm) : Except FactFault Formula := do
  return f.guard.substitute (← f.assignments terms)

/-- The body for given terms. -/
def bodyAt (f : Fact) (terms : List AnyTerm) : Except FactFault Formula := do
  return f.body.substitute (← f.assignments terms)

/-- A fact for reading: the variables it quantifies, if any, and its matrix. -/
def display (f : Fact) : String :=
  if f.vars.isEmpty then Term.display f.matrix
  else
    "ForAll" ++ enclosed (Text.commaSeparated (f.vars.map Symbol.name)) ++ ". " ++
      Term.display f.matrix

/-- A fact for reading, provided that its guard can imply its body. -/
def display? (f : Fact) : Except FactFault String :=
  barring f.matrixFault? f.display

/-- A fact as data, its formulas by their structure. -/
def toData (f : Fact) : Except FactFault Data := do
  let formula ← f.formula?
  return .ofFields
    [("name", .text f.name), ("vars", .list (f.vars.map fun s => .text s.name)),
      ("scope", .text f.scope.word), ("step", .ofText? (f.step.map Step.display)),
      ("layer", .ofText? (f.step.map Step.layer)),
      ("trigger", .ofText? (f.trigger.map Trigger.display)),
      ("guard", .text (Term.sexpr f.guard)), ("body", .text (Term.sexpr f.body)),
      ("formula", .text (Term.sexpr formula)), ("str", .text f.display)]

end Fact

end CandyCircle
