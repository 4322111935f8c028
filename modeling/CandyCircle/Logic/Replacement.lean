/-
**Replacing constants and bound variables.**

Instances of a quantified formula replace constants by terms, and quantifying a formula replaces
constants by bound variables.  Both are one recursion that knows under how many variables it is: a
term that comes to stand under binders has its own loose variables moved past them, so nothing is
captured.

Main definitions:

* `CandyCircle.Logic.Replacement`, `CandyCircle.Logic.Expr.replace` — the recursion;
* `CandyCircle.Logic.Expr.lift` — moving loose variables past binders;
* `CandyCircle.Logic.Assignment`, `CandyCircle.Logic.Expr.substitute` — terms in place of
  constants, all at once;
* `CandyCircle.Logic.Expr.bindSymbols`, `CandyCircle.Logic.Formula.quantify`,
  `CandyCircle.Logic.Formula.thereIs` — quantifying constants.
-/
import CandyCircle.Logic.Term

set_option autoImplicit false

namespace CandyCircle.Logic

/-- What stands in place of constants and of bound variables, under a number of variables. -/
structure Replacement where
  /-- What stands in place of a constant. -/
  const : Nat → (kind : Kind) → String → Term kind
  /-- What stands in place of a bound variable. -/
  bound : Nat → (kind : Kind) → Nat → Term kind

/-- Syntax under `depth` variables with its constants and bound variables replaced. -/
def Expr.replace (r : Replacement) {s : Shape} (depth : Nat) : Expr s → Expr s
  | .num n => .num n
  | .lit b => .lit b
  | .const kind name => r.const depth kind name
  | .bound kind index => r.bound depth kind index
  | .arith op a b => .arith op (a.replace r depth) (b.replace r depth)
  | .neg a => .neg (a.replace r depth)
  | .order op a b => .order op (a.replace r depth) (b.replace r depth)
  | .ratio a n d => .ratio (a.replace r depth) n d
  | .standing a => .standing (a.replace r depth)
  | .eq kind a b => .eq kind (a.replace r depth) (b.replace r depth)
  | .ne kind a b => .ne kind (a.replace r depth) (b.replace r depth)
  | .not a => .not (a.replace r depth)
  | .and as => .and (as.replace r depth)
  | .or as => .or (as.replace r depth)
  | .imp a b => .imp (a.replace r depth) (b.replace r depth)
  | .ite kind c a b => .ite kind (c.replace r depth) (a.replace r depth) (b.replace r depth)
  | .app kind name args => .app kind name (args.replace r depth)
  | .quant q vars body id pattern =>
      .quant q vars (body.replace r (depth + vars.length)) id
        (pattern.replace r (depth + vars.length))
  | .nil kind => .nil kind
  | .cons kind a rest => .cons kind (a.replace r depth) (rest.replace r depth)
  | .noPattern => .noPattern
  | .pat kind a rest => .pat kind (a.replace r depth) (rest.replace r depth)

/-! ### Moving past binders -/

/-- A bound variable with the loose ones, those from `depth` on, moved past `n` more binders. -/
def liftBound (n depth : Nat) (kind : Kind) (index : Nat) : Term kind :=
  if index < depth then .bound kind index else .bound kind (index + n)

/-- Syntax as it reads under `n` more variables. -/
def Expr.lift {s : Shape} (n : Nat) (e : Expr s) : Expr s :=
  e.replace { const := fun _ kind name => .const kind name, bound := liftBound n } 0

/-! ### Terms in place of constants -/

/-- A term in place of a constant of its sort. -/
structure Assignment where
  /-- The constant. -/
  symbol : Symbol
  term : Term symbol.kind

/-- The term that stands in place of a constant; of several the first one counts. -/
def Assignment.find? : List Assignment → (kind : Kind) → String → Option (Term kind)
  | [], _, _ => none
  | a :: rest, kind, name =>
      if h : a.symbol.kind = kind then
        if a.symbol.name = name then some (h ▸ a.term) else find? rest kind name
      else find? rest kind name

/-- Syntax with terms in place of constants, all at once. -/
def Expr.substitute {s : Shape} (assignments : List Assignment) (e : Expr s) : Expr s :=
  e.replace
    { const := fun depth kind name =>
        match Assignment.find? assignments kind name with
        | some t => t.lift depth
        | none => .const kind name
      bound := fun _ kind index => .bound kind index } 0

/-! ### Quantifying constants -/

/-- The bound variable of a symbol under a quantifier over `vars`: its place from the end, and of
several places the last one. -/
def position? (vars : List Symbol) (s : Symbol) : Option Nat :=
  vars.reverse.idxOf? s

/-- Syntax as it reads directly under a quantifier over `vars`. -/
def Expr.bindSymbols {s : Shape} (vars : List Symbol) (e : Expr s) : Expr s :=
  e.replace
    { const := fun depth kind name =>
        match position? vars ⟨name, kind⟩ with
        | some place => .bound kind (depth + place)
        | none => .const kind name
      bound := liftBound vars.length } 0

/-- A formula quantified over symbols, with a pattern over them. -/
def Formula.quantify (q : Quantifier) (vars : List Symbol) (body : Formula) (id : Option String)
    (pattern : List AnyTerm) : Formula :=
  .quant q vars (body.bindSymbols vars) id ((Expr.ofTerms pattern).bindSymbols vars)

/-- A formula for some values of symbols. -/
def Formula.thereIs (vars : List Symbol) (body : Formula) (pattern : List AnyTerm) : Formula :=
  .quantify .some vars body none pattern

end CandyCircle.Logic
