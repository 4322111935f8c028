/-
**Instantiation patterns.**

A solver instantiates a quantifier when terms of a pattern appear.  Not all terms make up a pattern:
they have to be built from functions, arithmetic and comparisons, none of them may be a quantified
variable itself, and together they have to mention all quantified variables.

Main definitions:

* `CandyCircle.Logic.Expr.isMatchable` — terms that a pattern may be built from;
* `CandyCircle.Logic.isPattern` — whether terms are a pattern for given variables.
-/
import CandyCircle.Logic.Names
import CandyCircle.Logic.Sorts

set_option autoImplicit false

namespace CandyCircle.Logic

/-- Whether syntax is built from functions, arithmetic and comparisons; connectives, choices,
disequations and quantifiers are not matched. -/
def Expr.isMatchable {s : Shape} : Expr s → Bool
  | .num _ => true
  | .lit _ => true
  | .const _ _ => true
  | .bound _ _ => true
  | .arith _ a b => a.isMatchable && b.isMatchable
  | .neg a => a.isMatchable
  | .order _ a b => a.isMatchable && b.isMatchable
  | .eq _ a b => a.isMatchable && b.isMatchable
  | .app _ _ args => args.isMatchable
  | .nil _ => true
  | .cons _ a rest => a.isMatchable && rest.isMatchable
  | .noPattern => true
  | .pat _ a rest => a.isMatchable && rest.isMatchable
  | _ => false

/-- Whether a term may stand in a pattern for given variables. -/
def AnyTerm.suits (vars : List Symbol) (t : AnyTerm) : Bool :=
  t.term.isMatchable && !t.symbol?.any vars.contains

/-- Whether terms are a pattern for given variables. -/
def isPattern (vars : List Symbol) (terms : List AnyTerm) : Bool :=
  terms.all (AnyTerm.suits vars) && decide vars.Nodup &&
    vars.all (terms.flatMap fun t => t.term.constants).contains

end CandyCircle.Logic
