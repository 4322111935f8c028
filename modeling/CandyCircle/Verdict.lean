/-
**Verdicts.**

A refutation query has three possible outcomes.  Only a refuted query establishes anything: that the
solver found a model and that it gave up are equally fatal.

Main definitions:

* `CandyCircle.Verdict`, `CandyCircle.Verdict.word` — the outcomes and their words;
* `CandyCircle.Verdict.ofAnswer` — the outcome that a solver's answer stands for;
* `CandyCircle.Verdict.ofWord?` — the outcome that a word names.
-/

set_option autoImplicit false

namespace CandyCircle

/-- The outcome of a refutation query. -/
inductive Verdict where
  /-- The negated goal has no model: the lemma holds. -/
  | unsat
  /-- A model of the negated goal was found. -/
  | sat
  /-- The solver gave up. -/
  | unknown
  deriving DecidableEq, Repr

namespace Verdict

/-- The word for a verdict. -/
def word : Verdict → String
  | unsat => "UNSAT"
  | sat => "SAT"
  | unknown => "UNKNOWN"

/-- Whether the query was refuted. -/
def refuted : Verdict → Bool
  | unsat => true
  | _ => false

/-- The verdict that a word names. -/
def ofWord? : String → Option Verdict
  | "UNSAT" => some unsat
  | "SAT" => some sat
  | "UNKNOWN" => some unknown
  | _ => none

/-- The verdict that an answer stands for: any answer but the two definite ones is none. -/
def ofAnswer : String → Verdict
  | "UNSAT" => unsat
  | "SAT" => sat
  | _ => unknown

end Verdict

end CandyCircle
