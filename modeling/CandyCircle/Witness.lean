/-
**Convergence witnesses.**

A step is a convergence witness for given counts if all children hold the same at it.  The solver is
asked about one step of one start: the circle has exactly as many children as there are counts, the
start is fixed, and so are the dynamics of every step before the one that is asked about.  The same
question is decided by running the process.

Main definitions:

* `CandyCircle.Witness.check`, `CandyCircle.Witness.checkAt` — the query, for a whole number and for
  a step of any kind;
* `CandyCircle.Witness.decide` — the answer by running the process.
-/
import CandyCircle.Plan.Step

set_option autoImplicit false

namespace CandyCircle.Witness

open Logic Proof

/-- The base facts that the query needs; it does without a start for all circles and without the
histogram. -/
def baseFacts : List String :=
  ["children-exist", "children-count", "right-neighbor", "max-child-exists", "min-child-exists",
    "max-dominates", "min-dominated"]

/-- The vocabulary of a circle of as many children as there are counts. -/
def vocabulary (counts : List Int) : Vocabulary :=
  { Vocabulary.standard with
    children := (Vocabulary.circleSize? counts.length).map Vocabulary.hasChildren }

/-- The dynamics of the step from `t` to `t + 1`. -/
def transitionAt (v : Vocabulary) (t : Nat) : Except Failure Fact :=
  v.transition (.ofInts (.num t) (.num (t + 1)) ScopeFault.base)

/-- The numerals of the children. -/
def children (counts : List Int) : List IntTerm :=
  (List.range counts.length).map fun i : Nat => .num (i + 1)

/-- A term is one of the children. -/
def isSomeChild (counts : List Int) (t : IntTerm) : Formula :=
  .any ((children counts).map fun i => .eq .int t i)

/-- The name of the query about a step. -/
def name (step : Nat) : String :=
  "witness[" ++ Decimal.ofNat step ++ "]"

/-- The claim that the query is about, for reading. -/
def claim (step : Nat) : String :=
  "min2(" ++ Decimal.ofNat step ++ ") = max2(" ++ Decimal.ofNat step ++ ")"

/-- Commits what the query rests on: base facts, the start, and the dynamics of all steps before the
one that is asked about.  The result is the dynamics. -/
def prepare (counts : List Int) (step : Nat) : ProofM (List Fact) := do
  let v := vocabulary counts
  (v.axioms.filter fun f => baseFacts.contains f.name).forM fun f => commit f
  commit (Vocabulary.initialCounts counts)
  let transitions ← (List.range step).mapM fun t => require (transitionAt v t)
  transitions.forM fun f => commit f
  return transitions

/-- The instances that the query rests on: neighbours and dynamics of all children, and that a child
holds the most and one the least. -/
def hints (counts : List Int) (step : Nat) (transitions : List Fact) : ProofM (List Formula) := do
  let neighbour ← fact "right-neighbor"
  let maxExists ← fact "max-child-exists"
  let minExists ← fact "min-child-exists"
  let everyone := children counts
  let last : IntTerm := .num step
  let neighbours ← everyone.mapM fun i => instanceOf neighbour [i]
  let dynamics ← transitions.mapM fun t => everyone.mapM fun i => instanceOf t [i]
  let extremes := [← instanceOf maxExists [last], ← instanceOf minExists [last]]
  return neighbours ++ dynamics.flatten ++ extremes ++
    [isSomeChild counts (Vocabulary.maxChild last), isSomeChild counts (Vocabulary.minChild last)]

/-- Asks whether all children agree at a step. -/
def query (counts : List Int) (step : Nat) : ProofM Verdict := do
  let transitions ← prepare counts step
  let instances ← hints counts step transitions
  let verdict ← scope (name step) fun _ => do
    assume (.not (Vocabulary.converged (.num step))) ("not converged at " ++ Decimal.ofNat step)
    assumeHints instances (name step ++ " hint")
    checkRefuted (name step) "witness" (claim step)
  log .info .scenario
    ("witness " ++ (Data.list (counts.map Data.int)).literal ++ " at step " ++
      Decimal.ofNat step ++ ": " ++ verdict.word)
  return verdict

/-- The counts and the step of a question, unless one of them is refused. -/
def validate (items : List Data) (step : Int) : Except Failure (List Int × Nat) := do
  let counts ← (Dynamics.validate items).mapError fun fault => .counts fault items
  if step < 0 then
    throw (.counts (.negativeStep (.int step)) items)
  return (counts, step.toNat)

/-- Asks whether a step is a convergence witness for counts: whether it is one if the query is
refuted. -/
def check (items : List Data) (step : Int) : ProofM Verdict := do
  let (counts, step) ← require (validate items step)
  query counts step

/-! ### Steps of any kind -/

/-- The counts of a question about a step of any kind, unless one of them is refused. -/
def validateAt (items : List Data) : Data → Except Failure (List Int)
  | .int n => (validate items n).map Prod.fst
  | step => do
      let counts ← (Dynamics.validate items).mapError fun fault => .counts fault items
      if ← (step.relate .below (.int 0)).mapError .kind then
        throw (.counts (.negativeStep step) items)
      return counts

/-- Asks whether all children agree at a step of any kind.  What is no whole number is taken for a
step as far as it goes: instances for a truth value are of the wrong sort, and a double does not say
how many steps come before it. -/
def queryAt (counts : List Int) : Data → ProofM Verdict
  | .int n => query counts n.toNat
  | .bool b => do
      let _ ← prepare counts b.toNat
      fail (.fact (.form .sorts))
  | step => do
      let _ ← prepare counts 0
      fail (.kind (.notWhole step))

/-- Asks whether a step of any kind is a convergence witness for counts. -/
def checkAt (items : List Data) (step : Data) : ProofM Verdict := do
  queryAt (← require (validateAt items step)) step

/-! ### Deciding -/

/-- The verdict on the query, decided by running the process. -/
def decide (counts : List Int) (step : Nat) : Verdict :=
  if Dynamics.isUniform (Dynamics.after counts step) then .unsat else .sat

end CandyCircle.Witness
