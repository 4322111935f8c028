/-
**Starting counts.**

The process starts from any list of even, non-negative whole numbers that is not empty.  Counts that
come from outside are checked first, child by child, and the first fault is reported.

Main definitions:

* `CandyCircle.Dynamics.Admissible` — the counts that the process is defined on;
* `CandyCircle.Dynamics.CountsFault`, `CandyCircle.Dynamics.CountsFault.message` — why counts or a
  request about them are refused;
* `CandyCircle.Dynamics.validate` — the counts that data stands for;
* `CandyCircle.Dynamics.step`, `CandyCircle.Dynamics.run`, `CandyCircle.Dynamics.convergenceStep` —
  the process on checked counts.
-/
import CandyCircle.Data
import CandyCircle.Dynamics

set_option autoImplicit false

namespace CandyCircle.Dynamics

/-- The counts that the process is defined on: at least one child, and every child holds an even,
non-negative number of candies. -/
def Admissible (counts : List Int) : Prop :=
  counts ≠ [] ∧ ∀ c ∈ counts, 0 ≤ c ∧ c % 2 = 0

/-- Why counts, or a request about them, are refused. -/
inductive CountsFault where
  /-- There are no children. -/
  | noChildren
  /-- A count is not a whole number. -/
  | notWhole (count : Data)
  /-- A count is negative. -/
  | negative (count : Int)
  /-- A count is odd. -/
  | odd (count : Int)
  /-- The counts are not uniform within the allowed number of steps. -/
  | noConvergence (maxSteps : Data)
  /-- A step that is asked about is negative. -/
  | negativeStep (step : Data)

/-- The wording of a fault. -/
def CountsFault.message : CountsFault → String
  | noChildren => "a circle needs at least one child"
  | notWhole count => "count " ++ count.literal ++ " is not an integer"
  | negative count => "count " ++ Decimal.ofInt count ++ " is negative"
  | odd count => "count " ++ Decimal.ofInt count ++ " is odd"
  | noConvergence maxSteps => "no convergence within " ++ maxSteps.literal ++ " steps"
  | negativeStep step => "step " ++ step.literal ++ " is negative"

/-- The count that data stands for. -/
def validateCount : Data → Except CountsFault Int
  | .int n =>
      if n < 0 then .error (.negative n)
      else if n % 2 ≠ 0 then .error (.odd n)
      else .ok n
  | d => .error (.notWhole d)

/-- The counts that a list of data stands for; the first fault in the order of the children is
reported. -/
def validate (items : List Data) : Except CountsFault (List Int) :=
  if items.isEmpty then .error .noChildren else items.mapM validateCount

/-- The counts after one step. -/
def step (items : List Data) : Except CountsFault (List Int) :=
  (validate items).map next

/-- The states from the start to the first uniform one, within a number of steps. -/
def run (items : List Data) (maxSteps : Int) : Except CountsFault (List (List Int)) := do
  let counts ← validate items
  match runFor maxSteps.toNat counts with
  | some states => return states
  | none => .error (.noConvergence (.int maxSteps))

/-- The number of steps to the first uniform state. -/
def convergenceStep (items : List Data) (maxSteps : Int) : Except CountsFault Nat :=
  (run items maxSteps).map fun states => states.length - 1

/-- The number of steps that a run may take if nothing else is said. -/
def defaultMaxSteps : Int := 10000

end CandyCircle.Dynamics
