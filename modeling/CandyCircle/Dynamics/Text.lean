/-
**Runs of the process as text.**

The states of a run are laid out as a table with columns of one width.  Counts may be data of any
kind; what has no layout of its own, that is nothing, a list or an object, cannot be put into a
column.

Main definitions:

* `CandyCircle.Data.column` — data at the right of a column;
* `CandyCircle.Dynamics.trajectoryText` — the states of a run as a table;
* `CandyCircle.Dynamics.trajectoryData` — the states of a run as data.
-/
import CandyCircle.Failure
import CandyCircle.Terminal
import CandyCircle.Text.Layout

set_option autoImplicit false

namespace CandyCircle

/-- Data at the right of a column of given width.  A truth value stands there as one or zero. -/
def Data.column (width : Nat) (d : Data) : Except KindFault String :=
  match d with
  | .bool b => .ok (Text.padLeft width (if b then "1" else "0"))
  | .int _ | .float _ | .str _ => .ok (Text.padLeft width d.toString)
  | _ => .error (.noLayout d)

namespace Dynamics

open Text

/-- The width of the widest count, if there is any. -/
def countWidth? (states : List (List Data)) : Option Nat :=
  (states.flatten.map fun c => c.shown.length).max?

/-- The line of a state, with the number of the step. -/
def stateLine (t : Terminal) (width : Nat) (state : List Data) (number : Nat) :
    Except KindFault String := do
  let cells ← state.mapM (Data.column width)
  return "  " ++ t.dim ("k=" ++ padRight 3 (Decimal.ofNat number)) ++ " " ++
    String.intercalate " " cells

/-- The number of steps between the first and the last of the states. -/
def stepCount (states : List (List Data)) : Int :=
  states.length - 1

/-- The line below the states of a run. -/
def closingLine (t : Terminal) (states : List (List Data)) : String :=
  "\n  " ++ t.tick ++ "  uniform after " ++ Decimal.ofInt (stepCount states) ++ " step(s)\n"

/-- The states of a run as a table, a line for each step.  Without any count there is no width for
the columns. -/
def trajectoryText (t : Terminal) (states : List (List Data)) : Except Failure String :=
  match countWidth? states with
  | none => .error (.emptyRange .greatest)
  | some width => do
      let lines ← (states.zipIdx.mapM fun p => stateLine t width p.1 p.2).mapError .kind
      return joinLines (lines ++ [closingLine t states])

/-- The states of a run as data. -/
def trajectoryData (states : List (List Data)) : Data :=
  .ofFields
    [("steps", .int (stepCount states)), ("trajectory", .list (states.map Data.list))]

end Dynamics

end CandyCircle
