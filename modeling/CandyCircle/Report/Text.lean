/-
**Reports as text.**

A report is shown in one of three formats: for reading, as JSON, and as the bundle of all recorded
queries.  For reading, every committed fact has a line with the number of its queries and their
time; then come the table of all queries and the verdict on the theorem.

Main definitions:

* `CandyCircle.Report.pretty` — a report for reading;
* `CandyCircle.Report.render` — a report in a given format.
-/
import CandyCircle.Data.Printer
import CandyCircle.Ledger.Text
import CandyCircle.Report
import CandyCircle.Settings
import CandyCircle.Terminal

set_option autoImplicit false

namespace CandyCircle.Report

open Text

/-- The line of a committed fact without queries of its own, a base fact. -/
def baseLine (t : Terminal) (name : String) : String :=
  "   " ++ t.dim "·" ++ "  " ++ t.dim name

/-- The line of a committed fact with the number of its queries and their time. -/
def queriedLine (t : Terminal) (name : String) (queries : Nat) (millis : String) : String :=
  let figures := "(" ++ Decimal.ofNat queries ++ " queries, " ++ millis ++ " ms)"
  "   " ++ t.tick ++ "  " ++ name ++ " " ++ t.dim figures

/-- The line of a committed fact. -/
def factLine (r : Report) (t : Terminal) (name : String) : String :=
  match r.ledger.forLemma name with
  | [] => baseLine t name
  | first :: others =>
      let entries := first :: others
      queriedLine t name entries.length ((Duration.sum (entries.map Obligation.duration)).fixed 0)

/-- The lines about a step that failed, from data of any kind; an error that says nothing has none.
-/
def stopLines (t : Terminal) (step error : Data) : List String :=
  ("   " ++ t.cross ++ "  " ++ t.red step.toString) ::
    if error.affirms then ["      " ++ t.dim error.toString] else []

/-- Where a run failed, from data of any kind; a step that is nothing is passed over. -/
def failurePlace (index step : Data) : String :=
  if step.affirms then " at lemma " ++ index.toString ++ " (" ++ step.toString ++ ")" else ""

/-- The last line of a report of success. -/
def successLine (t : Terminal) (conclusion : String) : String :=
  " " ++ t.tick ++ "  " ++ t.bold "Theorem proved:" ++ " " ++ t.cyan conclusion

/-- The last line of a report of failure. -/
def failureLine (t : Terminal) (place : String) : String :=
  " " ++ t.cross ++ "  " ++ t.bold (t.red ("Proof failed" ++ place))

/-- The last line: the theorem, or where the proof failed. -/
def closing (r : Report) (t : Terminal) : String :=
  match r.conclusion, r.stop with
  | some f, none => successLine t f.display
  | _, none => failureLine t ""
  | _, some s => failureLine t (failurePlace ((s.index.map Data.int).getD .null) (.text s.step))

/-- A report for reading, from its parts. -/
def prettyOf (facts stop : List String) (table closing : String) : String :=
  joinLines (facts ++ stop ++ ["", table, closing ++ "\n"])

/-- A report for reading. -/
def pretty (r : Report) (t : Terminal) : String :=
  let stop := r.stop.map fun s => stopLines t (.text s.step) (.ofText? s.error)
  prettyOf (r.committed.map (r.factLine t)) (stop.getD []) r.ledger.table (r.closing t)

/-- A report in a given format. -/
def render (r : Report) (t : Terminal) : OutputFormat → String
  | .pretty => r.pretty t
  | .json => r.toData.toJson Data.usualIndent
  | .smtlib2 => r.ledger.bundle

end CandyCircle.Report
