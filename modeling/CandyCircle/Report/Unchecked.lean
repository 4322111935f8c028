/-
**Reports that nobody checked.**

A report that is made from data may hold data of any kind: the ledger is an unchecked one, the names
of the committed facts are whatever is run through, and the place where the run stopped is three
pieces of data.

Main definitions:

* `CandyCircle.Report.Unchecked`, `CandyCircle.Report.Unchecked.proved` — such reports;
* `CandyCircle.Report.Unchecked.toData` — a report as data;
* `CandyCircle.Report.Unchecked.render` — a report in a given format.
-/
import CandyCircle.Ledger.Unchecked
import CandyCircle.Report.Text

set_option autoImplicit false

namespace CandyCircle.Report

/-- What there is to say about a run, of any kind. -/
structure Unchecked where
  /-- The queries of the run. -/
  ledger : Ledger.Unchecked
  /-- The names of the committed facts. -/
  committed : Data
  /-- The theorem, if the run reached it. -/
  conclusion : Option Fact
  /-- The place of the step that failed. -/
  index : Data
  /-- The step that failed, nothing if none did. -/
  step : Data
  /-- What went wrong. -/
  error : Data

namespace Unchecked

/-- Whether a step failed. -/
def stopped (r : Unchecked) : Bool :=
  match r.step with
  | .null => false
  | _ => true

/-- The theorem was proved, and no step failed. -/
def proved (r : Unchecked) : Bool :=
  r.conclusion.isSome && !r.stopped

/-- A report as data. -/
def toData (r : Unchecked) : Except Failure Data := do
  let conclusion ← (r.conclusion.mapM Fact.display?).mapError .fact
  let committed ← r.committed.itemsOrFault.mapError .kind
  let ledger ← r.ledger.toData.mapError .kind
  return dataOf r.proved conclusion committed ledger
    (if r.stopped then some (Stop.dataOf r.index r.step r.error) else none)

/-- The line of a committed fact. -/
def factLine (r : Unchecked) (t : Terminal) (name : Data) : Except KindFault String := do
  match ← r.ledger.forLemma name with
  | [] => return baseLine t name.toString
  | first :: others =>
      let entries := first :: others
      let time ← Data.total (entries.map Ledger.Unchecked.Entry.duration)
      return queriedLine t name.toString entries.length (← time.fixed 0)

/-- A report for reading. -/
def pretty (r : Unchecked) (t : Terminal) : Except Failure String := do
  let names ← r.committed.itemsOrFault.mapError .kind
  let facts ← (names.mapM (r.factLine t)).mapError .kind
  let table ← r.ledger.table.mapError .kind
  let closing ← match r.conclusion, r.stopped with
    | some f, false => (f.display?.map (successLine t)).mapError .fact
    | _, _ => pure (failureLine t (failurePlace r.index r.step))
  return prettyOf facts (if r.stopped then stopLines t r.step r.error else []) table closing

/-- A report in a given format. -/
def render (r : Unchecked) (t : Terminal) : OutputFormat → Except Failure String
  | .pretty => r.pretty t
  | .json => return (← r.toData).toJson Data.usualIndent
  | .smtlib2 => r.ledger.bundle.mapError .kind

end Unchecked

end CandyCircle.Report
