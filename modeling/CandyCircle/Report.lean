/-
**Reports of proof runs.**

A run of a proof plan is reported by its ledger, the facts that it committed, the theorem if the run
reached it, and the step at which it stopped if one failed.

Main definitions:

* `CandyCircle.Stop`, `CandyCircle.Report` — where a run stopped, and the report;
* `CandyCircle.Report.proved` — whether the theorem was proved and nothing failed;
* `CandyCircle.Report.toData` — a report as data.
-/
import CandyCircle.Fact
import CandyCircle.Failure.Record
import CandyCircle.Ledger

set_option autoImplicit false

namespace CandyCircle

/-- Where a run of a plan stopped. -/
structure Stop where
  /-- The place of the step in the plan, counted from 1, if it is known. -/
  index : Option Int
  /-- The name of the step. -/
  step : String
  /-- What went wrong, if it is known. -/
  error : Option String
  deriving DecidableEq, Repr

/-- What there is to say about a run of a plan. -/
structure Report where
  /-- The queries of the run. -/
  ledger : Ledger := {}
  /-- The names of the committed facts, in order. -/
  committed : List String := []
  /-- The theorem, if the run reached it. -/
  conclusion : Option Fact := none
  /-- Where the run stopped, if a step failed. -/
  stop : Option Stop := none

/-- The place of a stop as data, from data of any kind; an error that says nothing is left out. -/
def Stop.dataOf (index step error : Data) : Data :=
  .ofFields ([("index", index), ("lemma", step)] ++ ErrorRecord.detail? "error" error)

/-- The place of a stop as data. -/
def Stop.toData (s : Stop) : Data :=
  dataOf ((s.index.map Data.int).getD .null) (.text s.step) (.ofText? s.error)

namespace Report

/-- The theorem was proved, and no step failed. -/
def proved (r : Report) : Bool :=
  r.conclusion.isSome && r.stop.isNone

/-- A report as data, from its parts. -/
def dataOf (proved : Bool) (conclusion : Option String) (committed : List Data) (ledger : Data)
    (stop : Option Data) : Data :=
  .ofFields <|
    [("proved", .bool proved), ("theorem", .ofText? conclusion), ("committed", .list committed),
      ("trace", ledger)] ++
    stop.toList.map fun s => ("failed", s)

/-- A report as data. -/
def toData (r : Report) : Data :=
  dataOf r.proved (r.conclusion.map Fact.display) (r.committed.map Data.text) r.ledger.toData
    (r.stop.map Stop.toData)

end Report

end CandyCircle
