/-
**Plans as text.**

Main definitions:

* `CandyCircle.Plan.table` — a plan as a table;
* `CandyCircle.Plan.toData` — a plan as data.
-/
import CandyCircle.Data
import CandyCircle.Plan.Step
import CandyCircle.Terminal
import CandyCircle.Text.Layout

set_option autoImplicit false

namespace CandyCircle.Plan

open Text

/-- The widths of the columns for the number, the name and the stage of a step. -/
def columnWidths : Nat × Nat × Nat := (2, 28, 14)

/-- A row of the table of a plan. -/
def row (number name stage requires : String) : String :=
  "  " ++ padLeft columnWidths.1 number ++ "  " ++ padRight columnWidths.2.1 name ++ " " ++
    padRight columnWidths.2.2 stage ++ " " ++ requires

/-- What a step requires, for reading. -/
def requirements (t : Terminal) (s : LemmaStep) : String :=
  let names := commaSeparated s.requires
  if names.isEmpty then t.dim "base axioms" else names

/-- A plan as a table. -/
def table (t : Terminal) (steps : List LemmaStep) : String :=
  let rows := (steps.zipIdx 1).map fun p =>
    row (Decimal.ofNat p.2) p.1.name p.1.stage (requirements t p.1)
  joinLines (row "#" "Lemma" "Stage" "Requires" :: rows) ++ "\n"

/-- A plan as data. -/
def toData (steps : List LemmaStep) : Data :=
  .list <| (steps.zipIdx 1).map fun p =>
    .ofFields
      [("index", .nat p.2), ("name", .text p.1.name), ("stage", .text p.1.stage),
        ("requires", .list (p.1.requires.map Data.text))]

end CandyCircle.Plan
