/-
**The ledger as text.**

Main definitions:

* `CandyCircle.Obligation.digest` — an entry on a few lines;
* `CandyCircle.Ledger.table` — all entries as a table;
* `CandyCircle.Ledger.bundle` — all recorded queries as one annotated file.
-/
import CandyCircle.Ledger
import CandyCircle.Text.Layout

set_option autoImplicit false

namespace CandyCircle

open Text

/-- What is shown for a refuted query. -/
def refutedMark : String := "✓ REFUTED"

/-- The first characters of a text, with a mark if there are more. -/
def shortened (limit : Nat) (s : String) : String :=
  if limit < s.length then String.ofList (s.toList.take limit) ++ "…" else s

/-- What is shown for a verdict in a column. -/
def Verdict.outcome (v : Verdict) : String :=
  if v.refuted then refutedMark else v.word

/-- What is shown for a verdict on its own. -/
def Verdict.status (v : Verdict) : String :=
  if v.refuted then refutedMark else "✗ " ++ v.word

namespace Obligation

/-- How many characters of a claim are shown. -/
def claimLimit : Nat := 200

/-- An entry on a few lines, from the texts of its parts; the lines about the recorded query and the
time are left out if there is nothing to say. -/
def digestOf (lemmaName rule depth claim : String) (verdict : Verdict) (lines : Option Nat)
    (millis : Option String) : String :=
  joinLines <|
    ["  [" ++ lemmaName ++ "] " ++ verdict.status,
      "    Rule      : " ++ rule,
      "    Depth     : " ++ depth,
      "    VC        : " ++ claim] ++
    (lines.toList.map fun n => "    SMTLIB2   : " ++ Decimal.ofNat n ++ " lines") ++
    (millis.toList.map fun ms => "    Solver ms : " ++ ms)

/-- An entry on a few lines; the claim is cut. -/
def digest (o : Obligation) : String :=
  digestOf o.lemmaName o.rule (Decimal.ofInt o.depth) (shortened claimLimit o.claim) o.verdict
    (if o.query.isEmpty then none else some (lineCount o.query))
    (if o.duration.isNonzero then some (o.duration.fixed 1) else none)

end Obligation

/-! ### The table -/

/-- The widths of the columns for the lemma, the rule and the outcome. -/
def columnWidths : Nat × Nat × Nat := (44, 20, 10)

/-- A row of the table. -/
def tableRow (lemmaName rule outcome : String) : String :=
  "  " ++ padRight columnWidths.1 lemmaName ++ " " ++ padRight columnWidths.2.1 rule ++ " " ++
    padRight columnWidths.2.2 outcome

/-- The rule between the head of the table, its rows and its foot. -/
def tableRule : String :=
  "  " ++ String.ofList
    (List.replicate (columnWidths.1 + columnWidths.2.1 + columnWidths.2.2 + 2) '-')

namespace Ledger

/-- The foot of the table: how many queries were refuted, and how many were not. -/
def tally (l : Ledger) : String :=
  "  " ++ Decimal.ofNat l.provedCount ++ "/" ++ Decimal.ofNat l.total ++ " queries refuted" ++
    (if l.failedCount = 0 then "" else ", " ++ Decimal.ofNat l.failedCount ++ " sat") ++
    (if l.unknownCount = 0 then "" else ", " ++ Decimal.ofNat l.unknownCount ++ " unknown")

/-- A table of given rows. -/
def tableOf (l : Ledger) (rows : List String) : String :=
  if rows.isEmpty then "  (no refutation queries recorded)\n"
  else
    joinLines ([tableRow "Lemma" "Rule" "Result", tableRule] ++ rows ++ [tableRule, l.tally]) ++
      "\n"

/-- The row of an entry; a lemma is indented by the number of open layers. -/
def row (o : Obligation) : String :=
  tableRow (blanks (2 * o.depth.toNat) ++ o.lemmaName) o.rule o.verdict.outcome

/-- All entries as a table. -/
def table (l : Ledger) : String :=
  l.tableOf (l.entries.map row)

/-! ### The bundle -/

/-- The lines of a recorded query, with its number in the ledger. -/
def queryLines (number : Nat) (o : Obligation) : List String :=
  if o.query.isEmpty then []
  else
    ["; --- Query " ++ Decimal.ofNat number ++ ": " ++ o.lemmaName ++ " / " ++ o.rule ++ " ---",
      "; VC     : " ++ o.claim,
      "; Result : " ++ o.verdict.word,
      o.query,
      "(check-sat)",
      "(reset)",
      ""]

/-- All recorded queries as one annotated file. -/
def bundle (l : Ledger) : String :=
  joinLines <|
    ["; candyproof refutation bundle",
      "; Version: " ++ l.version,
      "; Total queries: " ++ Decimal.ofNat l.total,
      ""] ++
    (l.entries.zipIdx 1).flatMap fun p => queryLines p.2 p.1

end Ledger

end CandyCircle
