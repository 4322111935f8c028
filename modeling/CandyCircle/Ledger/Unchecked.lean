/-
**Ledgers that nobody checked.**

An entry that is made from data may hold data of any kind in all its fields but the verdict.  Such a
ledger has the same figures and texts as one of a run, as far as its fields have the layout that is
asked for.

Main definitions:

* `CandyCircle.Ledger.Unchecked.Entry`, `CandyCircle.Ledger.Unchecked` — entries and ledgers;
* `CandyCircle.Ledger.Unchecked.Entry.ofData` — the entry that data stands for;
* `CandyCircle.Ledger.Unchecked.outline` — the ledger with the texts of its fields;
* `CandyCircle.Ledger.Unchecked.toData`, `CandyCircle.Ledger.Unchecked.table`,
  `CandyCircle.Ledger.Unchecked.forLemma` — a ledger as data, its table, and the entries of a lemma;
* `CandyCircle.Ledger.Unchecked.Entry.digest` — an entry on a few lines.
-/
import CandyCircle.Data.Fields
import CandyCircle.Data.Number
import CandyCircle.Data.Order
import CandyCircle.Data.Signature
import CandyCircle.Failure
import CandyCircle.Ledger.Text

set_option autoImplicit false

namespace CandyCircle

/-! ### Layout of data of any kind -/

namespace Data

/-- Data at the left of a column of given width.  A truth value stands there as one or zero. -/
def leftColumn (width : Nat) (d : Data) : Except KindFault String :=
  match d with
  | .bool b => .ok (Text.padRight width (if b then "1" else "0"))
  | .int _ | .float _ | .str _ => .ok (Text.padRight width d.toString)
  | _ => .error (.noLayout d)

/-- Data with a fixed number of places, which only numbers have. -/
def fixed (places : Nat) (d : Data) : Except KindFault String :=
  match d, Number.ofData? d with
  | _, some x => x.toFloat.map (Decimal.fixed places)
  | .str points, none => .error (.noCode "f" (.str points))
  | d, none => .error (.noLayout d)

/-- The first parts of a text or of a list, with a mark if there are more. -/
def shortened (limit : Nat) : Data → Except KindFault String
  | .str points => .ok (CandyCircle.shortened limit (CodePoint.toText points))
  | .list items =>
      .ok ((Data.list (items.take limit)).literal ++ if limit < items.length then "…" else "")
  | d => .error (.noParts d)

/-- The number of lines of a text, if there is anything at all. -/
def lineCount? (d : Data) : Except KindFault (Option Nat) :=
  match d with
  | .str points =>
      .ok (if points.isEmpty then none else some (Text.lineCount (CodePoint.toText points)))
  | d => if d.affirms then .error (.noSkill "splitlines" d) else .ok none

/-- Two blanks for each of so many levels. -/
def levels (d : Data) : Except KindFault String :=
  d.repetitions.map fun n => Text.blanks (2 * n)

/-- Whether a text begins with another one. -/
def beginsWith (d start : Data) : Except KindFault Bool :=
  match d, start with
  | .str points, .str first => .ok (first.isPrefixOf points)
  | d, _ => .error (.noSkill "startswith" d)

/-- A number rounded to tenths. -/
def tenths : Data → Data
  | .float x => .float (Decimal.roundTo 1 x)
  | d => d

end Data

/-! ### Entries -/

namespace Ledger

/-- An entry whose fields may be of any kind, its verdict apart. -/
structure Unchecked.Entry where
  lemmaName : Data
  /-- The proof rule. -/
  rule : Data
  claim : Data
  /-- How many layers were open. -/
  depth : Data
  /-- The active assertions. -/
  query : Data
  verdict : Verdict
  /-- How long the query took. -/
  duration : Data

/-- A ledger of such entries, with a version of any kind. -/
structure Unchecked where
  entries : List Unchecked.Entry := []
  /-- The version of the program that made them. -/
  version : Data := .text CandyCircle.version

namespace Unchecked

namespace Entry

/-- The fields of an entry. -/
def signature : Signature :=
  { name := "ProofObligation.__init__"
    subject := some "self"
    required := ["lemma", "rule", "vc_formula"]
    optional := ["depth", "smtlib2", "result", "duration_ms"] }

/-- The verdict that data stands for: without any, that nothing is known. -/
def verdictOf : Option Data → Except Failure Verdict
  | none => .ok .unknown
  | some word =>
      match word.toText?.bind Verdict.ofWord? with
      | some v => .ok v
      | none => .error (.notListed word "SolverResult")

/-- The entry that data stands for.  Its verdict is read first. -/
def ofData (d : Data) : Except Failure Entry := do
  let verdict ← verdictOf (d.field? "result")
  let given ← (signature.bind [] d.toFields).mapError fun fault =>
    .kind (.arguments signature fault)
  let field (key : String) (fallback : Data) := (given.lookup key).getD fallback
  return { lemmaName := field "lemma" .null
           rule := field "rule" .null
           claim := field "vc_formula" .null
           depth := field "depth" (.int 0)
           query := field "smtlib2" (.text "")
           verdict
           duration := field "duration_ms" (.float 0.0) }

/-- An entry as data. -/
def toData (e : Entry) : Data :=
  Obligation.dataOf e.lemmaName e.rule e.claim e.depth e.query e.verdict e.duration

/-- The entry with the texts of its fields, and without its time. -/
def outline (e : Entry) : Obligation :=
  { lemmaName := e.lemmaName.toString
    rule := e.rule.toString
    claim := e.claim.toString
    depth := e.depth.toWhole
    query := if e.query.affirms then e.query.toString else ""
    verdict := e.verdict
    duration := .whole 0 }

/-- An entry on a few lines. -/
def digest (e : Entry) : Except KindFault String := do
  let claim ← e.claim.shortened Obligation.claimLimit
  let lines ← e.query.lineCount?
  let millis ← if e.duration.affirms then some <$> e.duration.fixed 1 else pure none
  return Obligation.digestOf e.lemmaName.toString e.rule.toString e.depth.toString claim e.verdict
    lines millis

/-- The row of an entry in the table. -/
def row (e : Entry) : Except KindFault String := do
  let indent ← e.depth.levels
  let name ← (Data.text indent).plus e.lemmaName
  let rule ← e.rule.leftColumn columnWidths.2.1
  return tableRow name.toString rule e.verdict.outcome

end Entry

/-! ### Ledgers -/

/-- The ledger with one entry more. -/
def add (l : Unchecked) (e : Entry) : Unchecked :=
  { l with entries := l.entries ++ [e] }

/-- The ledger with the texts of its fields. -/
def outline (l : Unchecked) : Ledger :=
  { entries := l.entries.map Entry.outline, version := l.version.toString }

/-- How long all queries took together. -/
def duration (l : Unchecked) : Except KindFault Data :=
  Data.total (l.entries.map Entry.duration)

/-- The figures of a ledger as data. -/
def summary (l : Unchecked) : Except KindFault Data := do
  return l.outline.figures (← l.duration).tenths

/-- A ledger as data. -/
def toData (l : Unchecked) : Except KindFault Data := do
  return Ledger.dataOf l.version (← l.summary) (l.entries.map Entry.toData)

/-- All entries as a table. -/
def table (l : Unchecked) : Except KindFault String := do
  return l.outline.tableOf (← l.entries.mapM Entry.row)

/-- How many lines of the bundle precede the recorded queries. -/
def bundleHead : Nat := 4

/-- How many lines of the bundle a recorded query takes, and the place of its text among them. -/
def queryPlaces : Nat × Nat := (7, 3)

/-- What keeps recorded queries from being put under one another, if their first line has the given
place: one that is no text. -/
def bundleFault? : Nat → List Entry → Option KindFault
  | _, [] => none
  | place, e :: rest =>
      match e.query with
      | .str points => bundleFault? (if points.isEmpty then place else place + queryPlaces.1) rest
      | query =>
          if query.affirms then some (.notTextAt (place + queryPlaces.2) query)
          else bundleFault? place rest

/-- All recorded queries as one annotated file. -/
def bundle (l : Unchecked) : Except KindFault String :=
  match bundleFault? bundleHead l.entries with
  | some fault => .error fault
  | none => .ok l.outline.bundle

/-- The entries of a lemma and of its sub-lemmas. -/
def forLemma (l : Unchecked) (lemmaName : Data) : Except KindFault (List Entry) := do
  let start ← lemmaName.plus (.text "/")
  l.entries.filterM fun e => do
    if e.lemmaName.same lemmaName then return true
    e.lemmaName.beginsWith start

/-- The last entry of a ledger with the figures up to it. -/
def stand (l : Unchecked) (e : Entry) : Except KindFault Data := do
  let digest ← e.digest
  let o := l.outline
  return .ofFields
    [("dict", e.toData), ("ascii", .text digest), ("total", .nat o.total),
      ("proved", .nat o.provedCount), ("failed", .nat o.failedCount),
      ("unknown", .nat o.unknownCount), ("all_proved", .bool o.allProved),
      ("ms", ← l.duration)]

end Unchecked

end Ledger

end CandyCircle
