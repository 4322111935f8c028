/-
**The ledger of queries.**

Every refutation query is entered into a ledger, successful or not, so that a run can be audited:
the lemma and the rule, the claim in readable form, how many layers were open, the assertions that
were active if they are recorded, the verdict, and how long it took.

Main definitions:

* `CandyCircle.Duration` — how long a query took;
* `CandyCircle.Obligation`, `CandyCircle.Ledger` — an entry, and the ledger;
* `CandyCircle.Ledger.provedCount`, `CandyCircle.Ledger.allProved`, `CandyCircle.Ledger.duration` —
  figures about a ledger;
* `CandyCircle.Ledger.forLemma` — the entries of a lemma and of its sub-lemmas;
* `CandyCircle.Ledger.toData` — a ledger as data.
-/
import CandyCircle.Data
import CandyCircle.Decimal.Fixed
import CandyCircle.Verdict

set_option autoImplicit false

namespace CandyCircle

/-! ### Durations -/

/-- A duration in milliseconds: a whole number or a double. -/
inductive Duration where
  /-- A whole number. -/
  | whole (n : Int)
  /-- A double. -/
  | measured (x : Float)

namespace Duration

/-- A duration as a double. -/
def toFloat : Duration → Float
  | whole n => Float.ofInt n
  | measured x => x

/-- The sum of two durations; it is whole if both are. -/
def add : Duration → Duration → Duration
  | whole a, whole b => whole (a + b)
  | a, b => measured (a.toFloat + b.toFloat)

/-- The sum of durations from left to right, starting from the whole number zero. -/
def sum (ds : List Duration) : Duration :=
  ds.foldl add (whole 0)

/-- Whether a duration is not zero. -/
def isNonzero : Duration → Bool
  | whole n => n != 0
  | measured x => x != 0.0

/-- A duration with a fixed number of places. -/
def fixed (places : Nat) (d : Duration) : String :=
  Decimal.fixed places d.toFloat

/-- A duration rounded to tenths. -/
def tenths : Duration → Duration
  | whole n => whole n
  | measured x => measured (Decimal.roundTo 1 x)

/-- A duration as data. -/
def toData : Duration → Data
  | whole n => .int n
  | measured x => .float x

end Duration

/-! ### Entries -/

/-- One query and its outcome. -/
structure Obligation where
  /-- The lemma or sub-lemma, written `parent/child`. -/
  lemmaName : String
  /-- The proof rule that the query serves. -/
  rule : String
  /-- The claim whose negation was asserted. -/
  claim : String
  /-- How many layers were open. -/
  depth : Int
  /-- The active assertions, empty unless they are recorded. -/
  query : String
  verdict : Verdict
  /-- How long the query took. -/
  duration : Duration

namespace Obligation

/-- Whether the query was refuted. -/
def proved (o : Obligation) : Bool :=
  o.verdict.refuted

/-- An entry as data, from the fields of which some may be of any kind. -/
def dataOf (lemmaName rule claim depth query : Data) (verdict : Verdict) (duration : Data) : Data :=
  .ofFields
    [("lemma", lemmaName), ("rule", rule), ("vc_formula", claim), ("depth", depth),
      ("smtlib2", query), ("result", .text verdict.word), ("duration_ms", duration),
      ("proved", .bool verdict.refuted)]

/-- An entry as data. -/
def toData (o : Obligation) : Data :=
  dataOf (.text o.lemmaName) (.text o.rule) (.text o.claim) (.int o.depth) (.text o.query) o.verdict
    o.duration.toData

end Obligation

/-! ### The ledger -/

/-- The version of the program, which every ledger states. -/
def version : String := "0.1.0"

/-- The queries of a run in the order in which they were issued. -/
structure Ledger where
  entries : List Obligation := []
  /-- The version of the program that made them. -/
  version : String := CandyCircle.version

namespace Ledger

/-- The ledger with one entry more. -/
def add (l : Ledger) (o : Obligation) : Ledger :=
  { l with entries := l.entries ++ [o] }

/-- The number of entries. -/
def total (l : Ledger) : Nat :=
  l.entries.length

/-- The number of entries with a verdict. -/
def countOf (l : Ledger) (v : Verdict) : Nat :=
  l.entries.countP fun o => o.verdict == v

/-- The number of refuted queries. -/
def provedCount (l : Ledger) : Nat :=
  l.countOf .unsat

/-- The number of queries with a model. -/
def failedCount (l : Ledger) : Nat :=
  l.countOf .sat

/-- The number of queries without an answer. -/
def unknownCount (l : Ledger) : Nat :=
  l.countOf .unknown

/-- There are entries, and all of them are refuted. -/
def allProved (l : Ledger) : Bool :=
  decide (0 < l.total) && l.provedCount == l.total

/-- How long all queries took together. -/
def duration (l : Ledger) : Duration :=
  .sum (l.entries.map Obligation.duration)

/-- Whether a name is a lemma's or that of one of its sub-lemmas. -/
def belongsTo (lemmaName name : String) : Bool :=
  name == lemmaName || (lemmaName ++ "/").toList.isPrefixOf name.toList

/-- The entries of a lemma and of its sub-lemmas. -/
def forLemma (l : Ledger) (lemmaName : String) : List Obligation :=
  l.entries.filter fun o => belongsTo lemmaName o.lemmaName

/-- The figures of a ledger as data, with the time that all queries took together. -/
def figures (l : Ledger) (duration : Data) : Data :=
  .ofFields
    [("total", .nat l.total), ("refuted", .nat l.provedCount), ("sat", .nat l.failedCount),
      ("unknown", .nat l.unknownCount), ("all_proved", .bool l.allProved),
      ("duration_ms", duration)]

/-- The figures of a ledger as data. -/
def summary (l : Ledger) : Data :=
  l.figures l.duration.tenths.toData

/-- A ledger as data, from its version, its figures and its entries. -/
def dataOf (version summary : Data) (entries : List Data) : Data :=
  .ofFields [("version", version), ("summary", summary), ("obligations", .list entries)]

/-- A ledger as data. -/
def toData (l : Ledger) : Data :=
  dataOf (.text l.version) l.summary (l.entries.map Obligation.toData)

end Ledger

end CandyCircle
