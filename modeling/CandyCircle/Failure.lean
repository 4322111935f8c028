/-
**Failures.**

Everything that can stop an operation, by its cause.  Some failures are failures of the proof: a
query that was not refuted, a breach of the discipline of layers, settings that are not usable.
These are reported with error records, and a run of the proof plan ends with them in good order.
The others are misuse, and nothing recovers from them.

Main definitions:

* `CandyCircle.ScopeFault`, `CandyCircle.ScopeFault.message` — breaches of the discipline of
  layers;
* `CandyCircle.Failure`, `CandyCircle.Failure.message` — all failures, and their wording;
* `CandyCircle.Failure.records` — the records of a failure of the proof;
* `CandyCircle.Failure.ofProof` — whether it is one.
-/
import CandyCircle.Data.Order
import CandyCircle.Fact
import CandyCircle.Dynamics.Counts
import CandyCircle.Settings
import CandyCircle.Text.Integer
import CandyCircle.Text.Utf8
import CandyCircle.Verdict

set_option autoImplicit false

namespace CandyCircle

/-- A breach of the discipline of layers. -/
inductive ScopeFault where
  /-- A layer is closed though none is open. -/
  | nothingOpen
  /-- A layer is closed while another one is innermost. -/
  | notInnermost (expected innermost : String)
  /-- A formula mentions constants of a closed layer. -/
  | leak (what : String) (names : List String) (layer : String)
  /-- A fact is committed while layers are open. -/
  | commitInside (fact : String) (depth : Nat) (layer : String)
  /-- A fact of that name is committed already. -/
  | alreadyCommitted (fact : String)
  /-- No fact of that name is visible. -/
  | notEstablished (fact : String) (layer : String)
  /-- A proof ended without a query. -/
  | neverDischarged (claim : String) (layer : String)
  /-- A claim is queried while another layer is innermost. -/
  | dischargedInside (claim : String) (layer : String)
  /-- Facts that a step of a plan requires are not visible. -/
  | missingRequirements (step : String) (missing : List String)
  /-- A step of a plan left layers open. -/
  | layersLeftOpen (step : String) (depth : Nat) (layer : String)
  deriving DecidableEq, Repr

namespace ScopeFault

/-- The name of the base layer. -/
def base : String := "base"

/-- The layer that a breach concerns. -/
def layer : ScopeFault → String
  | nothingOpen => base
  | notInnermost _ innermost => innermost
  | leak _ _ layer => layer
  | commitInside _ _ layer => layer
  | alreadyCommitted _ => base
  | notEstablished _ layer => layer
  | neverDischarged _ layer => layer
  | dischargedInside _ layer => layer
  | missingRequirements _ _ => base
  | layersLeftOpen _ _ layer => layer

/-- The wording of a breach. -/
def message : ScopeFault → String
  | nothingOpen => "pop without a matching push"
  | notInnermost expected innermost =>
      "layer '" ++ expected ++ "' closed while '" ++ innermost ++ "' is still open"
  | leak what names _ =>
      what ++ " mentions " ++ Text.commaSeparated names ++ " from a closed layer"
  | commitInside fact depth _ =>
      "cannot commit '" ++ fact ++ "' with " ++ Decimal.ofNat depth ++ " layer(s) open"
  | alreadyCommitted fact => "'" ++ fact ++ "' is already committed"
  | notEstablished fact _ => "fact '" ++ fact ++ "' has not been established"
  | neverDischarged claim _ => "'" ++ claim ++ "' was never discharged"
  | dischargedInside claim layer =>
      "'" ++ claim ++ "' discharged while '" ++ layer ++ "' is open"
  | missingRequirements step missing =>
      "'" ++ step ++ "' requires " ++ Text.commaSeparated missing ++ ", which is not committed"
  | layersLeftOpen step depth _ =>
      "'" ++ step ++ "' left " ++ Decimal.ofNat depth ++ " layer(s) open"

/-- The record of a breach. -/
def record (f : ScopeFault) : ErrorRecord :=
  .scope f.message f.layer

end ScopeFault

/-- Which end of a range is asked for. -/
inductive Extreme where
  /-- The least element. -/
  | least
  /-- The greatest element. -/
  | greatest
  deriving DecidableEq, Repr

/-- Everything that can stop an operation. -/
inductive Failure where
  /-- A query was not refuted. -/
  | notRefuted (lemmaName : String) (verdict : Verdict) (rule : String) (depth : Nat)
  /-- The discipline of layers was broken. -/
  | scope (fault : ScopeFault)
  /-- Settings are not usable. -/
  | settings (fault : SettingsFault)
  /-- The process is not defined on given counts. -/
  | counts (fault : Dynamics.CountsFault) (counts : List Data)
  /-- A fact, or an instance of one, is refused. -/
  | fact (fault : FactFault)
  /-- Something is of a kind that is of no use where it stands. -/
  | kind (fault : KindFault)
  /-- A circle of fixed size has no children. -/
  | emptyCircle
  /-- An end of an empty range is asked for. -/
  | emptyRange (which : Extreme)
  /-- A file is not text. -/
  | notText (fault : Text.Utf8.Fault)
  /-- A numeral in a file has too many digits. -/
  | hugeNumeral (digits : Nat)
  /-- Lists and objects in a file, the innermost of this kind, stand inside one another at too many
  levels. -/
  | tooDeep (kind : String)
  /-- The name of a file cannot be written. -/
  | badName (fault : Text.Utf8.NameFault)
  /-- The name of a file holds a null character. -/
  | nullInName
  /-- Something is none of the words that there are for something. -/
  | notListed (value : Data) (what : String)
  /-- A caller gave up. -/
  | aborted (message : String)

namespace Failure

/-- The records of a failure of the proof; none for other failures. -/
def records : Failure → List ErrorRecord
  | notRefuted lemmaName verdict rule depth => [.refutation lemmaName verdict.word rule depth]
  | scope fault => [fault.record]
  | settings fault => fault.record?.toList
  | _ => []

/-- Whether a failure is a failure of the proof. -/
def ofProof (f : Failure) : Bool :=
  !f.records.isEmpty

/-- The record of counts that are refused. -/
def countsRecord (fault : Dynamics.CountsFault) (counts : List Data) : ErrorRecord :=
  .scenario fault.message (some counts)

/-- The wording of a failure. -/
def message (f : Failure) : String :=
  match f with
  | notRefuted .. => ErrorRecord.displayAll f.records
  | scope _ => ErrorRecord.displayAll f.records
  | settings fault => fault.message
  | counts fault _ => fault.message
  | fact fault => fault.message
  | kind fault => fault.message
  | emptyCircle => Dynamics.CountsFault.message .noChildren
  | emptyRange .least => "min() arg is an empty sequence"
  | emptyRange .greatest => "max() arg is an empty sequence"
  | notText fault => fault.message
  | hugeNumeral digits =>
      "Exceeds the limit (" ++ Decimal.ofNat Text.digitLimit ++
        " digits) for integer string conversion: value has " ++ Decimal.ofNat digits ++
        " digits; use sys.set_int_max_str_digits() to increase the limit"
  | tooDeep what =>
      "maximum recursion depth exceeded while decoding a JSON " ++ what ++ " from a unicode string"
  | badName fault => fault.message
  | nullInName => "embedded null byte"
  | notListed value what => value.literal ++ " is not a valid " ++ what
  | aborted text => text

end Failure

end CandyCircle
