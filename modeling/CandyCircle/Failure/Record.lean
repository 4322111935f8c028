/-
**Error records.**

An error is reported as a record: its kind, a message, the lemma that it concerns, and details.
Message and lemma are texts, but whoever makes a record may put other data there.

Main definitions:

* `CandyCircle.ErrorKind`, `CandyCircle.ErrorRecord` — the record;
* `CandyCircle.ErrorRecord.refutation`, `CandyCircle.ErrorRecord.scope`,
  `CandyCircle.ErrorRecord.setting`, `CandyCircle.ErrorRecord.scenario` — records of each kind, and
  the same with `With` behind the name from data of any kind;
* `CandyCircle.ErrorRecord.toData`, `CandyCircle.ErrorRecord.display` — a record as data and as a
  line of text;
* `CandyCircle.ErrorRecord.displayAll` — several records under one another.
-/
import CandyCircle.Data
import CandyCircle.Text.Layout

set_option autoImplicit false

namespace CandyCircle

/-- The kind of an error. -/
inductive ErrorKind where
  /-- A query was not refuted. -/
  | refutation
  /-- The discipline of layers was broken. -/
  | scope
  /-- A setting is not usable. -/
  | setting
  /-- The process is not defined on given counts. -/
  | scenario
  deriving DecidableEq, Repr

namespace ErrorKind

/-- The word for a kind. -/
def word : ErrorKind → String
  | refutation => "refutation_failed"
  | scope => "scope_violation"
  | setting => "config_error"
  | scenario => "scenario_error"

/-- The kind that a word names. -/
def ofWord? (s : String) : Option ErrorKind :=
  [refutation, scope, setting, scenario].find? fun k => k.word == s

end ErrorKind

/-- A report of an error. -/
structure ErrorRecord where
  kind : ErrorKind
  /-- What went wrong. -/
  message : Data
  /-- The lemma that it concerns, nothing if there is none. -/
  lemmaName : Data
  /-- Further details. -/
  details : Data

namespace ErrorRecord

/-- A detail, which is left out if it counts as nothing. -/
def detail? (key : String) (value : Data) : List (String × Data) :=
  if value.affirms then [(key, value)] else []

/-- A query that was not refuted, with details of any kind. -/
def refutationWith (lemmaName verdict rule depth : Data) : ErrorRecord :=
  { kind := .refutation
    message := .text
      ("Negated goal was not refuted (solver answered " ++ verdict.toString ++ ")")
    lemmaName
    details := .ofFields ([("verdict", verdict), ("depth", depth)] ++ detail? "rule" rule) }

/-- A query that was not refuted. -/
def refutation (lemmaName verdict rule : String) (depth : Int) : ErrorRecord :=
  refutationWith (.text lemmaName) (.text verdict) (.text rule) (.int depth)

/-- A breach of the discipline of layers, with the layer that is involved. -/
def scopeWith (message layer : Data) : ErrorRecord :=
  { kind := .scope
    message
    lemmaName := .null
    details := .ofFields (detail? "layer" layer) }

/-- A breach of the discipline of layers, with the layer that is involved. -/
def scope (message layer : String) : ErrorRecord :=
  scopeWith (.text message) (.text layer)

/-- A setting that is not usable, with a key and a reason of any kind. -/
def settingWith (key value reason : Data) : ErrorRecord :=
  { kind := .setting
    message := .text
      ("Invalid configuration value for '" ++ key.toString ++ "': " ++ reason.toString)
    lemmaName := .null
    details := .ofFields [("key", key), ("value", .text value.literal)] }

/-- A setting that is not usable. -/
def setting (key : String) (value : Data) (reason : String) : ErrorRecord :=
  settingWith (.text key) value (.text reason)

/-- Counts that the process is not defined on, with a message of any kind. -/
def scenarioWith (message : Data) (counts : Option (List Data)) : ErrorRecord :=
  { kind := .scenario
    message
    lemmaName := .null
    details := .ofFields (counts.toList.map fun cs => ("counts", .list cs)) }

/-- Counts that the process is not defined on. -/
def scenario (message : String) (counts : Option (List Data)) : ErrorRecord :=
  scenarioWith (.text message) counts

/-- A record as data; an empty lemma name and empty details are left out. -/
def toData (r : ErrorRecord) : Data :=
  .ofFields <|
    [("kind", .text r.kind.word), ("message", r.message)] ++ detail? "lemma" r.lemmaName ++
      detail? "details" r.details

/-- A record as a line of text. -/
def display (r : ErrorRecord) : String :=
  let place := if r.lemmaName.affirms then " in '" ++ r.lemmaName.toString ++ "'" else ""
  "[" ++ r.kind.word ++ "]" ++ place ++ ": " ++ r.message.toString

/-- Records under one another. -/
def displayAll (records : List ErrorRecord) : String :=
  Text.joinLines (records.map display)

end ErrorRecord

end CandyCircle
