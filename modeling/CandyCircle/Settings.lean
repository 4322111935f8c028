/-
**Settings of a proof run.**

Settings are drafted from defaults, a file and command-line flags, and then checked: the timeout has
to be positive, the output format and the log level have to be known.  Checked settings hold a
format and a level instead of their words.

Main definitions:

* `CandyCircle.OutputFormat`, `CandyCircle.LogLevel` — formats of reports, levels of log entries;
* `CandyCircle.Settings`, `CandyCircle.Settings.Draft` — checked and drafted settings;
* `CandyCircle.SettingsFault`, `CandyCircle.SettingsFault.record?` — why settings are refused;
* `CandyCircle.Settings.Draft.check` — the checks, in their order;
* `CandyCircle.Settings.Draft.ofFields` — the draft that an object stands for.

Main results:

* `CandyCircle.Settings.check_toDraft` — checked settings with a positive timeout pass the checks
  unchanged.
-/
import CandyCircle.Data.Kind
import CandyCircle.Failure.Record

set_option autoImplicit false

namespace CandyCircle

/-! ### Formats and levels -/

/-- How a report is printed. -/
inductive OutputFormat where
  /-- For reading, with a table of all queries. -/
  | pretty
  /-- As JSON. -/
  | json
  /-- All recorded queries as one file. -/
  | smtlib2
  deriving DecidableEq, Repr

namespace OutputFormat

/-- The word for a format. -/
def word : OutputFormat → String
  | pretty => "pretty"
  | json => "json"
  | smtlib2 => "smtlib2"

/-- All formats. -/
def every : List OutputFormat :=
  [pretty, json, smtlib2]

/-- The format that a text names. -/
def ofText? (points : List CodePoint) : Option OutputFormat :=
  every.find? fun f => CodePoint.ofString f.word == points

theorem ofText?_word (f : OutputFormat) : ofText? (CodePoint.ofString f.word) = some f := by
  cases f <;> decide

end OutputFormat

/-- How much a log entry matters. -/
inductive LogLevel where
  /-- Every movement of a layer. -/
  | debug
  /-- Every query. -/
  | info
  /-- Warnings. -/
  | warning
  /-- Failures. -/
  | error
  deriving DecidableEq, Repr

namespace LogLevel

/-- The word for a level. -/
def word : LogLevel → String
  | debug => "DEBUG"
  | info => "INFO"
  | warning => "WARNING"
  | error => "ERROR"

/-- All levels. -/
def every : List LogLevel :=
  [debug, info, warning, error]

/-- Levels in the order of their weight. -/
def weight : LogLevel → Nat
  | debug => 10
  | info => 20
  | warning => 30
  | error => 40

/-- The upper-case form of a character as far as it can consist of ASCII letters.  Besides the small
letters these are the dotless i, the long s, the sharp s and the ligatures; any other character is
left alone, since its upper-case form holds a character beyond ASCII. -/
def upperCase : CodePoint → List CodePoint
  | .scalar c =>
      if 'a' ≤ c && c ≤ 'z' then [.scalar (Char.ofNat (c.toNat - 0x20))]
      else
        match c.toNat with
        | 0x00DF => CodePoint.ofString "SS"
        | 0x0131 => CodePoint.ofString "I"
        | 0x017F => CodePoint.ofString "S"
        | 0xFB00 => CodePoint.ofString "FF"
        | 0xFB01 => CodePoint.ofString "FI"
        | 0xFB02 => CodePoint.ofString "FL"
        | 0xFB03 => CodePoint.ofString "FFI"
        | 0xFB04 => CodePoint.ofString "FFL"
        | 0xFB05 => CodePoint.ofString "ST"
        | 0xFB06 => CodePoint.ofString "ST"
        | _ => [.scalar c]
  | .half unit => [.half unit]

/-- The level that a text names, in upper or lower case. -/
def ofText? (points : List CodePoint) : Option LogLevel :=
  every.find? fun l => CodePoint.ofString l.word == points.flatMap upperCase

theorem ofText?_word (l : LogLevel) : ofText? (CodePoint.ofString l.word) = some l := by
  cases l <;> decide

end LogLevel

/-! ### Settings -/

/-- Settings that passed the checks. -/
structure Settings where
  /-- How long the solver may take for one query, in milliseconds. -/
  timeoutMs : Int := 60000
  /-- Whether the text of every query is kept. -/
  recordQueries : Bool := false
  /-- How the report is printed. -/
  format : OutputFormat := .pretty
  /-- From which level on log entries are shown. -/
  logLevel : LogLevel := .warning
  /-- Whether the corollaries after the theorem are proved. -/
  corollaries : Bool := true
  deriving DecidableEq, Repr

/-- Settings before the checks: format and level are still texts. -/
structure Settings.Draft where
  /-- How long the solver may take for one query, in milliseconds. -/
  timeoutMs : Int
  /-- Whether the text of every query is kept. -/
  recordQueries : Bool
  /-- The text that names the format. -/
  format : List CodePoint
  /-- The text that names the log level. -/
  logLevel : List CodePoint
  /-- Whether the corollaries after the theorem are proved. -/
  corollaries : Bool

/-- Why settings are refused. -/
inductive SettingsFault where
  /-- The timeout is not a whole number. -/
  | timeoutNotWhole (value : Data)
  /-- A flag is neither true nor false. -/
  | notFlag (key : String) (value : Data)
  /-- The timeout is not positive. -/
  | timeoutNotPositive (value : Data)
  /-- The format is not known. -/
  | unknownFormat (value : Data)
  /-- The log level is not known. -/
  | unknownLevel (value : Data)
  /-- Something is of a kind that is of no use where it stands. -/
  | kind (fault : KindFault)

/-- The record of a fault, for the faults that are reported with one. -/
def SettingsFault.record? : SettingsFault → Option ErrorRecord
  | timeoutNotWhole value => some (.setting "timeout_ms" value "not an integer")
  | notFlag key value => some (.setting key value "expected true or false")
  | timeoutNotPositive value => some (.setting "timeout_ms" value "must be positive")
  | unknownFormat value =>
      some (.setting "format" value
        ("expected one of " ++ Text.commaSeparated (OutputFormat.every.map OutputFormat.word)))
  | unknownLevel value =>
      some (.setting "log_level" value
        ("expected one of " ++ Text.commaSeparated (LogLevel.every.map LogLevel.word)))
  | _ => none

/-- The wording of a fault. -/
def SettingsFault.message (f : SettingsFault) : String :=
  match f.record? with
  | some r => r.display
  | none =>
      match f with
      | kind fault => fault.message
      | _ => ""

namespace Settings

/-- The draft that settings come from. -/
def toDraft (s : Settings) : Draft :=
  { timeoutMs := s.timeoutMs
    recordQueries := s.recordQueries
    format := CodePoint.ofString s.format.word
    logLevel := CodePoint.ofString s.logLevel.word
    corollaries := s.corollaries }

/-- The format that a text names, or the fault that it names none. -/
def checkFormat (points : List CodePoint) : Except SettingsFault OutputFormat :=
  match OutputFormat.ofText? points with
  | some f => .ok f
  | none => .error (.unknownFormat (.str points))

/-- The level that a text names, or the fault that it names none. -/
def checkLevel (points : List CodePoint) : Except SettingsFault LogLevel :=
  match LogLevel.ofText? points with
  | some l => .ok l
  | none => .error (.unknownLevel (.str points))

/-- Checks a draft: first the timeout, then the format, then the level. -/
def Draft.check (d : Draft) : Except SettingsFault Settings := do
  if d.timeoutMs ≤ 0 then
    throw (.timeoutNotPositive (.int d.timeoutMs))
  let format ← checkFormat d.format
  let logLevel ← checkLevel d.logLevel
  return { timeoutMs := d.timeoutMs, recordQueries := d.recordQueries, format, logLevel,
           corollaries := d.corollaries }

/-- Checked settings with a positive timeout pass the checks unchanged. -/
theorem check_toDraft (s : Settings) (h : 0 < s.timeoutMs) : s.toDraft.check = .ok s := by
  have h' : ¬ s.timeoutMs ≤ 0 := by omega
  simp [Draft.check, toDraft, h', checkFormat, checkLevel, OutputFormat.ofText?_word,
    LogLevel.ofText?_word, bind, Except.bind, pure, Except.pure]

/-! ### Settings from an object -/

/-- The timeout that an object sets. -/
def timeoutField (data : Data) : Except SettingsFault (Option Int) :=
  match data.field? "timeout_ms" with
  | none => .ok none
  | some (.int n) => .ok (some n)
  | some value => .error (.timeoutNotWhole value)

/-- The flag that an object sets. -/
def flagField (data : Data) (key : String) : Except SettingsFault (Option Bool) :=
  match data.field? key with
  | none => .ok none
  | some (.bool b) => .ok (some b)
  | some value => .error (.notFlag key value)

/-- The draft that an object stands for.  A field that is missing is set by default, and what names
a format or a level may be of any kind. -/
def Draft.ofFields (data : Data) : Except SettingsFault Draft := do
  let start := ({} : Settings).toDraft
  let timeout ← timeoutField data
  let record ← flagField data "record_smtlib2"
  let corollaries ← flagField data "corollaries"
  return { timeoutMs := timeout.getD start.timeoutMs
           recordQueries := record.getD start.recordQueries
           format := ((data.field? "format").map Data.shown).getD start.format
           logLevel := ((data.field? "log_level").map Data.shown).getD start.logLevel
           corollaries := corollaries.getD start.corollaries }

/-- The settings that an object stands for. -/
def ofFields (data : Data) : Except SettingsFault Settings := do
  (← Draft.ofFields data).check

/-- The names of the settings. -/
def keys : List String :=
  ["timeout_ms", "record_smtlib2", "format", "log_level", "corollaries"]

/-- Whether a name occurs in data: as a key, as an item or as a part of a text. -/
def occurs (data : Data) (key : String) : Bool :=
  match data with
  | .str points => (List.range points.length).any fun start =>
      (CodePoint.ofString key).isPrefixOf (points.drop start)
  | .list items => items.any fun
      | .str points => points == CodePoint.ofString key
      | _ => false
  | d => (d.field? key).isSome

/-- The settings that data stands for.  What holds no settings at all stands for the defaults,
unless it can hold nothing, or names a setting without having fields. -/
def ofData (data : Data) : Except SettingsFault Settings :=
  match data with
  | .object fields => ofFields (.object fields)
  | d =>
      if d.items?.isNone then .error (.kind (.noMembers d))
      else if keys.any (occurs d) then .error (.kind (.noKeys d))
      else ofFields d

/-- Settings as data. -/
def toData (s : Settings) : Data :=
  .ofFields
    [("timeout_ms", .int s.timeoutMs), ("record_smtlib2", .bool s.recordQueries),
      ("format", .text s.format.word), ("log_level", .text s.logLevel.word),
      ("corollaries", .bool s.corollaries)]

end Settings

end CandyCircle
