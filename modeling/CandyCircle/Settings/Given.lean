/-
**Settings given field by field.**

Whoever sets the fields of the settings directly may set them to anything; only their ranges are
checked, and the flags are taken as they are.

Main definitions:

* `CandyCircle.Settings.Given`, `CandyCircle.Settings.Given.ofFields`,
  `CandyCircle.Settings.Given.ofData` — fields of any kind;
* `CandyCircle.Settings.Given.check` — the checks of their ranges.
-/
import CandyCircle.Data.Order
import CandyCircle.Settings

set_option autoImplicit false

namespace CandyCircle.Settings

/-- The fields of settings, each of any kind. -/
structure Given where
  /-- How long the solver may take for one query. -/
  timeoutMs : Data
  /-- Whether the text of every query is kept. -/
  recordQueries : Data
  /-- What names the format. -/
  format : Data
  /-- What names the log level. -/
  logLevel : Data
  /-- Whether the corollaries after the theorem are proved. -/
  corollaries : Data

namespace Given

/-- The names of the fields, all of which may be left out. -/
def signature : Signature :=
  { name := "ProverConfig.__init__"
    subject := some "self"
    required := []
    optional := keys }

/-- Fields from an object; a name that is no field's is a fault. -/
def ofFields (fields : List (List CodePoint × Data)) : Except SettingsFault Given := do
  let given ← (signature.bind [] fields).mapError fun fault => .kind (.arguments signature fault)
  let start := ({} : Settings).toData
  let field (key : String) : Data :=
    ((given.lookup key).orElse fun _ => start.field? key).getD .null
  return { timeoutMs := field "timeout_ms"
           recordQueries := field "record_smtlib2"
           format := field "format"
           logLevel := field "log_level"
           corollaries := field "corollaries" }

/-- The name of what fields are handed over to. -/
def taker : String := "candyproof.config.ProverConfig"

/-- Fields from data, which has to be an object. -/
def ofData (data : Data) : Except SettingsFault Given := do
  ofFields (← (data.fieldsOrFault taker).mapError .kind)

/-- Checks the ranges of the timeout, the format and the level, in this order. -/
def check (g : Given) : Except SettingsFault Given := do
  if ← (g.timeoutMs.relate .atMost (.int 0)).mapError .kind then
    throw (.timeoutNotPositive g.timeoutMs)
  match g.format with
  | .str points => discard (checkFormat points)
  | d => throw (.unknownFormat d)
  match g.logLevel with
  | .str points =>
      let level ← checkLevel points
      return { g with logLevel := .text level.word }
  | d => throw (.kind (.noSkill "upper" d))

/-- The fields as data. -/
def toData (g : Given) : Data :=
  .ofFields
    [("timeout_ms", g.timeoutMs), ("record_smtlib2", g.recordQueries), ("format", g.format),
      ("log_level", g.logLevel), ("corollaries", g.corollaries)]

end Given

end CandyCircle.Settings
