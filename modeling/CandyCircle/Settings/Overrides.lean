/-
**Settings from the command line.**

What the command line says about the settings takes the place of what a file says; what it does not
mention stays.

Main definitions:

* `CandyCircle.Settings.Overrides` — what the command line says;
* `CandyCircle.Settings.overridden` — settings with that in place, checked again.
-/
import CandyCircle.Settings

set_option autoImplicit false

namespace CandyCircle.Settings

/-- What the command line says about the settings. -/
structure Overrides where
  /-- How long the solver may take for one query. -/
  timeoutMs : Option Int := none
  /-- How the report is printed. -/
  format : Option OutputFormat := none
  /-- The text of every query is to be kept. -/
  recordQueries : Bool := false
  /-- The corollaries are not to be proved. -/
  noCorollaries : Bool := false
  /-- How often a more detailed log is asked for. -/
  verbosity : Nat := 0
  deriving DecidableEq, Repr

/-- The log level that is asked for so often, if at all: queries at first, then layers too. -/
def Overrides.logLevel? (o : Overrides) : Option LogLevel :=
  match o.verbosity with
  | 0 => none
  | 1 => some .info
  | _ => some .debug

/-- Settings with what the command line says put in place. -/
def Overrides.apply (o : Overrides) (s : Settings) : Settings :=
  { timeoutMs := o.timeoutMs.getD s.timeoutMs
    recordQueries := o.recordQueries || s.recordQueries
    format := o.format.getD s.format
    logLevel := o.logLevel?.getD s.logLevel
    corollaries := !o.noCorollaries && s.corollaries }

/-- Settings with what the command line says put in place, and checked. -/
def overridden (s : Settings) (o : Overrides) : Except SettingsFault Settings :=
  (o.apply s).toDraft.check

end CandyCircle.Settings
