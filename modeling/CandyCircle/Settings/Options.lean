/-
**Options of a proof run.**

A proof run needs to know three of the settings only, and takes them as they are: settings that were
checked as well as fields that nobody checked.

Main definitions:

* `CandyCircle.Settings.Options` — the options;
* `CandyCircle.Settings.options`, `CandyCircle.Settings.Given.options` — the options that settings,
  or fields of settings, stand for.
-/
import CandyCircle.Settings.Given

set_option autoImplicit false

namespace CandyCircle.Settings

/-- What a proof run needs to know. -/
structure Options where
  /-- How long the solver may take for one query. -/
  timeout : Data
  /-- Whether the text of every query is kept. -/
  recordQueries : Bool
  /-- Whether the corollaries after the theorem are proved. -/
  corollaries : Bool

/-- The options that settings stand for. -/
def options (s : Settings) : Options :=
  { timeout := .int s.timeoutMs, recordQueries := s.recordQueries, corollaries := s.corollaries }

/-- The options that fields stand for: a flag of any kind is on if it counts as yes. -/
def Given.options (g : Given) : Options :=
  { timeout := g.timeoutMs
    recordQueries := g.recordQueries.affirms
    corollaries := g.corollaries.affirms }

end CandyCircle.Settings
