/-
**Flags of the command line.**

Main definitions:

* `CandyCircle.CommandLine.Flag` — the flags of all commands;
* `CandyCircle.CommandLine.Flag.spellings`, `CandyCircle.CommandLine.Flag.takesValue` — how a flag
  is written, and whether a value follows it;
* `CandyCircle.CommandLine.Operands`, `CandyCircle.CommandLine.Grammar` — what else a command takes,
  and what may stand on its line.
-/
import CandyCircle.Text.CodePoint

set_option autoImplicit false

namespace CandyCircle.CommandLine

/-- The flags of all commands. -/
inductive Flag where
  /-- Print help. -/
  | help
  /-- Print the version. -/
  | version
  /-- Log more. -/
  | verbose
  /-- The format of the report. -/
  | format
  /-- The time for one query. -/
  | timeout
  /-- The settings file. -/
  | config
  /-- Keep the text of every query. -/
  | record
  /-- Stop after the theorem. -/
  | noCorollaries
  /-- Print JSON. -/
  | json
  /-- The number of steps that a run may take. -/
  | maxSteps
  /-- The step that is asked about. -/
  | step
  deriving DecidableEq, Repr

namespace Flag

/-- The ways to write a flag, a short one first. -/
def spellings : Flag → List String
  | help => ["-h", "--help"]
  | version => ["--version"]
  | verbose => ["-v", "--verbose"]
  | format => ["--format"]
  | timeout => ["--timeout-ms"]
  | config => ["--config"]
  | record => ["--record-smtlib2"]
  | noCorollaries => ["--no-corollaries"]
  | json => ["--json"]
  | maxSteps => ["--max-steps"]
  | step => ["--step"]

/-- The name that complaints use for a flag. -/
def label (f : Flag) : String :=
  String.intercalate "/" f.spellings

/-- Whether a value follows a flag. -/
def takesValue : Flag → Bool
  | format => true
  | timeout => true
  | config => true
  | maxSteps => true
  | step => true
  | _ => false

end Flag

/-- What a command takes besides flags. -/
inductive Operands where
  /-- Nothing. -/
  | nothing
  /-- The counts at the start: at least one, next to one another. -/
  | counts
  /-- A command and all that follows it. -/
  | command
  deriving DecidableEq, Repr

/-- What may stand on a line. -/
structure Grammar where
  /-- The flags, in the order in which they are listed. -/
  flags : List Flag
  /-- What is taken besides flags. -/
  operands : Operands

/-- The flags of a grammar by their spellings, in order. -/
def Grammar.spelled (g : Grammar) : List (List CodePoint × Flag) :=
  g.flags.flatMap fun f => f.spellings.map fun s => (CodePoint.ofString s, f)

/-- The flag of a spelling. -/
def Grammar.flag? (g : Grammar) (spelling : List CodePoint) : Option Flag :=
  (g.spelled.find? fun p => p.1 == spelling).map Prod.snd

end CandyCircle.CommandLine
