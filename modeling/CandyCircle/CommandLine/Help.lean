/-
**Help texts.**

Main definitions:

* `CandyCircle.CommandLine.programName` — the name of the program, and of a command of it;
* `CandyCircle.CommandLine.helpText` — the help on the program, and on each command.
-/
import CandyCircle.CommandLine.Command
import CandyCircle.Ledger
import CandyCircle.Text.Layout

set_option autoImplicit false

namespace CandyCircle.CommandLine

/-- The name of the program, followed by that of a command. -/
def programName : Option CommandName → String
  | none => "candyproof"
  | some c => "candyproof " ++ c.word

/-- The help on the program. -/
def mainHelp : List String :=
  [ "usage: candyproof [-h] [--version] [-v] \x7bprove,plan,simulate,witness\x7d ...",
    "",
    "candyproof — refutation proof of uniform candy distribution",
    "",
    "positional arguments:",
    "  \x7bprove,plan,simulate,witness\x7d",
    "                        Available commands",
    "    prove               Prove the convergence theorem",
    "    plan                List the lemmas of the proof plan",
    "    simulate            Run the process on concrete counts",
    "    witness             Check a convergence step with the solver",
    "",
    "options:",
    "  -h, --help            show this help message and exit",
    "  --version             show program's version number and exit",
    "  -v, --verbose         Log solver queries (-vv for layer operations)" ]

/-- The help on proving the theorem. -/
def proveHelp : List String :=
  [ "usage: candyproof prove [-h] [--format \x7bpretty,json,smtlib2\x7d]",
    "                        [--timeout-ms TIMEOUT_MS] [--config CONFIG]",
    "                        [--record-smtlib2] [--no-corollaries]",
    "",
    "options:",
    "  -h, --help            show this help message and exit",
    "  --format \x7bpretty,json,smtlib2\x7d",
    "                        Output format (default: pretty)",
    "  --timeout-ms TIMEOUT_MS",
    "                        Per-query solver timeout",
    "  --config CONFIG       Path to a .candyproofrc.json file",
    "  --record-smtlib2      Keep the SMTLIB2 text of every query",
    "  --no-corollaries      Stop after the main theorem" ]

/-- The help on listing the plan. -/
def planHelp : List String :=
  [ "usage: candyproof plan [-h] [--json]",
    "",
    "options:",
    "  -h, --help  show this help message and exit",
    "  --json      Machine-readable output" ]

/-- The help on running the process. -/
def simulateHelp : List String :=
  [ "usage: candyproof simulate [-h] [--max-steps MAX_STEPS] [--json]",
    "                           counts [counts ...]",
    "",
    "positional arguments:",
    "  counts                Initial counts, child 1 first",
    "",
    "options:",
    "  -h, --help            show this help message and exit",
    "  --max-steps MAX_STEPS",
    "  --json                Machine-readable output" ]

/-- The help on checking a witness. -/
def witnessHelp : List String :=
  [ "usage: candyproof witness [-h] --step STEP [--timeout-ms TIMEOUT_MS]",
    "                          [--config CONFIG]",
    "                          counts [counts ...]",
    "",
    "positional arguments:",
    "  counts                Initial counts, child 1 first",
    "",
    "options:",
    "  -h, --help            show this help message and exit",
    "  --step STEP           Step claimed to be uniform",
    "  --timeout-ms TIMEOUT_MS",
    "                        Solver timeout",
    "  --config CONFIG       Path to a .candyproofrc.json file" ]

/-- The help on the program or on a command, with a line end after the last line. -/
def helpText (about : Option CommandName) : String :=
  let lines := match about with
    | none => mainHelp
    | some .prove => proveHelp
    | some .plan => planHelp
    | some .simulate => simulateHelp
    | some .witness => witnessHelp
  Text.joinLines lines ++ "\n"

end CandyCircle.CommandLine
