/-
**The command line.**

A line is read, the settings are loaded and overridden, and the command runs.  What is shown is the
output, and those entries of the log that matter enough for the settings.

Main definitions:

* `CandyCircle.CommandLine.Solver` — where the replies of the solver come from;
* `CandyCircle.CommandLine.Surroundings` — files, directory, terminal and solver;
* `CandyCircle.CommandLine.Outcome` — what a line leads to;
* `CandyCircle.CommandLine.run` — running a line.
-/
import CandyCircle.CommandLine.Help
import CandyCircle.Plan.Run
import CandyCircle.Plan.Text
import CandyCircle.Dynamics.Text
import CandyCircle.Dynamics.Unchecked
import CandyCircle.Report.Text
import CandyCircle.Settings.Search
import CandyCircle.Witness

set_option autoImplicit false

namespace CandyCircle.CommandLine

/-- Where the replies of the solver come from. -/
inductive Solver where
  /-- They are given in advance. -/
  | scripted (replies : List Prepared)
  /-- They are decided: the queries of the plan are refuted, and a question about counts is answered
  by running the process. -/
  | decided

/-- What surrounds a run of the program. -/
structure Surroundings where
  /-- The files. -/
  tree : FileTree
  /-- The directory that the program runs in. -/
  here : Path
  /-- The terminal that it prints on. -/
  terminal : Terminal
  solver : Solver

/-- What a line leads to. -/
inductive Outcome where
  /-- A command ran: exit code, output, and the log as far as it is shown. -/
  | done (code : Nat) (output : String) (log : List LogEntry)
  /-- The line is no good. -/
  | misused (about : Option CommandName) (fault : LineFault)
  /-- A failure that nothing recovers from. -/
  | failed (failure : Failure)

/-- Output with a line end, without a log. -/
def printed (code : Nat) (text : String) : Outcome :=
  .done code (text ++ "\n") []

/-! ### Settings and logs -/

/-- What a slot for a whole number holds, as data: a blank one holds nothing at all. -/
def Slot.toData : Slot Int → Data
  | filled n => .int n
  | blank => .list []

/-- The name of the settings file that a line gives. -/
def Wishes.fileName (w : Wishes) : Except Failure (Option (List CodePoint)) :=
  match w.file with
  | none => .ok none
  | some (.filled name) => .ok (some name)
  | some .blank => .error (.kind (.notPath (.list [])))

/-- What a line says about the settings, the timeout included.  A timeout that is left blank cannot
be held against zero. -/
def Wishes.complete (w : Wishes) : Except Failure Settings.Overrides :=
  match w.timeoutMs with
  | none => .ok w.overrides
  | some (.filled ms) => .ok { w.overrides with timeoutMs := some ms }
  | some .blank => .error (.kind (.incomparable Data.Relation.atMost.sign
      (Data.kindName (.list [])) (Data.kindName (.int 0))))

/-- The settings of a run: from a file, overridden by the command line. -/
def settingsOf (s : Surroundings) (w : Wishes) : Except Failure Settings := do
  let settings ← Settings.load s.tree s.here (← w.fileName) "."
  (settings.overridden (← w.complete)).mapError .settings

/-- The outcome of a failure: one of the proof is printed. -/
def failureOutcome (e : Failure) : Outcome :=
  if e.ofProof then
    printed 1 ((Data.list (e.records.map ErrorRecord.toData)).toJson Data.usualIndent)
  else .failed e

/-- The outcome of a fault in counts. -/
def countsOutcome (fault : Dynamics.CountsFault) (counts : List Data) : Outcome :=
  printed 1 ((Failure.countsRecord fault counts).toData.toJson Data.usualIndent)

/-- The entries of a log that matter enough. -/
def shownLog (level : LogLevel) (log : List LogEntry) : List LogEntry :=
  log.filter fun e => decide (level.weight ≤ e.level.weight)

/-- The width of the column for levels in the log. -/
def levelWidth : Nat := 7

/-- The replies of a solver; `decided` stands for the verdict that a decision leads to. -/
def Solver.replies (s : Solver) (decided : Verdict) : List Prepared :=
  match s with
  | .scripted replies => replies
  | .decided => [.ok ⟨decided.word, none⟩]

/-! ### Commands -/

/-- The settings of a proof: a report that consists of the recorded queries needs them recorded. -/
def recording (s : Settings) : Settings :=
  if s.format = .smtlib2 then { s with recordQueries := true } else s

/-- Proves the theorem and prints the report. -/
def runProve (s : Surroundings) (settings : Settings) : Outcome :=
  let settings := recording settings
  let start := Context.start settings.options (s.solver.replies .unsat)
  let v := Vocabulary.standard
  match (ExceptT.run (Plan.run v (Plan.chosen Plan.lemmas settings.options) false)).run start with
  | (.ok report, c) =>
      .done (if report.proved then 0 else 1) (report.render s.terminal settings.format ++ "\n")
        (shownLog settings.logLevel c.log)
  | (.error e, _) => .failed e

/-- Prints the plan. -/
def runPlan (s : Surroundings) (json : Bool) : Outcome :=
  printed 0 <|
    if json then (Plan.toData Plan.lemmas).toJson Data.usualIndent
    else Plan.table s.terminal Plan.lemmas

/-- Runs the process and prints its states. -/
def runSimulate (s : Surroundings) (counts : List Int) (maxSteps : Slot Int) (json : Bool) :
    Outcome :=
  match Dynamics.runWithin (counts.map Data.int) maxSteps.toData with
  | .error (.counts fault items) => countsOutcome fault items
  | .error e => .failed e
  | .ok states =>
      let states := states.map fun state => state.map Data.int
      if json then printed 0 ((Dynamics.trajectoryData states).toJson Data.usualIndent)
      else
        match Dynamics.trajectoryText s.terminal states with
        | .ok text => printed 0 text
        | .error e => .failed e

/-- What is printed about a witness. -/
def witnessLine (t : Terminal) (counts : List Int) (step : Data) (v : Verdict) : String :=
  let place := "step " ++ step.literal
  let start := (Data.list (counts.map Data.int)).literal
  if v.refuted then
    " " ++ t.tick ++ "  " ++ place ++ " is a convergence witness for " ++ start
  else
    " " ++ t.cross ++ "  " ++ place ++ " is not a witness for " ++ start ++ " (solver: " ++
      v.word ++ ")"

/-- The verdict that a question about a step leads to if it is decided by running the process. -/
def decidedVerdict (counts : List Int) : Slot Int → Verdict
  | .filled n => Witness.decide counts n.toNat
  | .blank => .unknown

/-- Checks a witness and prints the answer. -/
def runWitness (s : Surroundings) (settings : Settings) (counts : List Int) (step : Slot Int) :
    Outcome :=
  let start := Context.start settings.options (s.solver.replies (decidedVerdict counts step))
  match (ExceptT.run (Witness.checkAt (counts.map Data.int) step.toData)).run start with
  | (.ok v, c) =>
      .done (if v.refuted then 0 else 1) (witnessLine s.terminal counts step.toData v ++ "\n")
        (shownLog settings.logLevel c.log)
  | (.error (.counts fault counts), _) => countsOutcome fault counts
  | (.error e, _) => .failed e

/-- Runs a command. -/
def runCommand (s : Surroundings) : Command → Outcome
  | .prove wishes =>
      match settingsOf s wishes with
      | .ok settings => runProve s settings
      | .error e => failureOutcome e
  | .plan json => runPlan s json
  | .simulate counts maxSteps json => runSimulate s counts maxSteps json
  | .witness counts step wishes =>
      match settingsOf s wishes with
      | .ok settings => runWitness s settings counts step
      | .error e => failureOutcome e

/-- Runs a line. -/
def run (s : Surroundings) (line : List (List CodePoint)) : Outcome :=
  match read line with
  | .ok (some command) => runCommand s command
  | .ok none => .done 1 (helpText none) []
  | .error (.help about) => .done 0 (helpText about) []
  | .error .version => printed 0 (programName none ++ " " ++ version)
  | .error (.misuse about fault) => .misused about fault

end CandyCircle.CommandLine
