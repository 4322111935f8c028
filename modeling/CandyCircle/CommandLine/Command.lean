/-
**Commands.**

A line names one of four commands: prove the theorem, list the plan, run the process on counts, or
check a convergence witness.  Each command has a grammar of its own for the words that follow it.
Items are read in the order in which they stand, and the first thing that ends the reading decides:
a request for help or for the version, or a fault.

Main definitions:

* `CandyCircle.CommandLine.CommandName`, `CandyCircle.CommandLine.Wishes`,
  `CandyCircle.CommandLine.Command` — the commands, with what they need;
* `CandyCircle.CommandLine.LineFault`, `CandyCircle.CommandLine.LineFault.message` — what may be
  wrong with a line;
* `CandyCircle.CommandLine.Ending` — what may end the reading early;
* `CandyCircle.CommandLine.read` — the command that a line names.
-/
import CandyCircle.CommandLine.Item
import CandyCircle.Dynamics.Counts
import CandyCircle.Settings.Overrides

set_option autoImplicit false

namespace CandyCircle.CommandLine

open CodePoint (ofString)

/-! ### Commands and their grammars -/

/-- The names of the commands. -/
inductive CommandName where
  /-- Prove the theorem. -/
  | prove
  /-- List the plan. -/
  | plan
  /-- Run the process. -/
  | simulate
  /-- Check a convergence witness. -/
  | witness
  deriving DecidableEq, Repr

namespace CommandName

/-- The word for a command. -/
def word : CommandName → String
  | prove => "prove"
  | plan => "plan"
  | simulate => "simulate"
  | witness => "witness"

/-- All commands. -/
def every : List CommandName :=
  [prove, plan, simulate, witness]

/-- The command that a word names. -/
def ofWord? (text : List CodePoint) : Option CommandName :=
  every.find? fun c => CodePoint.ofString c.word == text

/-- What may follow a command. -/
def grammar : CommandName → Grammar
  | prove => ⟨[.help, .format, .timeout, .config, .record, .noCorollaries], .nothing⟩
  | plan => ⟨[.help, .json], .nothing⟩
  | simulate => ⟨[.help, .maxSteps, .json], .counts⟩
  | witness => ⟨[.help, .step, .timeout, .config], .counts⟩

end CommandName

/-- What may stand on a line before the command, and the command. -/
def mainGrammar : Grammar :=
  ⟨[.help, .version, .verbose], .command⟩

/-- What a line says about the settings. -/
structure Wishes where
  /-- The settings file. -/
  file : Option (Slot (List CodePoint)) := none
  /-- How long the solver may take for one query. -/
  timeoutMs : Option (Slot Int) := none
  /-- All else. -/
  overrides : Settings.Overrides := {}
  deriving DecidableEq, Repr

/-- A command with what it needs. -/
inductive Command where
  /-- Prove the theorem. -/
  | prove (wishes : Wishes)
  /-- List the plan. -/
  | plan (json : Bool)
  /-- Run the process on counts for at most so many steps. -/
  | simulate (counts : List Int) (maxSteps : Slot Int) (json : Bool)
  /-- Check whether a step is a convergence witness for counts. -/
  | witness (counts : List Int) (step : Slot Int) (wishes : Wishes)
  deriving DecidableEq, Repr

/-! ### Faults -/

/-- What may be wrong with a line. -/
inductive LineFault where
  /-- A word could stand for several flags. -/
  | ambiguous (a : Ambiguity)
  /-- A flag is not written with what it needs. -/
  | item (fault : ItemFault)
  /-- A value is no whole number. -/
  | notWhole (label : String) (text : List CodePoint)
  /-- A value is none of the choices. -/
  | notChoice (label : String) (text : List CodePoint) (choices : List String)
  /-- Something required is missing. -/
  | missing (labels : List String)
  /-- Words are left over. -/
  | leftOver (texts : List (List CodePoint))
  deriving DecidableEq, Repr

/-- The wording of a fault: words of the line stand in it as they are, quoted or not. -/
def LineFault.message : LineFault → List CodePoint
  | ambiguous a =>
      ofString "ambiguous option: " ++ a.word ++ ofString " could match " ++
        (ofString ", ").intercalate a.spellings
  | item (.valueNotTaken f text) =>
      ofString ("argument " ++ f.label ++ ": ignored explicit argument " ++ Text.quoted text)
  | item (.valueMissing f) => ofString ("argument " ++ f.label ++ ": expected one argument")
  | notWhole label text =>
      ofString ("argument " ++ label ++ ": invalid int value: " ++ Text.quoted text)
  | notChoice label text choices =>
      ofString ("argument " ++ label ++ ": invalid choice: " ++ Text.quoted text ++
        " (choose from " ++ Text.commaSeparated (choices.map Text.quotedString) ++ ")")
  | missing labels =>
      ofString ("the following arguments are required: " ++ Text.commaSeparated labels)
  | leftOver texts =>
      ofString "unrecognized arguments: " ++ (ofString " ").intercalate texts

/-- What may end the reading of a line early; `none` stands for what precedes every command. -/
inductive Ending where
  /-- Help is asked for. -/
  | help (about : Option CommandName)
  /-- The version is asked for. -/
  | version
  /-- Something is wrong. -/
  | misuse (about : Option CommandName) (fault : LineFault)
  deriving DecidableEq, Repr

/-! ### Reading -/

/-- The name that complaints use for the counts. -/
def countsLabel : String := "counts"

/-- The name that complaints use for the command. -/
def commandLabel : String := "command"

/-- What the items of a line have said so far. -/
structure Answers where
  /-- What was said about the settings. -/
  wishes : Wishes := {}
  /-- JSON is asked for. -/
  json : Bool := false
  /-- The number of steps that a run may take. -/
  maxSteps : Slot Int := .filled Dynamics.defaultMaxSteps
  /-- The step that is asked about. -/
  step : Option (Slot Int) := none
  counts : Option (List Int) := none

/-- A whole number given as a value. -/
def wholeValue (label : String) (text : List CodePoint) : Except LineFault Int :=
  match (CodePoint.chars? text).bind Text.readInt? with
  | some n => .ok n
  | none => .error (.notWhole label text)

/-- The format that a value names. -/
def formatValue (text : List CodePoint) : Except LineFault OutputFormat :=
  match OutputFormat.ofText? text with
  | some f => .ok f
  | none =>
      .error (.notChoice Flag.format.label text (OutputFormat.every.map OutputFormat.word))

/-- The answers after one more flag without a value. -/
def Answers.takeFlag (a : Answers) : Flag → Answers
  | .verbose =>
      { a with wishes.overrides.verbosity := a.wishes.overrides.verbosity + 1 }
  | .record => { a with wishes.overrides.recordQueries := true }
  | .noCorollaries => { a with wishes.overrides.noCorollaries := true }
  | .json => { a with json := true }
  | _ => a

/-- The answers after one more flag with a value; of several values the last one counts.  A format
that is left blank is none. -/
def Answers.takeValue (a : Answers) (f : Flag) (text : Slot (List CodePoint)) :
    Except LineFault Answers := do
  let whole := text.mapM (wholeValue f.label)
  match f, text with
  | .format, .filled text => return { a with wishes.overrides.format := some (← formatValue text) }
  | .format, .blank => return { a with wishes.overrides.format := none }
  | .timeout, _ => return { a with wishes.timeoutMs := some (← whole) }
  | .config, _ => return { a with wishes.file := some text }
  | .maxSteps, _ => return { a with maxSteps := ← whole }
  | .step, _ => return { a with step := some (← whole) }
  | _, _ => return a

/-- The answers after the items of a line.  Operands are the counts. -/
def Answers.takeItems (about : Option CommandName) : List Item → Answers → Except Ending Answers
  | [], a => return a
  | .flag .help :: _, _ => .error (.help about)
  | .flag .version :: _, _ => .error .version
  | .flag f :: rest, a => takeItems about rest (a.takeFlag f)
  | .value f text :: rest, a => do
      takeItems about rest (← (a.takeValue f text).mapError (.misuse about))
  | .operands texts :: rest, a => do
      let counts ← (texts.mapM (wholeValue countsLabel)).mapError (.misuse about)
      takeItems about rest { a with counts := some counts }

/-- What a command lacks. -/
def Answers.lacking (a : Answers) : CommandName → List String
  | .simulate => if a.counts.isNone then [countsLabel] else []
  | .witness =>
      (if a.counts.isNone then [countsLabel] else []) ++
        (if a.step.isNone then [Flag.step.label] else [])
  | _ => []

/-- The command that answers make up. -/
def Answers.command (a : Answers) : CommandName → Command
  | .prove => .prove a.wishes
  | .plan => .plan a.json
  | .simulate => .simulate (a.counts.getD []) a.maxSteps a.json
  | .witness => .witness (a.counts.getD []) (a.step.getD .blank) a.wishes

/-- The words of a line by a grammar. -/
def wordsOf (g : Grammar) (about : Option CommandName) (line : List (List CodePoint)) :
    Except Ending (List Word) :=
  (g.words line).mapError fun a => .misuse about (.ambiguous a)

/-- Ends the reading if the line broke off. -/
def unbroken (about : Option CommandName) (g : Gathered) : Except Ending Unit :=
  match g.fault with
  | some fault => .error (.misuse about (.item fault))
  | none => .ok ()

/-- The command of a name with the words that follow it, and the words that are left over. -/
def readCommand (name : CommandName) (line : List (List CodePoint)) (start : Answers) :
    Except Ending (Command × List (List CodePoint)) := do
  let about := some name
  let gathered := name.grammar.gather (← wordsOf name.grammar about line)
  let answers ← Answers.takeItems about gathered.items start
  unbroken about gathered
  match answers.lacking name with
  | [] => return (answers.command name, gathered.leftOver)
  | first :: others => throw (.misuse about (.missing (first :: others)))

/-- The words from the command on, and the items before it. -/
def splitAtCommand : List Item → List Item × Option (List (List CodePoint))
  | [] => ([], none)
  | .operands texts :: _ => ([], some texts)
  | item :: rest => ((item :: (splitAtCommand rest).1), (splitAtCommand rest).2)

/-- The command that words name first, with the words that follow it. -/
def nameCommand (texts : List (List CodePoint)) :
    Except Ending (CommandName × List (List CodePoint)) :=
  let first := texts.headD []
  match CommandName.ofWord? first with
  | some name => .ok (name, texts.tail)
  | none =>
      .error (.misuse none
        (.notChoice commandLabel first (CommandName.every.map CommandName.word)))

/-- Ends the reading if words are left over. -/
def nothingLeft (texts : List (List CodePoint)) : Except Ending Unit :=
  if texts.isEmpty then .ok () else .error (.misuse none (.leftOver texts))

/-- The command that a line names, if it names one. -/
def read (line : List (List CodePoint)) : Except Ending (Option Command) := do
  let gathered := mainGrammar.gather (← wordsOf mainGrammar none line)
  let (before, texts?) := splitAtCommand gathered.items
  let answers ← Answers.takeItems none before {}
  match texts? with
  | none =>
      unbroken none gathered
      nothingLeft gathered.leftOver
      return none
  | some texts =>
      let (name, following) ← nameCommand texts
      let (command, leftOver) ← readCommand name following answers
      nothingLeft (gathered.leftOver ++ leftOver)
      return some command

end CandyCircle.CommandLine
