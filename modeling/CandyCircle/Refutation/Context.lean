/-
**Layers over a fact base.**

A proof runs in a stack of reversible layers over a persistent base.  The base holds the axioms and
every fact committed so far, and only grows.  A layer holds the temporary constants and hypotheses
of a proof in progress; closing it discards them, and the constants that it declared are retired: a
formula that mentions one of them is refused from then on.

Main definitions:

* `CandyCircle.Layer`, `CandyCircle.LogEntry`, `CandyCircle.Context` — layers, entries of the log,
  and the state of a proof run;
* `CandyCircle.Context.push`, `CandyCircle.Context.pop`, `CandyCircle.Context.unwind` — opening and
  closing layers;
* `CandyCircle.Context.declare`, `CandyCircle.Context.assume`, `CandyCircle.Context.assumeFact`,
  `CandyCircle.Context.commit`, `CandyCircle.Context.conclude` — constants, hypotheses and facts;
* `CandyCircle.Context.fact`, `CandyCircle.Context.hasFact` — looking facts up;
* `CandyCircle.Context.checkRefuted` — a query, entered into the ledger.
-/
import CandyCircle.Failure
import CandyCircle.Ledger
import CandyCircle.Refutation.Session
import CandyCircle.Settings.Options

set_option autoImplicit false

namespace CandyCircle

open Logic

/-! ### Layers and logs -/

/-- One reversible layer. -/
structure Layer where
  /-- Its number in the order in which layers were opened, which tells layers of one name apart. -/
  serial : Nat
  name : String
  /-- How many layers were open when it had been opened. -/
  depth : Nat
  /-- The constants declared in it. -/
  symbols : List String := []
  /-- The facts registered in it by name, in the order of their names' first registration. -/
  facts : List (String × Fact) := []
  /-- How many formulas were assumed in it. -/
  assumptions : Nat := 0

namespace Layer

/-- The base layer before anything happened. -/
def bottom : Layer :=
  { serial := 0, name := ScopeFault.base, depth := 0 }

/-- Facts by name with one of them registered: a name that is there keeps its place. -/
def put (facts : List (String × Fact)) (f : Fact) : List (String × Fact) :=
  match facts with
  | [] => [(f.name, f)]
  | entry :: rest => if entry.1 = f.name then (f.name, f) :: rest else entry :: put rest f

/-- The layer with a fact registered. -/
def register (l : Layer) (f : Fact) : Layer :=
  { l with facts := put l.facts f }

/-- The fact registered under a name. -/
def find? (l : Layer) (name : String) : Option Fact :=
  (l.facts.find? fun entry => entry.1 == name).map Prod.snd

end Layer

/-- What a log entry comes from. -/
inductive LogSource where
  /-- The stack of layers. -/
  | context
  /-- The proof plan. -/
  | plan
  /-- Concrete runs. -/
  | scenario
  deriving DecidableEq, Repr

/-- The name that a log entry carries for its source. -/
def LogSource.word : LogSource → String
  | context => "candyproof.context"
  | plan => "candyproof.theorem"
  | scenario => "candyproof.scenario"

/-- An entry of the log. -/
structure LogEntry where
  /-- How much it matters. -/
  level : LogLevel
  /-- Where it comes from. -/
  source : LogSource
  /-- What it says. -/
  message : String

/-- An entry on a line, with the level in a column of given width. -/
def LogEntry.line (width : Nat) (e : LogEntry) : String :=
  Text.padRight width e.level.word ++ " " ++ e.source.word ++ ": " ++ e.message

/-! ### The state of a proof run -/

/-- The state of a proof run. -/
structure Context where
  /-- The options of the run. -/
  options : Settings.Options
  /-- The session with the solver. -/
  session : Session
  /-- The queries so far. -/
  ledger : Ledger := {}
  base : Layer := .bottom
  /-- The open layers, the innermost first. -/
  opened : List Layer := []
  /-- The constants of closed layers. -/
  retired : List String := []
  /-- The names of the committed facts, in order. -/
  committed : List String := []
  /-- The constants declared so far, each with the number of its layer. -/
  issued : List (Nat × String) := []
  /-- How many layers were opened so far. -/
  openings : Nat := 0
  /-- The verdicts on goals, by the numbers of their layers, the latest first. -/
  outcomes : List (Nat × Verdict) := []
  log : List LogEntry := []

namespace Context

/-- The state at the start of a run. -/
def start (options : Settings.Options) (replies : List Prepared) : Context :=
  { options, session := .start options.timeout replies }

/-- The constants that a layer has declared so far. -/
def declaredIn (c : Context) (serial : Nat) : List String :=
  (c.issued.filter fun d => d.1 == serial).map Prod.snd

/-- How many layers are open. -/
def depth (c : Context) : Nat :=
  c.opened.length

/-- The innermost layer. -/
def current (c : Context) : Layer :=
  c.opened.headD c.base

/-- All layers, the innermost first. -/
def layers (c : Context) : List Layer :=
  c.opened ++ [c.base]

/-- The state with the innermost layer changed. -/
def updateCurrent (c : Context) (f : Layer → Layer) : Context :=
  match c.opened with
  | [] => { c with base := f c.base }
  | l :: outer => { c with opened := f l :: outer }

/-- The state with one log entry more. -/
def logged (c : Context) (level : LogLevel) (source : LogSource) (message : String) : Context :=
  { c with log := c.log ++ [⟨level, source, message⟩] }

/-! ### Opening and closing layers -/

/-- What the log says when a layer is opened or closed. -/
def movement (verb name : String) (depth : Nat) : String :=
  verb ++ " " ++ name ++ " (depth " ++ Decimal.ofNat depth ++ ")"

/-- Opens a layer. -/
def push (c : Context) (name : String) : Layer × Context :=
  let layer : Layer := { serial := c.openings + 1, name, depth := c.depth + 1 }
  (layer,
    { c with
      session := c.session.push
      opened := layer :: c.opened
      openings := c.openings + 1 }.logged .debug .context (movement "push" name layer.depth))

/-- Closes the innermost layer and retires its constants; without an open layer nothing happens. -/
def closeInnermost (c : Context) : Context :=
  match c.opened with
  | [] => c
  | l :: outer =>
      { c with
        session := c.session.pop
        opened := outer
        retired := c.retired ++ l.symbols }.logged .debug .context
          (movement "pop" l.name outer.length)

/-- Closes the innermost layer, which has to be the expected one if one is expected. -/
def pop (c : Context) (expected : Option Layer) : Except Failure (Layer × Context) :=
  match c.opened with
  | [] => .error (.scope .nothingOpen)
  | l :: _ =>
      match expected with
      | some e =>
          if e.serial = l.serial then .ok (l, c.closeInnermost)
          else .error (.scope (.notInnermost e.name l.name))
      | none => .ok (l, c.closeInnermost)

/-- Closes a number of layers. -/
def closeMany : Nat → Context → Context
  | 0, c => c
  | n + 1, c => closeMany n c.closeInnermost

/-- Closes a layer and all layers inside it; if it is not open, nothing happens. -/
def unwind (c : Context) (layer : Layer) : Context :=
  match c.opened.findIdx? fun l => l.serial == layer.serial with
  | none => c
  | some inside => closeMany (inside + 1) c

/-! ### Constants and hypotheses -/

/-- The name of the fresh constant of a number. -/
def freshName (stem : String) (number : Nat) : String :=
  stem ++ "!" ++ Decimal.ofNat number

/-- A fresh constant of the innermost layer. -/
def declare (c : Context) (stem : String) (kind : Kind) : Symbol × Context :=
  let name := freshName stem c.issued.length
  (⟨name, kind⟩,
    { c.updateCurrent fun l => { l with symbols := l.symbols ++ [name] } with
      issued := c.issued ++ [(c.current.serial, name)] })

/-- The retired constants that a formula mentions, in alphabetical order. -/
def leaks (c : Context) (f : Formula) : List String :=
  sortedNames ((f.constants.map Symbol.name).filter fun name => c.retired.contains name)

/-- Refuses a formula that mentions retired constants. -/
def refuseLeaks (c : Context) (f : Formula) (what : String) : Except Failure Unit :=
  match c.leaks f with
  | [] => .ok ()
  | first :: others => .error (.scope (.leak what (first :: others) c.current.name))

/-- The state with an assertion made and counted in the innermost layer. -/
def assertInside (c : Context) (a : Assertion) : Context :=
  { c with session := c.session.add a }.updateCurrent fun l =>
    { l with assumptions := l.assumptions + 1 }

/-- Assumes a formula in the innermost layer.  It is spoken of by its label, or in full if it has
none. -/
def assume (c : Context) (a : Assertion) : Except Failure Context := do
  c.refuseLeaks a.formula
    ("assumption " ++ if a.label.isEmpty then Term.display a.formula else a.label)
  return c.assertInside a

/-- The formula of a fact, which its trigger may prevent. -/
def formulaOf (f : Fact) : Except Failure Formula :=
  f.formula?.mapError .fact

/-- Assumes a fact in the innermost layer and registers it there. -/
def assumeFact (c : Context) (f : Fact) : Except Failure Context := do
  return (← c.assume { formula := ← formulaOf f, label := f.name }).updateCurrent fun l =>
    l.register f

/-- Makes a fact permanent.  No layer may be open, and the name has to be new at the base. -/
def commit (c : Context) (f : Fact) : Except Failure Context := do
  if c.depth ≠ 0 then
    throw (.scope (.commitInside f.name c.depth c.current.name))
  if (c.base.find? f.name).isSome then
    throw (.scope (.alreadyCommitted f.name))
  let formula ← formulaOf f
  c.refuseLeaks formula ("fact '" ++ f.name ++ "'")
  return { c with
      session := c.session.add { formula, label := f.name }
      base := c.base.register f
      committed := c.committed ++ [f.name] }.logged .debug .context ("commit " ++ f.name)

/-- Commits a fact at the base, and assumes it inside a layer. -/
def conclude (c : Context) (f : Fact) : Except Failure Context :=
  if c.depth = 0 then c.commit f else c.assumeFact f

/-! ### Looking facts up -/

/-- The visible fact of a name, that of the innermost layer first. -/
def fact? (c : Context) (name : String) : Option Fact :=
  c.layers.findSome? fun l => l.find? name

/-- The visible fact of a name. -/
def fact (c : Context) (name : String) : Except Failure Fact :=
  match c.fact? name with
  | some f => .ok f
  | none => .error (.scope (.notEstablished name c.current.name))

/-- Whether a fact of a name is visible. -/
def hasFact (c : Context) (name : String) : Bool :=
  (c.fact? name).isSome

/-! ### Queries -/

/-- What the log says of a query. -/
def checkMessage (name rule : String) (verdict : Verdict) (millis : Float) : LogLevel × String :=
  let what := name ++ " [" ++ rule ++ "] "
  match verdict with
  | .unsat => (.info, what ++ "refuted in " ++ Decimal.fixed 1 millis ++ " ms")
  | .sat => (.error, what ++ "not refuted: " ++ verdict.word ++ " (model found)")
  | .unknown => (.error, what ++ "not refuted: " ++ verdict.word ++ " (scripted)")

/-- The entry of a query into the ledger.  A query without a claim is entered under its name. -/
def obligation (c : Context) (name rule claim : String) (verdict : Verdict) (millis : Float) :
    Obligation :=
  { lemmaName := name
    rule
    claim := if claim.isEmpty then name else claim
    depth := c.depth
    query := if c.options.recordQueries then assertions c.session.active else ""
    verdict
    duration := .measured millis }

/-- Asks whether the active assertions have no model, and enters the query into the ledger, unless
the solver cannot reply. -/
def checkRefuted (c : Context) (name rule claim : String) : Except Failure Verdict × Context :=
  match c.session.check with
  | (.error fault, session) => (.error (.kind fault), { c with session })
  | (.ok (answer, millis), session) =>
      let verdict := Verdict.ofAnswer answer
      let (level, message) := checkMessage name rule verdict millis
      (.ok verdict,
        { c with
          session
          ledger := c.ledger.add (c.obligation name rule claim verdict millis) }.logged
          level .context message)

/-! ### Outcomes of goals -/

/-- The state with the verdict on the goal of a layer. -/
def setOutcome (c : Context) (layer : Layer) (v : Verdict) : Context :=
  { c with outcomes := (layer.serial, v) :: c.outcomes }

/-- The latest verdict on the goal of a layer. -/
def outcome? (c : Context) (layer : Layer) : Option Verdict :=
  (c.outcomes.find? fun o => o.1 == layer.serial).map Prod.snd

end Context

end CandyCircle
