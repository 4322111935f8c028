/-
**Proofs by refutation.**

A proof is a computation on the state of a proof run that may fail; a failure keeps the state at the
moment it struck.  A claim is established by opening a layer, assuming its guard for fresh witnesses
of its variables, asserting that its body fails for them, and asking the solver.  Only if the query
is refuted is the claim concluded, after its layer was closed, so that no temporary hypothesis
outlives its layer.

A proof may run inside a surrounding computation of its own (`ProofT`); `ProofM` has none.

Main definitions:

* `CandyCircle.ProofT`, `CandyCircle.ProofM` — proofs;
* `CandyCircle.Proof.scope` — a part of a proof inside a layer of its own, which is closed in any
  case;
* `CandyCircle.Goal`, `CandyCircle.Proof.discharge` — a claim under refutation, and its query;
* `CandyCircle.Proof.proving`, `CandyCircle.Proof.prove` — establishing a claim.
-/
import CandyCircle.Refutation.Context

set_option autoImplicit false

namespace CandyCircle

open Logic

/-- A proof inside a surrounding computation. -/
abbrev ProofT (m : Type → Type) := ExceptT Failure (StateT Context m)

/-- A proof. -/
abbrev ProofM := ProofT Id

/-- Hints: formulas built from the witnesses of a claim. -/
abbrev HintsT (m : Type → Type) := List Symbol → ProofT m (List Formula)

/-- A claim under refutation inside its own layer. -/
structure Goal where
  claim : Fact
  /-- The proof rule that its query serves. -/
  rule : String
  /-- Fresh constants, one for each variable of the claim. -/
  witnesses : List Symbol
  /-- The layer of the goal. -/
  layer : Layer

/-- The integer constant at a place among witnesses. -/
def witness (ws : List Symbol) (place : Nat) : IntTerm :=
  Term.int ((ws[place]?.map Symbol.name).getD "")

/-- The integer witness of a goal at a place. -/
def Goal.witness (g : Goal) (place : Nat) : IntTerm :=
  CandyCircle.witness g.witnesses place

namespace Proof

variable {m : Type → Type} [Monad m] {α : Type}

/-! ### Single operations -/

/-- A proof inside no computation, inside any. -/
def lift (p : ProofM α) : ProofT m α :=
  ExceptT.mk fun c => pure ((ExceptT.run p).run c)

/-- A change of the state that may be refused; then the state stays. -/
def change (f : Context → Except Failure (α × Context)) : ProofT m α :=
  ExceptT.mk fun c =>
    match f c with
    | .ok (a, c') => pure (.ok a, c')
    | .error e => pure (.error e, c)

/-- A value that may be refused. -/
def require (r : Except Failure α) : ProofT m α :=
  change fun c => r.map (·, c)

/-- A value read off the state. -/
def look (f : Context → α) : ProofT m α :=
  change fun c => .ok (f c, c)

/-- Stops the proof. -/
def fail (e : Failure) : ProofT m α :=
  require (.error e)

/-- The outcome of a part of a proof; if it fails, what comes after it still runs. -/
def attempt (p : ProofT m α) : ProofT m (Except Failure α) :=
  ExceptT.mk do return .ok (← ExceptT.run p)

/-- Opens a layer. -/
def push (name : String) : ProofT m Layer :=
  change fun c => .ok (c.push name)

/-- Closes the innermost layer. -/
def pop (expected : Option Layer) : ProofT m Layer :=
  change fun c => c.pop expected

/-- Closes a layer and all layers inside it. -/
def unwind (layer : Layer) : ProofT m Unit :=
  change fun c => .ok ((), c.unwind layer)

/-- Declares a fresh constant in the innermost layer. -/
def declare (stem : String) (kind : Kind) : ProofT m Symbol :=
  change fun c => .ok (c.declare stem kind)

/-- Assumes a formula in the innermost layer. -/
def assume (f : Formula) (label : String) : ProofT m Unit :=
  change fun c => (c.assume { formula := f, label }).map ((), ·)

/-- Assumes a formula in the innermost layer as a hint. -/
def assumeHint (f : Formula) (label : String) : ProofT m Unit :=
  change fun c => (c.assume { formula := f, label, hint := true }).map ((), ·)

/-- Assumes a fact in the innermost layer. -/
def assumeFact (f : Fact) : ProofT m Unit :=
  change fun c => (c.assumeFact f).map ((), ·)

/-- Makes a fact permanent. -/
def commit (f : Fact) : ProofT m Unit :=
  change fun c => (c.commit f).map ((), ·)

/-- Commits a fact at the base, and assumes it inside a layer. -/
def conclude (f : Fact) : ProofT m Unit :=
  change fun c => (c.conclude f).map ((), ·)

/-- The visible fact of a name. -/
def fact (name : String) : ProofT m Fact :=
  change fun c => (c.fact name).map (·, c)

/-- Asks whether the active assertions have no model. -/
def checkRefuted (name rule claim : String) : ProofT m Verdict :=
  ExceptT.mk fun c => pure (c.checkRefuted name rule claim)

/-- The instance of a fact for integers. -/
def instanceOf (f : Fact) (terms : List IntTerm) : ProofT m Formula :=
  require ((f.instanceAt (terms.map .int)).mapError .fact)

/-- Writes an entry into the log. -/
def log (level : LogLevel) (source : LogSource) (message : String) : ProofT m Unit :=
  change fun c => .ok ((), c.logged level source message)

/-! ### Layers -/

/-- Runs a part of a proof inside a layer of its own.  If it fails, the layer and whatever is open
inside it are closed; if it ends, the layer has to be the innermost one and is closed. -/
def scope (name : String) (body : Layer → ProofT m α) : ProofT m α := do
  let layer ← push name
  let a ← ExceptT.tryCatch (body layer) fun e => do
    unwind layer
    fail e
  let _ ← pop (some layer)
  return a

/-- Declares the constants of a symbolic step and its successor. -/
def declareStep (name : String) : ProofT m Step := do
  let k ← declare name .int
  let next ← declare (name ++ "_next") .int
  return .ofInts (.int k.name) (.int next.name) (← look fun c => c.current.name)

/-- Assumes that a symbolic step is at least a lower bound, and that its successor is one more. -/
def assumeStep (step : Step) (lower : AnyTerm) (name : String) : ProofT m Unit := do
  let k := step.k.toInt
  assume (.compare .ge k lower.toInt) (name ++ " >= " ++ lower.term.display)
  assume (.eq .int step.next.toInt (Term.succ k)) (name ++ "_next = " ++ name ++ " + 1")

/-! ### Claims -/

/-- Assumes the guard of a claim for its witnesses, unless it says nothing: a claim without
variables may have the guard that is literally true. -/
def assumeGuard (claim : Fact) (witnesses : List Symbol) : ProofT m Unit := do
  if claim.vars.isEmpty && Formula.isTrue claim.guard then return ()
  let guard ← require ((claim.guardAt (witnesses.map Symbol.any)).mapError .fact)
  assume guard (claim.name ++ " guard")

/-- Assumes formulas as hints under one label, one after another. -/
def assumeHints (formulas : List Formula) (label : String) : ProofT m Unit :=
  formulas.forM fun f => assumeHint f label

/-- Asserts that the body of a goal fails for its witnesses, together with hints, and asks the
solver.  The layer of the goal has to be the innermost one. -/
def discharge (g : Goal) (hints : List Formula) : ProofT m Verdict := do
  let current ← look Context.current
  if current.serial ≠ g.layer.serial then
    fail (.scope (.dischargedInside g.claim.name current.name))
  let body ← require ((g.claim.bodyAt (g.witnesses.map Symbol.any)).mapError .fact)
  let fails ← require ((Formula.negation body).mapError fun fault => .fact (.form fault))
  assume fails ("not " ++ g.claim.name)
  assumeHints hints (g.claim.name ++ " hint")
  let claim ← require (g.claim.display?.mapError .fact)
  let verdict ← checkRefuted g.claim.name g.rule claim
  change fun c => .ok ((), c.setOutcome g.layer verdict)
  return verdict

/-- The part of establishing a claim that runs inside its layer: the latest verdict, and the
layer. -/
def refutation (claim : Fact) (rule : String) (body : Goal → ProofT m Unit) (layer : Layer) :
    ProofT m (Layer × Verdict) := do
  let witnesses ← claim.vars.mapM fun s => declare s.name s.kind
  assumeGuard claim witnesses
  body { claim, rule, witnesses, layer }
  match ← look fun c => c.outcome? layer with
  | none => fail (.scope (.neverDischarged claim.name layer.name))
  | some verdict => return (layer, verdict)

/-- Establishes a claim: `body` discharges the goal, possibly after proofs of its own.  The claim is
concluded if asked for, and only if the latest verdict on the goal is that it is refuted. -/
def proving (claim : Fact) (rule : String) (concluding : Bool) (body : Goal → ProofT m Unit) :
    ProofT m Unit := do
  let (layer, verdict) ← scope claim.name (refutation claim rule body)
  if !verdict.refuted then
    fail (.notRefuted claim.name verdict rule layer.depth)
  if concluding then conclude claim

/-- Establishes a claim by a single query with hints. -/
def prove (claim : Fact) (rule : String) (hints : HintsT m) (concluding : Bool) : ProofT m Unit :=
  proving claim rule concluding fun g => do
    let _ ← discharge g (← hints g.witnesses)

/-- No hints. -/
def noHints : HintsT m := fun _ => pure []

/-- The rule of an ordinary query. -/
def plainRule : String := "refutation"

end Proof

end CandyCircle
