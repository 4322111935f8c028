/-
**States that a run can reach.**

A state is reachable if operations lead to it from the start of a run, in any order, at any depth,
and with any outcome: an operation that is refused leaves the state where it was.  Whatever a proof
does, it does by these operations, even if it fails half-way.  So what every operation preserves
every proof preserves, and proofs lead from reachable states to reachable ones.

Reachable states are orderly.  There is a frame of assertions for every open layer, and the
constants that layers declared, whether still open or closed, carry numbers that were given out.

Main definitions:

* `CandyCircle.Context.Moves`, `CandyCircle.Context.Leads` — one operation on the state of a run,
  and any number of them;
* `CandyCircle.Context.Reachable` — **the states that a run can reach**;
* `CandyCircle.Context.Orderly` — layers match frames, and constants carry numbers given out;
* `CandyCircle.Context.view` — the view that a state shows;
* `CandyCircle.Proof.Operates` — **a proof goes by operations**;
* `CandyCircle.Proof.Keeps` — a proof stays among reachable states.

Main results:

* `CandyCircle.Context.Reachable.orderly` — **reachable states are orderly**;
* `CandyCircle.Proof.closed_operates` — **going by operations is closed**: proofs, claims and
  inductions go by operations;
* `CandyCircle.Proof.Operates.keeps` — such proofs stay among reachable states.
-/
import CandyCircle.Proofs.Refutation.Closed
import CandyCircle.Proofs.Refutation.Induction
import Mathlib.Logic.Relation

set_option autoImplicit false

namespace CandyCircle

open Logic

theorem Session.length_frames_add (s : Session) (a : Assertion) :
    (s.add a).frames.length = s.frames.length := by
  unfold Session.add
  split <;> simp_all [Session.note]

namespace Context

/-! ### Operations -/

/-- One operation on the state of a run that is not refused. -/
inductive Moves : Context → Context → Prop where
  | push (c : Context) (name : String) : Moves c (c.push name).2
  | pop {c c' : Context} {expected : Option Layer} {layer : Layer}
      (h : c.pop expected = .ok (layer, c')) : Moves c c'
  | unwind (c : Context) (layer : Layer) : Moves c (c.unwind layer)
  | declare (c : Context) (stem : String) (kind : Kind) : Moves c (c.declare stem kind).2
  | assume {c c' : Context} {a : Assertion} (h : c.assume a = .ok c') : Moves c c'
  | assumeFact {c c' : Context} {f : Fact} (h : c.assumeFact f = .ok c') : Moves c c'
  | commit {c c' : Context} {f : Fact} (h : c.commit f = .ok c') : Moves c c'
  | check (c : Context) (name rule claim : String) : Moves c (c.checkRefuted name rule claim).2
  | setOutcome (c : Context) (layer : Layer) (v : Verdict) : Moves c (c.setOutcome layer v)
  | log (c : Context) (level : LogLevel) (source : LogSource) (message : String) :
      Moves c (c.logged level source message)

/-- **The states that a run can reach** from its start. -/
inductive Reachable : Context → Prop where
  | start (options : Settings.Options) (replies : List Prepared) : Reachable (start options replies)
  | move {c c' : Context} (h : Reachable c) (hmove : Moves c c') : Reachable c'

/-- Operations lead from one state to another. -/
def Leads : Context → Context → Prop :=
  Relation.ReflTransGen Moves

theorem Leads.refl (c : Context) : c.Leads c :=
  Relation.ReflTransGen.refl

theorem Leads.trans {c c' c'' : Context} (h : c.Leads c') (h' : c'.Leads c'') : c.Leads c'' :=
  Relation.ReflTransGen.trans h h'

theorem Leads.of_moves {c c' : Context} (h : Moves c c') : c.Leads c' :=
  Relation.ReflTransGen.single h

theorem moves_of_conclude {c c' : Context} {f : Fact} (h : c.conclude f = .ok c') :
    Moves c c' := by
  unfold Context.conclude at h
  split at h
  · exact .commit h
  · exact .assumeFact h

/-- Operations lead from reachable states to reachable states. -/
theorem Reachable.leads {c c' : Context} (h : c.Reachable) (hleads : c.Leads c') :
    c'.Reachable := by
  induction hleads with
  | refl => exact h
  | tail _ hmove ih => exact ih.move hmove

/-- The reachable states are those that operations lead to from the start of a run. -/
theorem reachable_iff_leads {c : Context} :
    c.Reachable ↔ ∃ options replies, (start options replies).Leads c := by
  constructor
  · intro h
    induction h with
    | start options replies => exact ⟨options, replies, .refl _⟩
    | move _ hmove ih =>
        obtain ⟨options, replies, hleads⟩ := ih
        exact ⟨options, replies, hleads.trans (.of_moves hmove)⟩
  · rintro ⟨options, replies, hleads⟩
    exact (Reachable.start options replies).leads hleads

/-! ### Reachable states are orderly -/

/-- The constants that layers declared, those of closed layers first. -/
def known (c : Context) : List String :=
  c.retired ++ c.layers.flatMap Layer.symbols

/-- Layers match frames, and the constants of layers carry numbers that were given out. -/
structure Orderly (c : Context) : Prop where
  depth : c.opened.length = c.session.frames.length
  numbered : ∀ name ∈ c.known, ∃ stem number, number < c.issued.length ∧
    name = freshName stem number

section Orderly

variable {c c' : Context}

/-- A change of the innermost layer that declares nothing. -/
theorem known_updateCurrent {f : Layer → Layer} (h : ∀ l, (f l).symbols = l.symbols) :
    (c.updateCurrent f).known = c.known := by
  unfold updateCurrent known layers
  split <;> simp_all

theorem mem_known_updateCurrent {f : Layer → Layer} {new name : String}
    (h : ∀ l, (f l).symbols = l.symbols ++ [new]) (hname : name ∈ (c.updateCurrent f).known) :
    name ∈ c.known ∨ name = new := by
  unfold updateCurrent known layers at *
  split at hname
  all_goals
    simp_all
    grind

/-- Nothing changed but the assertions and what layers know besides constants. -/
theorem Orderly.congr (h : c.Orderly) (hopened : c'.opened.length = c.opened.length)
    (hframes : c'.session.frames.length = c.session.frames.length) (hknown : c'.known = c.known)
    (hissued : c'.issued = c.issued) : c'.Orderly where
  depth := by rw [hopened, hframes, h.depth]
  numbered := by
    rw [hknown, hissued]
    exact h.numbered

theorem Orderly.assertInside (h : c.Orderly) (a : Assertion) : (c.assertInside a).Orderly := by
  refine h.congr ?_ ?_ ?_ ?_
  · exact length_opened_updateCurrent _ _
  · rw [Context.assertInside, session_updateCurrent]
    exact c.session.length_frames_add a
  · exact known_updateCurrent fun _ => rfl
  · exact issued_updateCurrent _ _

theorem Orderly.updateFacts (h : c.Orderly) {f : Layer → Layer}
    (hf : ∀ l, (f l).symbols = l.symbols) : (c.updateCurrent f).Orderly :=
  h.congr (length_opened_updateCurrent _ _) (by rw [session_updateCurrent])
    (known_updateCurrent hf) (issued_updateCurrent _ _)

theorem Orderly.push (h : c.Orderly) (name : String) : (c.push name).2.Orderly := by
  refine ⟨congrArg (· + 1) h.depth, fun x hx => h.numbered x ?_⟩
  -- the new layer has declared nothing yet
  simpa [Context.push, logged, known, layers] using hx

theorem Orderly.declare (h : c.Orderly) (stem : String) (kind : Kind) :
    (c.declare stem kind).2.Orderly := by
  have hissued : (c.declare stem kind).2.issued =
      c.issued ++ [(c.current.serial, freshName stem c.issued.length)] := rfl
  refine ⟨?_, fun x hx => ?_⟩
  · exact (length_opened_updateCurrent _ _).trans
      (h.depth.trans (congrArg (List.length ∘ Session.frames) (session_updateCurrent _ _)).symm)
  · rw [hissued, List.length_append, List.length_singleton]
    rcases mem_known_updateCurrent (fun _ => rfl) hx with hx | rfl
    · obtain ⟨stem', number, hlt, hx⟩ := h.numbered x hx
      exact ⟨stem', number, by omega, hx⟩
    · exact ⟨stem, c.issued.length, by omega, rfl⟩

theorem Orderly.closeInnermost (h : c.Orderly) : c.closeInnermost.Orderly := by
  have hdepth := h.depth
  have hnumbered := h.numbered
  unfold Context.closeInnermost
  split
  · exact h
  · rename_i l outer hopened
    rw [hopened] at hdepth
    refine ⟨?_, fun x hx => hnumbered x ?_⟩
    · change outer.length = c.session.frames.tail.length
      simp only [List.length_cons, List.length_tail] at hdepth ⊢
      omega
    · -- what the layer declared is retired now
      change x ∈ (c.retired ++ l.symbols) ++ (outer ++ [c.base]).flatMap Layer.symbols at hx
      simp only [known, layers, hopened, List.cons_append, List.flatMap_cons,
        List.mem_append] at hx ⊢
      rcases hx with (hx | hx) | hx
      · exact Or.inl hx
      · exact Or.inr (Or.inl hx)
      · exact Or.inr (Or.inr hx)

theorem Orderly.closeMany (n : Nat) : ∀ {c : Context}, c.Orderly → (closeMany n c).Orderly := by
  induction n with
  | zero =>
      intro c h
      exact h
  | succ n ih =>
      intro c h
      exact ih h.closeInnermost

/-- A query changes nothing but the records of a state. -/
theorem checkRefuted_eq (c : Context) (name rule claim : String) :
    ∃ session ledger log, (c.checkRefuted name rule claim).2 = { c with session, ledger, log } ∧
      session.base = c.session.base ∧ session.frames = c.session.frames := by
  unfold Context.checkRefuted Session.check
  split <;> rename_i hcheck <;> split at hcheck <;> cases hcheck
  · exact ⟨_, _, _, rfl, rfl, rfl⟩
  · exact ⟨_, _, _, rfl, rfl, rfl⟩

/-- Operations keep states orderly. -/
theorem Moves.orderly (hmove : Moves c c') (h : c.Orderly) : c'.Orderly := by
  cases hmove with
  | push name => exact h.push name
  | pop hpop =>
      rw [(Proof.eq_of_pop hpop).2]
      exact h.closeInnermost
  | unwind layer =>
      unfold Context.unwind
      split
      · exact h
      · exact h.closeMany _
  | declare stem kind => exact h.declare stem kind
  | assume hassume =>
      rw [Proof.eq_of_assume hassume]
      exact h.assertInside _
  | assumeFact hassume =>
      rw [Proof.eq_of_assumeFact hassume]
      exact (h.assertInside _).updateFacts fun _ => rfl
  | commit hcommit =>
      obtain ⟨hopened, -, -, rfl⟩ := Proof.inv_of_commit hcommit
      refine h.congr rfl (c.session.length_frames_add _) ?_ rfl
      simp [logged, known, layers, hopened, Layer.register]
  | check name rule claim =>
      obtain ⟨session, ledger, log, hsame, -, hframes⟩ := c.checkRefuted_eq name rule claim
      rw [hsame]
      exact h.congr rfl (congrArg List.length hframes) rfl rfl
  | setOutcome layer v => exact h.congr rfl rfl rfl rfl
  | log level source message => exact h.congr rfl rfl rfl rfl

/-- **Reachable states are orderly.** -/
theorem Reachable.orderly (h : c.Reachable) : c.Orderly := by
  induction h with
  | start options replies =>
      refine ⟨rfl, fun x hx => ?_⟩
      simp [Context.start, known, layers, Layer.bottom] at hx
  | move _ hmove ih => exact hmove.orderly ih

end Orderly

/-! ### The view of a state -/

/-- The view that a state shows. -/
def view (c : Context) : View where
  facts := c.base.facts
  committed := c.committed
  base := c.session.base
  frames := c.session.frames
  issued := c.issued.length

theorem Reachable.shows {c : Context} (h : c.Reachable) : c.Shows c.view :=
  ⟨rfl, rfl, rfl, rfl, h.orderly.depth, rfl⟩

end Context

/-! ### Proofs go by operations -/

namespace Proof

variable {α β : Type}

/-- A proof stays among reachable states, whether it returns or fails. -/
def Keeps (p : ProofM α) : Prop :=
  ∀ c : Context, c.Reachable → (outcome p c).2.Reachable

/-- **A proof goes by operations**, whether it returns or fails. -/
def Operates (p : ProofM α) : Prop :=
  ∀ c : Context, c.Leads (outcome p c).2

/-- A proof that goes by operations stays among reachable states. -/
theorem Operates.keeps {p : ProofM α} (h : Operates p) : Keeps p :=
  fun c hc => hc.leads (h c)

theorem operates_pure (a : α) : Operates (pure a) :=
  fun c => .refl c

theorem Operates.bind {p : ProofM α} {f : α → ProofM β} (hp : Operates p)
    (hf : ∀ a, Operates (f a)) : Operates (p >>= f) := by
  intro c
  have hfirst := hp c
  rw [outcome_bind]
  generalize outcome p c = r at hfirst
  obtain ⟨r, c₁⟩ := r
  cases r with
  | error e => exact hfirst
  | ok a => exact hfirst.trans (hf a c₁)

theorem operates_change {f : Context → Except Failure (α × Context)}
    (h : ∀ c a c', f c = .ok (a, c') → c.Leads c') : Operates (change f) := by
  intro c
  rw [outcome_change]
  cases hf : f c with
  | error e => exact .refl c
  | ok r => exact h c r.1 r.2 hf

theorem operates_require (r : Except Failure α) : Operates (require r) := by
  refine operates_change fun c a c' hf => ?_
  cases r <;> cases hf
  exact .refl c

theorem operates_look (f : Context → α) : Operates (look f) := by
  refine operates_change fun c a c' hf => ?_
  cases hf
  exact .refl c

theorem operates_fail (e : Failure) : Operates (fail e : ProofM α) :=
  operates_require _

/-- A change of the state that returns nothing. -/
theorem operates_changeUnit {f : Context → Except Failure Context}
    (h : ∀ c c', f c = .ok c' → Context.Moves c c') :
    Operates (change fun c => (f c).map ((), ·)) := by
  refine operates_change fun c a c' hf => ?_
  cases hfc : f c with
  | error e =>
      rw [hfc] at hf
      cases hf
  | ok c'' =>
      rw [hfc] at hf
      cases hf
      exact .of_moves (h c c' hfc)

theorem operates_declare (stem : String) (kind : Kind) : Operates (declare stem kind) := by
  refine operates_change fun c a c' hf => ?_
  cases hf
  exact .of_moves (.declare c stem kind)

theorem operates_assume (f : Formula) (label : String) : Operates (assume f label) :=
  operates_changeUnit fun _ _ h => .assume h

theorem operates_assumeHints (formulas : List Formula) (label : String) :
    Operates (assumeHints formulas label) := by
  induction formulas with
  | nil => exact operates_pure ()
  | cons f rest ih =>
      exact .bind (operates_changeUnit fun _ _ h => .assume h) fun _ => ih

theorem operates_assumeFact (f : Fact) : Operates (assumeFact f) :=
  operates_changeUnit fun _ _ h => .assumeFact h

theorem operates_conclude (f : Fact) : Operates (conclude f) :=
  operates_changeUnit fun _ _ h => Context.moves_of_conclude h

theorem operates_push (name : String) : Operates (push name) := by
  refine operates_change fun c a c' hf => ?_
  cases hf
  exact .of_moves (.push c name)

theorem operates_checkRefuted (name rule claim : String) :
    Operates (checkRefuted name rule claim) :=
  fun c => .of_moves (.check c name rule claim)

/-- **A part of a proof inside a layer** goes by operations if it does so on its own. -/
theorem operates_scope {name : String} {body : Layer → ProofM α}
    (hbody : ∀ layer, Operates (body layer)) : Operates (scope name body) := by
  refine (operates_push name).bind fun layer => .bind ?_ fun a => .bind ?_ fun _ => operates_pure a
  · intro c
    have hinside := hbody layer c
    rw [outcome_tryCatch]
    generalize outcome (body layer) c = r at hinside
    obtain ⟨r, c₁⟩ := r
    cases r with
    | ok a => exact hinside
    | error e =>
        -- the layer and whatever is open inside it are closed, and the failure goes on
        refine hinside.trans (Operates.bind (p := unwind layer) ?_ (fun _ => operates_fail e) c₁)
        refine operates_change fun c a c' hf => ?_
        cases hf
        exact .of_moves (.unwind c layer)
  · exact operates_change fun c _ c' hf => .of_moves (.pop hf)

/-- What comes after a failure is not run. -/
theorem operates_fail_bind {e : Failure} {f : α → ProofM β} : Operates (fail e >>= f) := by
  intro c
  rw [outcome_bind, fail, require, outcome_change]
  exact .refl c

theorem operates_discharge (g : Goal) (hints : List Formula) : Operates (discharge g hints) := by
  unfold discharge
  refine (operates_look _).bind fun current => ?_
  split
  · -- the layer of the goal is not the innermost one
    exact operates_fail_bind
  dsimp only
  refine (operates_require _).bind fun body => (operates_require _).bind fun fails => ?_
  refine (operates_assume _ _).bind fun _ => (operates_assumeHints _ _).bind fun _ => ?_
  refine (operates_require _).bind fun claim => (operates_checkRefuted _ _ _).bind fun verdict => ?_
  refine Operates.bind ?_ fun _ => operates_pure _
  refine operates_change fun c a c' hf => ?_
  cases hf
  exact .of_moves (.setOutcome c g.layer verdict)

/-! ### Claims -/

theorem operates_declares (vars : List Symbol) :
    Operates (vars.mapM fun s => declare s.name s.kind) := by
  induction vars with
  | nil => exact operates_pure []
  | cons s rest ih =>
      rw [List.mapM_cons]
      exact (operates_declare _ _).bind fun w => ih.bind fun ws => operates_pure _

theorem operates_assumeGuard (claim : Fact) (ws : List Symbol) :
    Operates (assumeGuard claim ws) := by
  unfold assumeGuard
  split
  · exact operates_pure ()
  · exact (operates_require _).bind fun guard => operates_assume _ _

theorem operates_refutation {claim : Fact} {rule : String} {body : Goal → ProofM Unit}
    (hbody : ∀ g, Operates (body g)) (layer : Layer) :
    Operates (refutation claim rule body layer) := by
  refine (operates_declares _).bind fun ws => (operates_assumeGuard claim ws).bind fun _ =>
    (hbody _).bind fun _ => (operates_look _).bind fun verdict => ?_
  split
  · exact operates_fail _
  · exact operates_pure _

theorem operates_proving {claim : Fact} {rule : String} {concluding : Bool}
    {body : Goal → ProofM Unit} (hbody : ∀ g, Operates (body g)) :
    Operates (proving claim rule concluding body) := by
  refine (operates_scope (operates_refutation hbody)).bind fun r => ?_
  obtain ⟨layer, verdict⟩ := r
  simp only
  split
  · exact operates_fail_bind
  · split
    · exact operates_conclude claim
    · exact operates_pure ()

theorem operates_fact (name : String) : Operates (fact name) := by
  refine operates_change fun c f c' h => ?_
  cases hfact : c.fact name with
  | error e =>
      rw [hfact] at h
      cases h
  | ok g =>
      rw [hfact] at h
      cases h
      exact .refl c

/-- **Going by operations is closed.** -/
theorem closed_operates : Closed Operates fun _ p => Operates p where
  pure := operates_pure
  bind hp hf := hp.bind hf
  require := operates_require
  layer := operates_look _
  fact := operates_fact
  declare := operates_declare
  assume := operates_assume
  assumeFact := operates_assumeFact
  conclude := operates_conclude
  scope := operates_scope
  prepare hp hf := hp.bind hf
  discharge g hints := (operates_discharge g hints).bind fun _ => operates_pure ()
  proving := operates_proving

end Proof

end CandyCircle
