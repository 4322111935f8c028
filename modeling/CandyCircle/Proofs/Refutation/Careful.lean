/-
**Proofs that mention no constant too early.**

A constant exists once it was declared.  If the formulas that are given to a proof mention no
constant that is still to be declared, then neither does what the proof asserts with them, because
it puts constants in place of variables only after it declared them.  So whatever a proof does, and
wherever it fails, no constant leaves its layer.

Main definitions:

* `CandyCircle.Context.Careful` — what is active mentions no constant that is still to be declared,
  and never did when one was declared;
* `CandyCircle.Proof.Minds` — a proof stays among careful states.

Main results:

* `CandyCircle.Proof.minds_scope`, `CandyCircle.Proof.minds_declareStep`,
  `CandyCircle.Proof.minds_assumeStep`, `CandyCircle.Proof.minds_discharge`,
  `CandyCircle.Proof.minds_proving`, `CandyCircle.Proof.minds_prove` — **proofs stay among careful
  states**;
* `CandyCircle.Proof.Minds.sealed` — wherever such a proof ends, no constant has left its layer.
-/
import CandyCircle.Proofs.Refutation.Confined

set_option autoImplicit false

namespace CandyCircle

open Logic

theorem Logic.Predates.mono {n m : Nat} {shape : Shape} {e : Expr shape} (h : Predates n e)
    (hm : n ≤ m) : Predates m e :=
  fun s hs hfresh => h s hs (hfresh.mono hm)

namespace Fact

variable {f : Fact} {n : Nat}

theorem predates_formula (hguard : Predates n f.guard) (hbody : Predates n f.body) :
    Predates n f.formula := by
  intro s hs
  rcases List.mem_append.1 (mem_constants_formula hs) with hs | hs
  · exact hguard s hs
  · exact hbody s hs

/-- A part of a claim for constants that were declared. -/
theorem predates_bind {e : Formula} {ws : List Symbol} (he : Predates n e)
    (hws : ∀ w ∈ ws, ¬ Fresh n w) : Predates n (e.substitute (f.bind (ws.map Symbol.any))) := by
  intro s hs
  rcases mem_constants_bind hs with hs | hs
  · exact he s hs
  · exact hws s hs

end Fact

namespace Context

variable {c c' : Context}

/-- What is active mentions no constant that is still to be declared, and never did when one was
declared. -/
structure Careful (c : Context) : Prop where
  timely : c.Timely
  active : ∀ f ∈ c.session.active, Predates c.issued.length f

theorem careful_start (options : Settings.Options) (replies : List Prepared) :
    (start options replies).Careful :=
  ⟨.start options replies, fun _ hf => absurd hf List.not_mem_nil⟩

theorem issued_closeInnermost (c : Context) : c.closeInnermost.issued = c.issued := by
  unfold closeInnermost
  split <;> rfl

theorem issued_closeMany (n : Nat) : ∀ c : Context, (closeMany n c).issued = c.issued := by
  induction n with
  | zero => exact fun _ => rfl
  | succ n ih => exact fun c => (ih _).trans c.issued_closeInnermost

theorem issued_unwind (c : Context) (layer : Layer) : (c.unwind layer).issued = c.issued := by
  unfold unwind
  split
  · rfl
  · exact issued_closeMany _ c

theorem issued_checkRefuted (c : Context) (name rule claim : String) :
    (c.checkRefuted name rule claim).2.issued = c.issued := by
  obtain ⟨session, ledger, log, hsame, -⟩ := c.checkRefuted_eq name rule claim
  rw [hsame]

/-- Constants are given out by their declaration only. -/
theorem Moves.issued (h : Moves c c') :
    c'.issued = c.issued ∨ ∃ stem kind, c' = (c.declare stem kind).2 := by
  cases h with
  | push name => exact .inl rfl
  | pop hpop =>
      rw [(Proof.eq_of_pop hpop).2]
      exact .inl c.issued_closeInnermost
  | unwind layer => exact .inl (c.issued_unwind layer)
  | declare stem kind => exact .inr ⟨stem, kind, rfl⟩
  | assume hassume =>
      rw [Proof.eq_of_assume hassume]
      exact .inl (issued_updateCurrent _ _)
  | assumeFact hassume =>
      rw [Proof.eq_of_assumeFact hassume]
      exact .inl ((issued_updateCurrent _ _).trans (issued_updateCurrent _ _))
  | commit hcommit =>
      obtain ⟨-, -, -, rfl⟩ := Proof.inv_of_commit hcommit
      exact .inl rfl
  | check name rule claim => exact .inl (c.issued_checkRefuted name rule claim)
  | setOutcome layer v => exact .inl rfl
  | log level source message => exact .inl rfl

/-- An operation is timely if what is active was careful before. -/
theorem Careful.move (h : c.Careful) (hmove : Moves c c')
    (hactive : ∀ f ∈ c'.session.active, Predates c'.issued.length f) : c'.Careful := by
  refine ⟨h.timely.move hmove fun name hname hnew f hf hmentioned => ?_, hactive⟩
  obtain ⟨s, hs, rfl⟩ := mem_names_iff.1 hmentioned
  rcases hmove.issued with hissued | ⟨stem, kind, rfl⟩
  · rw [given, hissued] at hname
    exact hnew hname
  · have hlast : s.name ∈ c.given ++ [freshName stem c.issued.length] := by
      simpa [Context.declare, given] using hname
    rcases List.mem_append.1 hlast with hlast | hlast
    · exact hnew hlast
    · exact h.active f hf s hs ⟨stem, _, Nat.le_refl _, List.mem_singleton.1 hlast⟩

/-- An operation that neither asserts nor declares anything. -/
theorem Careful.quiet (h : c.Careful) (hmove : Moves c c') (hissued : c'.issued = c.issued)
    (hactive : ∀ f ∈ c'.session.active, f ∈ c.session.active) : c'.Careful := by
  refine h.move hmove fun f hf => ?_
  rw [hissued]
  exact h.active f (hactive f hf)

/-- An operation that asserts a formula. -/
theorem Careful.asserting (h : c.Careful) {e : Formula} (hmove : Moves c c')
    (hissued : c'.issued = c.issued) (hactive : c'.session.active = c.session.active ++ [e])
    (he : Predates c.issued.length e) : c'.Careful := by
  refine h.move hmove ?_
  rw [hissued, hactive]
  exact List.forall_mem_append.2 ⟨h.active, List.forall_mem_singleton.2 he⟩

theorem mem_active_closeInnermost {f : Formula} (hf : f ∈ c.closeInnermost.session.active) :
    f ∈ c.session.active := by
  unfold closeInnermost at hf
  split at hf
  · exact hf
  · obtain ⟨a, ha, rfl⟩ := List.mem_map.1 hf
    refine List.mem_map.2 ⟨a, ?_, rfl⟩
    simp only [Session.question, List.mem_append, List.mem_flatten, List.mem_reverse] at ha ⊢
    rcases ha with ha | ⟨frame, hframe, ha⟩
    · exact .inl ha
    · exact .inr ⟨frame, List.mem_of_mem_tail hframe, ha⟩

theorem mem_active_closeMany {f : Formula} (n : Nat) : ∀ {c : Context},
    f ∈ (closeMany n c).session.active → f ∈ c.session.active := by
  induction n with
  | zero => exact fun hf => hf
  | succ n ih => exact fun hf => mem_active_closeInnermost (ih hf)

theorem Careful.pop (h : c.Careful) {expected : Option Layer} {layer : Layer}
    (hpop : c.pop expected = .ok (layer, c')) : c'.Careful ∧ c'.issued = c.issued := by
  have heq := (Proof.eq_of_pop hpop).2
  have hissued : c'.issued = c.issued := heq ▸ c.issued_closeInnermost
  refine ⟨h.quiet (.pop hpop) hissued fun f hf => ?_, hissued⟩
  rw [heq] at hf
  exact mem_active_closeInnermost hf

theorem Careful.unwind (h : c.Careful) (layer : Layer) : (c.unwind layer).Careful := by
  refine h.quiet (.unwind c layer) (c.issued_unwind layer) fun f hf => ?_
  unfold Context.unwind at hf
  split at hf
  · exact hf
  · exact mem_active_closeMany _ hf

theorem active_assertInside (c : Context) (a : Assertion) :
    (c.assertInside a).session.active = c.session.active ++ [a.formula] := by
  rw [assertInside, session_updateCurrent]
  exact c.session.active_add a

theorem Careful.assume (h : c.Careful) {a : Assertion} (hassume : c.assume a = .ok c')
    (ha : Predates c.issued.length a.formula) : c'.Careful ∧ c'.issued = c.issued := by
  have heq := Proof.eq_of_assume hassume
  have hissued : c'.issued = c.issued := heq ▸ issued_updateCurrent _ _
  refine ⟨h.asserting (.assume hassume) hissued ?_ ha, hissued⟩
  rw [heq, active_assertInside]

theorem Careful.assumeFact (h : c.Careful) {f : Fact} (hassume : c.assumeFact f = .ok c')
    (hf : Predates c.issued.length f.formula) : c'.Careful ∧ c'.issued = c.issued := by
  have heq := Proof.eq_of_assumeFact hassume
  have hissued : c'.issued = c.issued :=
    heq ▸ (issued_updateCurrent _ _).trans (issued_updateCurrent _ _)
  refine ⟨h.asserting (.assumeFact hassume) hissued ?_ hf, hissued⟩
  rw [heq, session_updateCurrent, active_assertInside]
  rfl

theorem Careful.commit (h : c.Careful) {f : Fact} (hcommit : c.commit f = .ok c')
    (hf : Predates c.issued.length f.formula) : c'.Careful ∧ c'.issued = c.issued := by
  obtain ⟨-, -, -, heq⟩ := Proof.inv_of_commit hcommit
  have hissued : c'.issued = c.issued := heq ▸ rfl
  refine ⟨h.asserting (.commit hcommit) hissued ?_ hf, hissued⟩
  rw [heq]
  exact c.session.active_add f.assertion

theorem Careful.conclude (h : c.Careful) {f : Fact} (hconclude : c.conclude f = .ok c')
    (hf : Predates c.issued.length f.formula) : c'.Careful ∧ c'.issued = c.issued := by
  unfold Context.conclude at hconclude
  split at hconclude
  · exact h.commit hconclude hf
  · exact h.assumeFact hconclude hf

theorem Careful.declare (h : c.Careful) (stem : String) (kind : Kind) :
    (c.declare stem kind).2.Careful := by
  refine h.move (.declare c stem kind) fun f hf => ?_
  have hsession : (c.declare stem kind).2.session = c.session := session_updateCurrent _ _
  rw [hsession] at hf
  exact (h.active f hf).mono (by simp [Context.declare])

theorem Careful.checkRefuted (h : c.Careful) (name rule claim : String) :
    (c.checkRefuted name rule claim).2.Careful := by
  refine h.quiet (.check c name rule claim) (c.issued_checkRefuted name rule claim) fun f hf => ?_
  have hactive : (c.checkRefuted name rule claim).2.session.active = c.session.active := by
    have hcheck := c.session.active_check
    unfold Context.checkRefuted
    split <;> rename_i heq <;> rw [heq] at hcheck
    · exact hcheck
    · exact hcheck
  rwa [hactive] at hf

end Context

/-! ### Proofs among careful states -/

namespace Proof

variable {α β : Type} {n : Nat} {c : Context}

/-- A proof stays among careful states once a number of constants has been declared, and what it
returns may depend on how many were declared meanwhile. -/
def Minds (n : Nat) (p : ProofM α) (Q : Nat → α → Prop) : Prop :=
  ∀ c : Context, c.Careful → n ≤ c.issued.length →
    (outcome p c).2.Careful ∧ c.issued.length ≤ (outcome p c).2.issued.length ∧
      ∀ a, (outcome p c).1 = .ok a → Q (outcome p c).2.issued.length a

theorem Minds.mono {p : ProofM α} {Q Q' : Nat → α → Prop} (h : Minds n p Q)
    (hQ : ∀ m a, n ≤ m → Q m a → Q' m a) : Minds n p Q' := by
  intro c hc hn
  obtain ⟨hcareful, hm, ha⟩ := h c hc hn
  exact ⟨hcareful, hm, fun a hreturns => hQ _ a (Nat.le_trans hn hm) (ha a hreturns)⟩

theorem Minds.weaken {m : Nat} {p : ProofM α} {Q : Nat → α → Prop} (h : Minds n p Q)
    (hm : n ≤ m) : Minds m p Q :=
  fun c hc hn => h c hc (Nat.le_trans hm hn)

theorem minds_pure {Q : Nat → α → Prop} {a : α} (ha : ∀ m, n ≤ m → Q m a) :
    Minds n (pure a) Q := by
  intro c hc hn
  refine ⟨hc, Nat.le_refl _, fun b hb => ?_⟩
  cases hb
  exact ha _ hn

theorem Minds.bind {p : ProofM α} {f : α → ProofM β} {Q : Nat → α → Prop} {R : Nat → β → Prop}
    (hp : Minds n p Q) (hf : ∀ m a, n ≤ m → Q m a → Minds m (f a) R) : Minds n (p >>= f) R := by
  intro c hc hn
  obtain ⟨hcareful, hm, ha⟩ := hp c hc hn
  rw [outcome_bind]
  generalize outcome p c = r at hcareful hm ha
  obtain ⟨r, c₁⟩ := r
  cases r with
  | error e => exact ⟨hcareful, hm, fun b hb => by cases hb⟩
  | ok a =>
      obtain ⟨hcareful', hm', hb⟩ :=
        hf _ a (Nat.le_trans hn hm) (ha a rfl) c₁ hcareful (Nat.le_refl _)
      exact ⟨hcareful', Nat.le_trans hm hm', hb⟩

theorem minds_change {f : Context → Except Failure (α × Context)} {Q : Nat → α → Prop}
    (h : ∀ c a c', c.Careful → n ≤ c.issued.length → f c = .ok (a, c') →
      c'.Careful ∧ c.issued.length ≤ c'.issued.length ∧ Q c'.issued.length a) :
    Minds n (change f) Q := by
  intro c hc hn
  rw [outcome_change]
  cases hf : f c with
  | error e => exact ⟨hc, Nat.le_refl _, fun a ha => by cases ha⟩
  | ok r =>
      obtain ⟨hcareful, hm, ha⟩ := h c r.1 r.2 hc hn hf
      refine ⟨hcareful, hm, fun a hreturns => ?_⟩
      cases hreturns
      exact ha

theorem minds_require {r : Except Failure α} {Q : α → Prop} (h : ∀ a, r = .ok a → Q a) :
    Minds n (require r) fun _ a => Q a := by
  refine minds_change fun c a c' hc hn hf => ?_
  cases hr : r with
  | error e =>
      rw [hr] at hf
      cases hf
  | ok b =>
      rw [hr] at hf
      cases hf
      exact ⟨hc, Nat.le_refl _, h a hr⟩

theorem minds_look (f : Context → α) : Minds n (look f) fun _ _ => True := by
  refine minds_change fun c a c' hc hn hf => ?_
  cases hf
  exact ⟨hc, Nat.le_refl _, trivial⟩

theorem minds_fail {Q : Nat → α → Prop} (e : Failure) : Minds n (fail e : ProofM α) Q :=
  minds_change fun _ _ _ _ _ hf => by cases hf

/-- A change of the state that declares and returns nothing. -/
theorem minds_changeUnit {f : Context → Except Failure Context}
    (h : ∀ c c', c.Careful → n ≤ c.issued.length → f c = .ok c' →
      c'.Careful ∧ c'.issued = c.issued) :
    Minds n (change fun c => (f c).map ((), ·)) fun _ _ => True := by
  refine minds_change fun c a c' hc hn hf => ?_
  cases hfc : f c with
  | error e =>
      rw [hfc] at hf
      cases hf
  | ok c'' =>
      rw [hfc] at hf
      cases hf
      obtain ⟨hcareful, hissued⟩ := h c c' hc hn hfc
      exact ⟨hcareful, Nat.le_of_eq (congrArg List.length hissued.symm), trivial⟩

theorem minds_assume {f : Formula} (hf : Predates n f) (label : String) :
    Minds n (assume f label) fun _ _ => True :=
  minds_changeUnit fun _ _ hc hn h => hc.assume h (hf.mono hn)

theorem minds_assumeHints {formulas : List Formula} (h : ∀ f ∈ formulas, Predates n f)
    (label : String) : Minds n (assumeHints formulas label) fun _ _ => True := by
  induction formulas generalizing n with
  | nil => exact minds_pure fun _ _ => trivial
  | cons f rest ih =>
      obtain ⟨hf, hrest⟩ := List.forall_mem_cons.1 h
      refine Minds.bind (Q := fun _ _ => True) ?_ fun m _ hm _ =>
        ih fun f' hf' => (hrest f' hf').mono hm
      exact minds_changeUnit fun _ _ hc hn h => hc.assume h (hf.mono hn)

theorem minds_conclude {f : Fact} (hf : Predates n f.formula) :
    Minds n (conclude f) fun _ _ => True :=
  minds_changeUnit fun _ _ hc hn h => hc.conclude h (hf.mono hn)

theorem minds_declare (stem : String) (kind : Kind) :
    Minds n (declare stem kind) fun m s => ¬ Fresh m s := by
  refine minds_change fun c a c' hc hn hf => ?_
  have hissued : (c.declare stem kind).2.issued.length = c.issued.length + 1 := by
    simp [Context.declare]
  have heq : c.declare stem kind = (a, c') := Except.ok.inj hf
  obtain rfl : (c.declare stem kind).2 = c' := congrArg Prod.snd heq
  obtain rfl : (c.declare stem kind).1 = a := congrArg Prod.fst heq
  refine ⟨hc.declare stem kind, by omega, ?_⟩
  rw [hissued]
  exact not_fresh_of_lt (Nat.lt_succ_self _) stem kind

theorem minds_declares (vars : List Symbol) :
    Minds n (vars.mapM fun s => declare s.name s.kind) fun m ws => ∀ w ∈ ws, ¬ Fresh m w := by
  induction vars generalizing n with
  | nil => exact minds_pure fun _ _ _ hw => absurd hw List.not_mem_nil
  | cons s rest ih =>
      rw [List.mapM_cons]
      refine (minds_declare s.name s.kind).bind fun m w _ hw => ih.bind fun m' ws hm hws =>
        minds_pure fun k hk => ?_
      refine List.forall_mem_cons.2 ⟨fun h => hw (h.mono (Nat.le_trans hm hk)), fun w' hw' h => ?_⟩
      exact hws w' hw' (h.mono hk)

/-- **A part of a proof inside a layer**, whether it returns or fails. -/
theorem minds_scope {name : String} {body : Layer → ProofM α}
    (hbody : ∀ layer, Minds n (body layer) fun _ _ => True) :
    Minds n (scope name body) fun _ _ => True := by
  refine Minds.bind (Q := fun _ _ => True) ?_ fun m layer hm _ =>
    Minds.bind (Q := fun _ _ => True) ?_ fun m' a hm' _ =>
      Minds.bind (Q := fun _ _ => True) ?_ fun _ _ _ _ => minds_pure fun _ _ => trivial
  · refine minds_change fun c a c' hc hn hf => ?_
    cases hf
    refine ⟨hc.quiet (.push c name) rfl fun f hf => ?_, Nat.le_refl _, trivial⟩
    exact c.session.active_push ▸ hf
  · intro c hc hn
    obtain ⟨hcareful, hlater, -⟩ := hbody layer c hc (Nat.le_trans hm hn)
    rw [outcome_tryCatch]
    generalize outcome (body layer) c = r at hcareful hlater
    obtain ⟨r, c₁⟩ := r
    cases r with
    | ok a => exact ⟨hcareful, hlater, fun _ _ => trivial⟩
    | error e =>
        -- the layer and whatever is open inside it are closed, and the failure goes on
        have hunwind : Minds m (unwind layer >>= fun _ => (fail e : ProofM α))
            fun _ _ => True := by
          refine Minds.bind (Q := fun _ _ => True) ?_ fun _ _ _ _ => minds_fail e
          refine minds_change fun c a c' hc hn hf => ?_
          cases hf
          refine ⟨hc.unwind layer, Nat.le_of_eq ?_, trivial⟩
          exact congrArg List.length (c.issued_unwind layer).symm
        obtain ⟨hcareful', hlater', hreturns⟩ := hunwind c₁ hcareful (Nat.le_trans hn hlater)
        exact ⟨hcareful', Nat.le_trans hlater hlater', hreturns⟩
  · refine minds_change fun c a c' hc hn hf => ?_
    obtain ⟨hcareful, hissued⟩ := hc.pop hf
    exact ⟨hcareful, Nat.le_of_eq (congrArg List.length hissued.symm), trivial⟩

/-- **A symbolic step and its successor**, which are declared. -/
theorem minds_declareStep (name : String) :
    Minds n (declareStep name) fun m step =>
      Predates m step.k.toInt ∧ Predates m step.next.toInt := by
  refine (minds_declare name .int).bind fun m k hm hk => (minds_declare _ .int).bind fun m' next hm'
    hnext => (minds_look _).bind fun m'' layer hm'' _ => minds_pure fun l hl => ?_
  have hkind : ∀ (m : Nat) (s : Symbol), ¬ Fresh m s → ¬ Fresh m (.int s.name) :=
    fun _ _ hs h => hs h
  refine ⟨List.forall_mem_singleton.2 fun h => hkind m k hk (h.mono (by omega)),
    List.forall_mem_singleton.2 fun h => hkind m' next hnext (h.mono (by omega))⟩

/-- What is assumed of them, above a bound from before. -/
theorem minds_assumeStep {step : Step} {lower : AnyTerm} (hk : Predates n step.k.toInt)
    (hnext : Predates n step.next.toInt) (hlower : Predates n lower.toInt) (name : String) :
    Minds n (assumeStep step lower name) fun _ _ => True := by
  refine (minds_assume (fun s hs => ?_) _).bind fun m _ hm _ =>
    minds_assume (Predates.mono (fun s hs => ?_) hm) _
  · rcases mem_constants_compare.1 hs with hs | hs
    · exact hk s hs
    · exact hlower s hs
  · rcases List.mem_append.1 hs with hs | hs
    · exact hnext s hs
    · exact hk s (by simpa [Term.succ, Term.plus, Expr.constants] using hs)

theorem minds_fail_bind {e : Failure} {f : α → ProofM β} {Q : Nat → β → Prop} :
    Minds n (fail e >>= f) Q :=
  (minds_fail (Q := fun _ _ => False) e).bind fun _ _ _ h => h.elim

/-- **The query of a goal** whose witnesses were declared, with hints. -/
theorem minds_discharge {g : Goal} {hints : List Formula} (hbody : Predates n g.claim.body)
    (hws : ∀ w ∈ g.witnesses, ¬ Fresh n w) (hhints : ∀ e ∈ hints, Predates n e) :
    Minds n (discharge g hints) fun _ _ => True := by
  unfold discharge
  refine (minds_look _).bind fun m₁ current hm₁ _ => ?_
  split
  · -- the layer of the goal is not the innermost one
    exact minds_fail_bind
  dsimp only
  refine (minds_require (Q := Predates n) fun e he => ?_).bind fun m₂ body hm₂ hpredates =>
    (minds_require (Q := Predates n) fun e he => ?_).bind fun m₃ fails hm₃ hfails =>
      (minds_assume (hfails.mono ?_) _).bind fun m₄ _ hm₄ _ =>
        (minds_assumeHints (fun e he => (hhints e he).mono ?_) _).bind fun m₅ _ _ _ =>
          (minds_require (Q := fun _ => True) fun _ _ => trivial).bind fun m₆ _ _ _ => ?_
  · rw [Fact.eq_bodyFor (ok_of_mapError he)]
    exact Fact.predates_bind hbody hws
  · rw [eq_not_of_negation (ok_of_mapError he)]
    exact hpredates
  · omega
  · omega
  · refine Minds.bind (Q := fun _ _ => True) ?_ fun _ _ _ _ =>
      Minds.bind (Q := fun _ _ => True) ?_ fun _ _ _ _ => minds_pure fun _ _ => trivial
    · exact fun c hc _ => ⟨hc.checkRefuted _ _ _,
        Nat.le_of_eq (congrArg List.length (c.issued_checkRefuted _ _ _).symm), fun _ _ => trivial⟩
    · refine minds_change fun c a c' hc hn hf => ?_
      cases hf
      exact ⟨hc.quiet (.setOutcome c g.layer _) rfl fun _ hf => hf, Nat.le_refl _, trivial⟩

/-! ### Claims -/

theorem minds_assumeGuard {claim : Fact} {ws : List Symbol} (hguard : Predates n claim.guard)
    (hws : ∀ w ∈ ws, ¬ Fresh n w) : Minds n (assumeGuard claim ws) fun _ _ => True := by
  unfold assumeGuard
  split
  · exact minds_pure fun _ _ => trivial
  · refine (minds_require (Q := Predates n) fun e he => ?_).bind fun m guard hm hpredates =>
      minds_assume (hpredates.mono hm) _
    rw [Fact.eq_guardFor (ok_of_mapError he)]
    exact Fact.predates_bind hguard hws

theorem minds_refutation {claim : Fact} {rule : String} {body : Goal → ProofM Unit}
    (hguard : Predates n claim.guard)
    (hbody : ∀ (m : Nat) (g : Goal), n ≤ m → g.claim = claim → (∀ w ∈ g.witnesses, ¬ Fresh m w) →
      Minds m (body g) fun _ _ => True) (layer : Layer) :
    Minds n (refutation claim rule body layer) fun _ _ => True := by
  refine (minds_declares _).bind fun m ws hm hws =>
    (minds_assumeGuard (hguard.mono hm) hws).bind fun m' _ hm' _ =>
      ((hbody m _ hm rfl hws).weaken hm').bind fun _ _ _ _ =>
        (minds_look _).bind fun _ verdict _ _ => ?_
  split
  · exact minds_fail _
  · exact minds_pure fun _ _ => trivial

/-- **Establishing a claim** from before, whose body may run proofs of its own. -/
theorem minds_proving {claim : Fact} {rule : String} {concluding : Bool}
    {body : Goal → ProofM Unit} (hguard : Predates n claim.guard) (hclaim : Predates n claim.body)
    (hbody : ∀ (m : Nat) (g : Goal), n ≤ m → g.claim = claim → (∀ w ∈ g.witnesses, ¬ Fresh m w) →
      Minds m (body g) fun _ _ => True) :
    Minds n (proving claim rule concluding body) fun _ _ => True := by
  refine (minds_scope (minds_refutation hguard hbody)).bind fun m r hm _ => ?_
  obtain ⟨layer, verdict⟩ := r
  simp only
  split
  · exact minds_fail_bind
  · split
    · exact minds_conclude ((Fact.predates_formula hguard hclaim).mono hm)
    · exact minds_pure fun _ _ => trivial

/-- **Establishing a claim** from before by a single query, with hints from before. -/
theorem minds_prove {claim : Fact} {rule : String} {concluding : Bool} {hints : HintsT Id}
    (hguard : Predates n claim.guard) (hclaim : Predates n claim.body)
    (hhints : ∀ (m : Nat) (ws : List Symbol), n ≤ m → (∀ w ∈ ws, ¬ Fresh m w) →
      Minds m (hints ws) fun k hs => ∀ e ∈ hs, Predates k e) :
    Minds n (prove claim rule hints concluding) fun _ _ => True := by
  refine minds_proving hguard hclaim fun m g hm hg hws =>
    (hhints m _ hm hws).bind fun k hs hk hpredates =>
      (minds_discharge ?_ (fun w hw h => hws w hw (h.mono hk)) hpredates).bind fun _ _ _ _ =>
        minds_pure fun _ _ => trivial
  rw [hg]
  exact hclaim.mono (Nat.le_trans hm hk)

/-- **Wherever such a proof ends**, whether it returns or fails, no constant has left its layer. -/
theorem Minds.sealed {p : ProofM α} {Q : Nat → α → Prop} (h : Minds n p Q) (hc : c.Careful)
    (hn : n ≤ c.issued.length) : (outcome p c).2.Sealed :=
  (h c hc hn).1.timely.tight.sealed

end Proof

end CandyCircle
