/-
**What refuting a claim asks.**

Establishing a claim asks one query about it: whether the active assertions have a model in which
its guard holds of fresh constants and its body fails of them, with whatever the body of the proof
assumes in between and with its hints.  A proof that returns has had that query refuted.

Main definitions:

* `CandyCircle.freshSymbols`, `CandyCircle.Fact.witnesses` — fresh constants in place of variables;
* `CandyCircle.Fact.guardAssertions`, `CandyCircle.Fact.denial`, `CandyCircle.Fact.hintAssertions` —
  the assertions that refute a claim;
* `CandyCircle.View.guard`, `CandyCircle.View.body` — guard and body of a claim for the constants of
  its query;
* `CandyCircle.View.refutes` — **the query that refutes a claim**;
* `CandyCircle.Proof.Discharges` — a proof ends by asking the query of a goal.

Main results:

* `CandyCircle.Proof.discharges_refutes` — what discharging a goal asks;
* `CandyCircle.Proof.runs_proving`, `CandyCircle.Proof.runs_prove` — **what establishing a claim
  asks**.
-/
import CandyCircle.Proofs.Refutation.Asking

set_option autoImplicit false

namespace CandyCircle

open Logic

/-! ### The query of a claim -/

/-- Fresh constants in place of symbols, from a number on. -/
def freshSymbols : List Symbol → Nat → List Symbol
  | [], _ => []
  | s :: rest, n => ⟨Context.freshName s.name n, s.kind⟩ :: freshSymbols rest (n + 1)

namespace Fact

/-- Fresh constants in place of the variables of a fact, from a number on. -/
def witnesses (f : Fact) (n : Nat) : List Symbol :=
  freshSymbols f.vars n

/-- The assertion that the guard of a claim holds of its witnesses, unless it says nothing. -/
def guardAssertions (f : Fact) (ws : List Symbol) : List Assertion :=
  if f.vars.isEmpty && Formula.isTrue f.guard then []
  else [{ formula := f.guardFor (ws.map Symbol.any), label := f.name ++ " guard" }]

/-- The assertion that the body of a claim fails of its witnesses. -/
def denial (f : Fact) (ws : List Symbol) : Assertion :=
  { formula := .not (f.bodyFor (ws.map Symbol.any)), label := "not " ++ f.name }

/-- The hints for a claim as assertions. -/
def hintAssertions (f : Fact) (hints : List Formula) : List Assertion :=
  hints.map fun h => { formula := h, label := f.name ++ " hint", hint := true }

end Fact

namespace View

/-- The guard of a claim for the constants of its query. -/
def guard (V : View) (claim : Fact) : Formula :=
  claim.guardFor ((claim.witnesses V.issued).map Symbol.any)

/-- The body of a claim for the constants of its query. -/
def body (V : View) (claim : Fact) : Formula :=
  claim.bodyFor ((claim.witnesses V.issued).map Symbol.any)

/-- **The query that refutes a claim**, with what is assumed after its guard and with its hints. -/
def refutes (V : View) (claim : Fact) (extra : List Assertion) (hints : List Formula) : Query :=
  let ws := claim.witnesses V.issued
  (claim.name, V.question (claim.guardAssertions ws ++ extra ++
    (claim.denial ws :: claim.hintAssertions hints)))

/-- The view in which the refutation of a claim begins: a layer with witnesses and the guard. -/
def refuting (V : View) (claim : Fact) : View :=
  { V with
    frames := claim.guardAssertions (claim.witnesses V.issued) :: V.frames
    issued := V.issued + claim.vars.length }

theorem question_add {V : View} (hV : V.frames ≠ []) (as bs : List Assertion) :
    (V.add as).question bs = V.question (as ++ bs) := by
  obtain ⟨top, outer, hframes⟩ := List.exists_cons_of_ne_nil hV
  simp [add, question, hframes]

theorem question_refuting (V : View) (claim : Fact) (as : List Assertion) :
    (V.refuting claim).question as =
      V.question (claim.guardAssertions (claim.witnesses V.issued) ++ as) := by
  simp [refuting, question]

theorem question_declare (V : View) (n : Nat) (as : List Assertion) :
    (V.declare n).question as = V.question as := rfl

/-- The view in which a claim is refuted, once some constants more were declared. -/
def refuted (V : View) (claim : Fact) (extra : List Assertion) (hints : List Formula) (n : Nat) :
    View :=
  (((V.refuting claim).add extra).declare n).add
    (claim.denial (claim.witnesses V.issued) :: claim.hintAssertions hints)

theorem pop_refuted (V : View) (claim : Fact) (extra : List Assertion) (hints : List Formula)
    (n : Nat) : (V.refuted claim extra hints n).pop = V.declare (claim.vars.length + n) := by
  simp [refuted, refuting, add, declare, pop, Nat.add_assoc]

end View

namespace Proof

variable {α : Type} {V V₁ V₂ : View} {l : List Query} {x : Query}

/-! ### Discharging a goal -/

/-- From whatever shows a view, a proof asks some queries that have to be refuted, and last the
query of a goal, whose verdict it records. -/
def Discharges (p : ProofM Unit) (layer : Layer) (V : View) (l : List Query) (x : Query)
    (V' : View) : Prop :=
  ∀ c, c.Shows V → Asks p c (l ++ [x]) fun _ xs c' => ∃ ys y, xs = ys ++ [y] ∧
    (∀ y' ∈ ys, y'.Refuted) ∧ c'.outcome? layer = some y.entry.verdict ∧ c'.Shows V'

/-- What is done before a goal is discharged. -/
theorem Discharges.after (l₁ l₂ : List Query) {p : ProofM α} {f : α → ProofM Unit} {layer : Layer}
    {Q : α → View → Prop} (hp : Runs p V l₁ Q)
    (hf : ∀ a V₁, Q a V₁ → V.SameBase V₁ ∧ Discharges (f a) layer V₁ l₂ x V₂) :
    Discharges (p >>= f) layer V (l₁ ++ l₂) x V₂ := by
  intro c hc
  rw [List.append_assoc]
  refine .bind l₁ (l₂ ++ [x]) (hp c hc) fun a xs c₁ hc₁ => ?_
  obtain ⟨href, V₁, hV₁, hQ⟩ := hc₁
  obtain ⟨hbase, hf⟩ := hf a V₁ hQ
  refine ⟨hc.sameBase hV₁ hbase, (hf c₁ hV₁).mono fun u zs c' hc' => ?_⟩
  obtain ⟨ys, y, rfl, href', hout, hV'⟩ := hc'
  refine ⟨xs ++ ys, y, (List.append_assoc xs ys [y]).symm, fun y' hy' => ?_, hout, hV'⟩
  rcases List.mem_append.1 hy' with hy' | hy'
  · exact href y' hy'
  · exact href' y' hy'

/-- What is done before a goal is discharged, if nothing is asked meanwhile. -/
theorem Discharges.next {p : ProofM α} {f : α → ProofM Unit} {layer : Layer}
    {Q : α → View → Prop} (hp : Runs p V [] Q)
    (hf : ∀ a V₁, Q a V₁ → V.SameBase V₁ ∧ Discharges (f a) layer V₁ l x V₂) :
    Discharges (p >>= f) layer V l x V₂ :=
  .after [] l hp hf

/-- A query that is answered. -/
theorem outcome_checkRefuted {c : Context} (hc : c.Shows V) {r : Reply}
    (hreply : c.session.reply = .ok r) (name rule claim : String) :
    ∃ y c', outcome (checkRefuted name rule claim) c = (.ok y.entry.verdict, c') ∧
      c.Heard c' [y] ∧ y.query = (name, V.question []) ∧ y.answer = r.answer ∧ c'.Shows V := by
  have hquestion : c.session.question = V.question [] := by
    simp [Session.question, View.question, hc.base, hc.frames]
  have hout : outcome (checkRefuted name rule claim) c = c.checkRefuted name rule claim := rfl
  rw [hout, Context.checkRefuted, Session.check, hreply]
  refine ⟨⟨c.obligation name rule claim (.ofAnswer r.answer) _, c.session.question, r.answer⟩, _,
    rfl, ⟨rfl, ?_, List.forall_mem_singleton.2 rfl⟩, ?_, rfl, ?_⟩
  · simp [Context.logged, Session.answered, Session.asked, Session.note]
  · rw [Exchange.query, hquestion]
    rfl
  · exact ⟨hc.facts, hc.committed, hc.base, hc.frames, hc.depth, hc.issued⟩

/-- A query, with its verdict. -/
theorem asks_checkRefuted {c : Context} (hc : c.Shows V) (name rule claim : String) :
    Asks (checkRefuted name rule claim) c [(name, V.question [])] fun v xs c' =>
      ∃ y, xs = [y] ∧ v = y.entry.verdict ∧ c'.Shows V := by
  unfold Asks
  cases hreply : c.session.reply with
  | error fault =>
      have hout : outcome (checkRefuted name rule claim) c = c.checkRefuted name rule claim := rfl
      rw [hout, Context.checkRefuted, Session.check, hreply]
      exact ⟨⟨[], .of_eq rfl rfl, List.nil_prefix⟩, ⟨rfl, rfl, rfl⟩⟩
  | ok r =>
      obtain ⟨y, c', hout, hheard, hquery, _, hshows⟩ :=
        outcome_checkRefuted hc hreply name rule claim
      rw [hout]
      exact ⟨[y], hheard, congrArg (fun q => [q]) hquery, y, rfl, rfl, hshows⟩

/-- What comes after a failure is not run. -/
theorem asks_fail {β : Type} {c : Context} {e : Failure} {f : α → ProofM β} {l : List Query}
    {Q : β → List Exchange → Context → Prop} : Asks (fail e >>= f) c l Q := by
  have hfail : outcome (fail e : ProofM α) c = (.error e, c) := by
    rw [fail, require, outcome_change]
    rfl
  have hout : outcome (fail e >>= f) c = (.error e, c) := by
    rw [outcome_bind, hfail]
  exact .of_error hout

/-- A negation that is not refused is that of its formula. -/
theorem eq_not_of_negation {p e : Formula} (h : Formula.negation p = .ok e) : e = .not p := by
  unfold Formula.negation Formula.proper at h
  split at h
  · cases h
  · cases h
    rfl

/-- **Discharging a goal** asks the query of the goal with its hints. -/
theorem discharges_discharge (hV : V.frames ≠ []) (g : Goal) (hints : List Formula) :
    Discharges (discharge g hints >>= fun _ => pure ()) g.layer V []
      (g.claim.name, V.question (g.claim.denial g.witnesses :: g.claim.hintAssertions hints))
      (V.add (g.claim.denial g.witnesses :: g.claim.hintAssertions hints)) := by
  unfold discharge
  simp only [bind_assoc]
  refine .next (runs_look _) fun current V₁ h₁ => ?_
  subst h₁
  refine ⟨.refl V₁, ?_⟩
  split
  · -- the layer of the goal is not the innermost one
    intro c _
    simp only [bind_assoc]
    exact asks_fail
  simp only [bind_assoc, pure_bind]
  refine .next (runs_require _) fun body V₂ h₂ => ?_
  obtain ⟨hbody, rfl⟩ := h₂
  refine ⟨.refl V₂, .next (runs_require _) fun fails V₃ h₃ => ?_⟩
  obtain ⟨hfails, rfl⟩ := h₃
  have hdenial : ({ formula := fails, label := "not " ++ g.claim.name } : Assertion) =
      g.claim.denial g.witnesses := by
    rw [Fact.denial, eq_not_of_negation (ok_of_mapError hfails),
      Fact.eq_bodyFor (ok_of_mapError hbody)]
  refine ⟨.refl V₃, .next (runs_assume hV _ _) fun _ V₄ h₄ => ?_⟩
  rw [hdenial] at h₄
  subst h₄
  have hV₄ := frames_add_ne_nil hV [g.claim.denial g.witnesses]
  refine ⟨sameBase_add _, .next (runs_assumeHints _ _ hV₄) fun _ V₅ h₅ => ?_⟩
  rw [add_add] at h₅
  subst h₅
  refine ⟨sameBase_add_append _ _, .next (runs_require _) fun claim V₆ h₆ => ?_⟩
  obtain ⟨_, rfl⟩ := h₆
  refine ⟨.refl _, fun c hc => ?_⟩
  -- denial and hints are asserted, so the query is about what is active now
  have hquestion := View.question_add hV
    (g.claim.denial g.witnesses :: g.claim.hintAssertions hints) []
  rw [List.append_nil] at hquestion
  rw [← hquestion]
  refine Asks.bind _ [] (asks_checkRefuted hc _ _ _) fun verdict xs c₁ hc₁ => ?_
  obtain ⟨y, rfl, rfl, hshows⟩ := hc₁
  refine ⟨hc.sameBase hshows (.refl _), ?_⟩
  have hout : outcome (change (fun c => .ok ((), c.setOutcome g.layer y.entry.verdict)) >>=
      fun _ => (pure () : ProofM Unit)) c₁ = (.ok (), c₁.setOutcome g.layer y.entry.verdict) := by
    rw [outcome_bind, outcome_change]
    rfl
  refine .of_ok hout (.of_eq rfl rfl) ⟨[], y, rfl, by simp, ?_, ?_⟩
  · simp [Context.setOutcome, Context.outcome?]
  · exact ⟨hshows.facts, hshows.committed, hshows.base, hshows.frames, hshows.depth,
      hshows.issued⟩

/-! ### Establishing a claim -/

/-- Fresh constants for all variables. -/
theorem runs_declares (vars : List Symbol) : ∀ {V : View},
    Runs (vars.mapM fun s => declare s.name s.kind) V [] fun ws V' =>
      ws = freshSymbols vars V.issued ∧ V' = V.declare vars.length := by
  induction vars with
  | nil =>
      intro V
      exact runs_pure []
  | cons s rest ih =>
      intro V
      rw [List.mapM_cons]
      refine (runs_declare s.name s.kind).next fun w V₁ h₁ => ?_
      obtain ⟨rfl, rfl⟩ := h₁
      refine ⟨⟨rfl, rfl, rfl⟩, ih.next fun ws V₂ h₂ => ?_⟩
      obtain ⟨rfl, rfl⟩ := h₂
      refine ⟨⟨rfl, rfl, rfl⟩, (runs_pure _).mono fun ws V₃ h₃ => ?_⟩
      obtain ⟨rfl, rfl⟩ := h₃
      refine ⟨rfl, ?_⟩
      simp [View.declare, Nat.add_assoc, Nat.add_comm 1]

/-- Adding no assertions changes nothing. -/
theorem add_nil (hV : V.frames ≠ []) : V.add [] = V := by
  obtain ⟨top, outer, hframes⟩ := List.exists_cons_of_ne_nil hV
  cases V
  simp_all [View.add]

theorem runs_assumeGuard (hV : V.frames ≠ []) (claim : Fact) (ws : List Symbol) :
    Runs (assumeGuard claim ws) V [] fun _ V' => V' = V.add (claim.guardAssertions ws) := by
  unfold assumeGuard Fact.guardAssertions
  split
  · refine (runs_pure ()).mono fun _ V' h => ?_
    rw [h.2, add_nil hV]
  · refine (runs_require _).next fun guard V₁ h₁ => ?_
    obtain ⟨hguard, rfl⟩ := h₁
    rw [Fact.eq_guardFor (ok_of_mapError hguard)]
    exact ⟨.refl _, runs_assume hV _ _⟩

/-- What is done inside the layer of a claim, up to its discharge. -/
theorem discharges_body {claim : Fact} {rule : String} {body : Goal → ProofM Unit} {layer : Layer}
    (hbody : Discharges (body { claim, rule, witnesses := claim.witnesses V.issued, layer }) layer
      (V.refuting claim) l x V₂) :
    Discharges (do
      let witnesses ← claim.vars.mapM fun s => declare s.name s.kind
      assumeGuard claim witnesses
      body { claim, rule, witnesses, layer }) layer V.push l x V₂ := by
  refine .next (runs_declares claim.vars) fun ws V₁ h₁ => ?_
  obtain ⟨rfl, rfl⟩ := h₁
  refine ⟨⟨rfl, rfl, rfl⟩,
    .next (runs_assumeGuard (List.cons_ne_nil _ _) claim _) fun _ V₃ h₃ => ?_⟩
  subst h₃
  exact ⟨sameBase_add _, hbody⟩

/-- What establishing a claim asks inside its layer. -/
theorem asks_refutation {claim : Fact} {rule : String} {body : Goal → ProofM Unit} {layer : Layer}
    (hbody : Discharges (body { claim, rule, witnesses := claim.witnesses V.issued, layer }) layer
      (V.refuting claim) l x V₂)
    (hbase : V.SameBase V₂) {c : Context} (hc : c.Shows V.push) :
    Asks (refutation claim rule body layer) c (l ++ [x]) fun r xs c' => ∃ ys y, xs = ys ++ [y] ∧
      (∀ y' ∈ ys, y'.Refuted) ∧ r.2 = y.entry.verdict ∧ c'.Shows V₂ := by
  -- the body apart from the look at its verdict
  unfold refutation
  simp only [← bind_assoc]
  rw [bind_assoc, ← List.append_nil (l ++ [x])]
  refine .bind _ [] (discharges_body hbody c hc) fun _ xs c₁ hc₁ => ?_
  obtain ⟨ys, y, rfl, href, hverdict, hshows⟩ := hc₁
  refine ⟨hc.sameBase hshows hbase, ?_⟩
  refine .of_ok (a := (layer, y.entry.verdict)) ?_ (.refl c₁) ⟨ys, y, by simp, href, rfl, hshows⟩
  rw [outcome_bind, look, outcome_change]
  simp only [hverdict]
  rfl

/-- A fact concluded if asked for. -/
theorem runs_concluding (f : Fact) (concluding : Bool) :
    Runs (if concluding then conclude f else pure ()) V [] fun _ V' =>
      V' = if concluding then V.conclude f else V := by
  cases concluding with
  | false => exact (runs_pure ()).mono fun _ V' h => h.2
  | true => exact runs_conclude f

/-- Discharging the goal of a claim asks the query that refutes it. -/
theorem discharges_refutes {layer : Layer} (claim : Fact) (rule : String) (extra : List Assertion)
    (hs : List Formula) (n : Nat) :
    Discharges
      (discharge { claim, rule, witnesses := claim.witnesses V.issued, layer } hs >>=
        fun _ => pure ())
      layer (((V.refuting claim).add extra).declare n) [] (V.refutes claim extra hs)
      (V.refuted claim extra hs n) := by
  have hx : V.refutes claim extra hs = (claim.name,
      (((V.refuting claim).add extra).declare n).question
        (claim.denial (claim.witnesses V.issued) :: claim.hintAssertions hs)) := by
    rw [View.question_declare, View.question_add (List.cons_ne_nil _ _), View.question_refuting,
      View.refutes, List.append_assoc]
  rw [hx]
  have hV : (((V.refuting claim).add extra).declare n).frames ≠ [] :=
    frames_add_ne_nil (List.cons_ne_nil _ _) extra
  exact discharges_discharge hV { claim, rule, witnesses := claim.witnesses V.issued, layer } hs

section Claims

variable {claim : Fact} {rule : String} {concluding : Bool} {body : Goal → ProofM Unit}
  {extra : List Assertion} {hs : List Formula} {n : Nat}

/-- What is asked in the layer of a claim: what its body asks, and last the query of the claim. -/
theorem asks_claim
    (hbody : ∀ layer, Discharges
      (body { claim, rule, witnesses := claim.witnesses V.issued, layer }) layer
      (V.refuting claim) l (V.refutes claim extra hs) (V.refuted claim extra hs n))
    {c : Context} (hc : c.Shows V) :
    Asks (scope claim.name (refutation claim rule body)) c (l ++ [V.refutes claim extra hs])
      fun r xs c' => ∃ ys y, xs = ys ++ [y] ∧ (∀ y' ∈ ys, y'.Refuted) ∧
        r.2 = y.entry.verdict ∧ c'.Shows (V.declare (claim.vars.length + n)) := by
  have hbase : V.SameBase (V.refuted claim extra hs n) := ⟨rfl, rfl, rfl⟩
  refine asks_scope (asks_refutation (hbody _) hbase (shows_push hc claim.name))
    fun r xs c₁ h => ?_
  obtain ⟨ys, y, hxs, href, hverdict, hshows⟩ := h
  refine ⟨hc.sameBase hshows hbase, fun hne => ⟨ys, y, hxs, href, hverdict, ?_⟩⟩
  rw [← View.pop_refuted V claim extra hs n]
  exact shows_closeInnermost hshows hne

/-- What comes after the layer of a claim: the claim is concluded if asked for, provided that its
query was refuted. -/
def judging (claim : Fact) (rule : String) (concluding : Bool) : Layer × Verdict → ProofM Unit
  | (layer, verdict) => do
      if !verdict.refuted then
        fail (.notRefuted claim.name verdict rule layer.depth)
      if concluding then conclude claim

theorem proving_eq : proving claim rule concluding body =
    scope claim.name (refutation claim rule body) >>= judging claim rule concluding := rfl

/-- After the layer of a claim nothing is asked. -/
theorem asks_judging (claim : Fact) (rule : String) (concluding : Bool) {c : Context}
    (hc : c.Shows V) (r : Layer × Verdict) :
    Asks (judging claim rule concluding r) c [] fun _ xs c' => r.2 = .unsat ∧
      (∀ x ∈ xs, x.Refuted) ∧ c'.Shows (if concluding then V.conclude claim else V) := by
  obtain ⟨layer, verdict⟩ := r
  cases verdict with
  | sat | unknown => exact asks_fail
  | unsat =>
      refine (runs_concluding claim concluding c hc).mono fun _ xs c' hc' => ?_
      obtain ⟨href, V', hshows, rfl⟩ := hc'
      exact ⟨rfl, href, hshows⟩

/-- **What establishing a claim asks**: what its body asks, and last the query of the claim. -/
theorem runs_proving
    (hbody : ∀ layer, Discharges
      (body { claim, rule, witnesses := claim.witnesses V.issued, layer }) layer
      (V.refuting claim) l (V.refutes claim extra hs) (V.refuted claim extra hs n)) :
    Runs (proving claim rule concluding body) V (l ++ [V.refutes claim extra hs]) fun _ V' =>
      V' = if concluding then (V.declare (claim.vars.length + n)).conclude claim
        else V.declare (claim.vars.length + n) := by
  intro c hc
  rw [proving_eq, ← List.append_nil (l ++ _)]
  refine .bind _ [] (asks_claim hbody hc) fun r xs c₁ h => ?_
  obtain ⟨ys, y, rfl, href, hverdict, hshows⟩ := h
  refine ⟨hc.sameBase hshows ⟨rfl, rfl, rfl⟩,
    (asks_judging claim rule concluding hshows r).mono fun _ zs c' hc' => ?_⟩
  obtain ⟨hunsat, href', hshows'⟩ := hc'
  refine ⟨fun z hz => ?_, _, hshows', rfl⟩
  rcases List.mem_append.1 hz with hz | hz
  · rcases List.mem_append.1 hz with hz | hz
    · exact href z hz
    · rw [List.mem_singleton.1 hz]
      exact hverdict.symm.trans hunsat
  · exact href' z hz

end Claims

/-- **What establishing a claim by a single query asks.** -/
theorem runs_prove {claim : Fact} {rule : String} {hints : HintsT Id} {concluding : Bool}
    {extra : List Assertion} {hs : List Formula} {n : Nat}
    (hhints : Runs (hints (claim.witnesses V.issued)) (V.refuting claim) [] fun hs' V' =>
      hs' = hs ∧ V' = ((V.refuting claim).add extra).declare n) :
    Runs (prove claim rule hints concluding) V [V.refutes claim extra hs] fun _ V' =>
      V' = if concluding then (V.declare (claim.vars.length + n)).conclude claim
        else V.declare (claim.vars.length + n) := by
  refine runs_proving (l := []) fun layer => .next hhints fun hs' V₁ h₁ => ?_
  obtain ⟨rfl, rfl⟩ := h₁
  exact ⟨sameBase_add extra, discharges_refutes claim rule extra hs' n⟩

/-- What establishing a claim by a single query asks, if nothing but hints is added. -/
theorem runs_prove_plain {claim : Fact} {rule : String} {hints : HintsT Id} {concluding : Bool}
    {hs : List Formula}
    (hhints : Runs (hints (claim.witnesses V.issued)) (V.refuting claim) [] fun hs' V' =>
      hs' = hs ∧ V' = V.refuting claim) :
    Runs (prove claim rule hints concluding) V [V.refutes claim [] hs] fun _ V' =>
      V' = if concluding then (V.declare claim.vars.length).conclude claim
        else V.declare claim.vars.length := by
  have hadd : ((V.refuting claim).add []).declare 0 = V.refuting claim := by
    rw [add_nil (List.cons_ne_nil _ _)]
    rfl
  exact runs_prove (n := 0) (hhints.mono fun hs' V' h => by rwa [hadd])

end Proof

end CandyCircle
