/-
**Goals are discharged.**

While the layer of a goal is open anything may be done: other claims are established, formulas are
assumed, the goal is discharged again and again, or where that is refused, and layers are left open.
Such a course comes with the verdicts of the discharges that were completed.  Each of them took
place while the layer of the goal was the innermost one, and the last of them is the verdict on the
goal.

Main definitions:

* `CandyCircle.Proof.Course` — **what is done about a goal**, with the verdicts of the discharges
  that were completed;
* `CandyCircle.Context.Regular` — the states that a run can reach in which verdicts on goals come
  from discharges;
* `CandyCircle.Proof.Proceeds` — a part of a proof is a course.

Main results:

* `CandyCircle.Proof.outcome_discharge` — what a discharge comes to;
* `CandyCircle.Proof.Course.outcome?`, `CandyCircle.Proof.Course.exists_last` — **the verdict on a
  goal is that of the last completed discharge**, and when that took place;
* `CandyCircle.Proof.closed_proceeds` — **proceeding with a goal is closed**: whatever proofs are
  put together from is a course.
-/
import CandyCircle.Proofs.Refutation.Releasing

set_option autoImplicit false

namespace CandyCircle

open Logic

/-! ### Verdicts on goals -/

namespace Context

variable {c c' : Context}

theorem outcomes_updateCurrent (c : Context) (f : Layer → Layer) :
    (c.updateCurrent f).outcomes = c.outcomes := by
  unfold updateCurrent
  split <;> rfl

/-- Declaring and assuming record no verdict, and open no layer. -/
theorem Adds.recorded (h : c.Adds c') : c'.outcomes = c.outcomes ∧ c'.openings = c.openings := by
  cases h with
  | declare stem kind => exact ⟨c.outcomes_updateCurrent _, (c.alters_declare stem kind).openings⟩
  | assume hassume =>
      rw [Proof.eq_of_assume hassume]
      exact ⟨outcomes_updateCurrent _ _, (c.alters_assertInside _).openings⟩
  | @assumeFact _ f hassume =>
      rw [Proof.eq_of_assumeFact hassume]
      have hregister := (c.assertInside f.assertion).alters_updateCurrent
        (f := fun l => l.register f) (fun _ => rfl) (fun _ => rfl) fun _ => rfl
      exact ⟨(outcomes_updateCurrent _ _).trans (outcomes_updateCurrent _ _),
        hregister.openings.trans (c.alters_assertInside _).openings⟩

theorem outcome?_congr (h : c'.outcomes = c.outcomes) (layer : Layer) :
    c'.outcome? layer = c.outcome? layer := by
  rw [outcome?, h, outcome?]

theorem outcomes_closeInnermost (c : Context) : c.closeInnermost.outcomes = c.outcomes := by
  unfold closeInnermost
  split <;> rfl

theorem outcomes_closeMany (n : Nat) : ∀ c : Context, (closeMany n c).outcomes = c.outcomes := by
  induction n with
  | zero => exact fun _ => rfl
  | succ n ih => exact fun c => (ih _).trans c.outcomes_closeInnermost

theorem outcomes_unwind (c : Context) (layer : Layer) :
    (c.unwind layer).outcomes = c.outcomes := by
  obtain ⟨n, hn⟩ := c.exists_unwind_eq layer
  rw [hn, outcomes_closeMany]

end Context

namespace Proof

variable {α β : Type} {c c' c'' : Context} {g : Goal} {vs : List Verdict}

/-- A proof records no verdict on a goal. -/
def Silent (p : ProofM α) : Prop :=
  ∀ c : Context, (outcome p c).2.outcomes = c.outcomes

theorem Silent.bind {p : ProofM α} {f : α → ProofM β} (hp : Silent p) (hf : ∀ a, Silent (f a)) :
    Silent (p >>= f) := by
  intro c
  have hfirst := hp c
  rw [outcome_bind]
  generalize outcome p c = r at hfirst
  obtain ⟨r, c₁⟩ := r
  cases r with
  | error e => exact hfirst
  | ok a => exact (hf a c₁).trans hfirst

theorem Still.silent {p : ProofM α} (h : Still p) : Silent p :=
  fun c => by rw [h c]

theorem Builds.silent {p : ProofM α} (h : Builds p) : Silent p := by
  intro c
  have hrecorded {c' : Context} (hadds : Relation.ReflTransGen Context.Adds c c') :
      c'.outcomes = c.outcomes := by
    induction hadds with
    | refl => rfl
    | tail _ hstep ih => exact hstep.recorded.1.trans ih
  exact hrecorded (h c)

theorem silent_checkRefuted (name rule claim : String) :
    Silent (checkRefuted name rule claim) := by
  intro c
  obtain ⟨session, ledger, log, hsame, -, -⟩ := c.checkRefuted_eq name rule claim
  exact (congrArg Context.outcomes hsame :)

/-- The part of a discharge after which its verdict is recorded. -/
def querying (g : Goal) (hints : List Formula) : ProofM Verdict := do
  let body ← require ((g.claim.bodyAt (g.witnesses.map Symbol.any)).mapError .fact)
  let fails ← require ((Formula.negation body).mapError fun fault => .fact (.form fault))
  assume fails ("not " ++ g.claim.name)
  assumeHints hints (g.claim.name ++ " hint")
  let claim ← require (g.claim.display?.mapError .fact)
  checkRefuted g.claim.name g.rule claim

theorem silent_querying (g : Goal) (hints : List Formula) : Silent (querying g hints) :=
  (still_require _).silent.bind fun _ => (still_require _).silent.bind fun _ =>
    (builds_assume _ _).silent.bind fun _ => (builds_assumeHints _ _).silent.bind fun _ =>
    (still_require _).silent.bind fun _ => silent_checkRefuted _ _ _

/-- **A discharge** is refused unless the layer of the goal is the innermost one, and records its
verdict if it is completed. -/
theorem outcome_discharge (g : Goal) (hints : List Formula) (c : Context) :
    outcome (discharge g hints) c =
      if c.current.serial = g.layer.serial then
        match outcome (querying g hints) c with
        | (.ok v, c') => (.ok v, c'.setOutcome g.layer v)
        | (.error e, c') => (.error e, c')
      else (.error (.scope (.dischargedInside g.claim.name c.current.name)), c) := by
  rw [discharge, outcome_bind, look, outcome_change]
  dsimp only
  by_cases hinnermost : c.current.serial = g.layer.serial
  · rw [if_neg (not_not_intro hinnermost), if_pos hinnermost]
    have hparts : outcome (querying g hints >>= fun v =>
        (change fun c => .ok ((), c.setOutcome g.layer v)) >>= fun _ => pure v) c =
        match outcome (querying g hints) c with
        | (.ok v, c') => (.ok v, c'.setOutcome g.layer v)
        | (.error e, c') => (.error e, c') := by
      rw [outcome_bind]
      rcases outcome (querying g hints) c with ⟨r, c₁⟩
      cases r <;> rfl
    rw [← hparts, querying]
    simp only [bind_assoc]
  · rw [if_pos hinnermost, if_neg hinnermost, outcome_bind, fail, require, outcome_change]
    rfl

/-- What a completed discharge has done. -/
theorem recorded_of_discharge {hints : List Formula} {v : Verdict}
    (h : outcome (discharge g hints) c = (.ok v, c')) :
    c.current.serial = g.layer.serial ∧ c'.outcomes = (g.layer.serial, v) :: c.outcomes := by
  have hsilent := silent_querying g hints c
  rw [outcome_discharge] at h
  split at h
  · rename_i hinnermost
    refine ⟨hinnermost, ?_⟩
    generalize outcome (querying g hints) c = r at h hsilent
    obtain ⟨r, c₁⟩ := r
    cases r with
    | error e => cases h
    | ok v' =>
        cases h
        exact congrArg ((g.layer.serial, v) :: ·) hsilent
  · cases h

/-- A discharge that is refused records nothing. -/
theorem recorded_of_refused {hints : List Formula} {e : Failure}
    (h : outcome (discharge g hints) c = (.error e, c')) : c'.outcomes = c.outcomes := by
  have hsilent := silent_querying g hints c
  rw [outcome_discharge] at h
  split at h
  · generalize outcome (querying g hints) c = r at h hsilent
    obtain ⟨r, c₁⟩ := r
    cases r with
    | ok v' => cases h
    | error e' =>
        cases h
        exact hsilent
  · cases h
    rfl

/-! ### What is done about a goal -/

/-- **What is done about a goal** between two states: operations that record no verdict, discharges
of the goal, of which those that are completed come with their verdicts, and discharges of goals of
other layers. -/
inductive Course (g : Goal) (c : Context) : List Verdict → Context → Prop where
  | refl : Course g c [] c
  | move {c' c'' : Context} {vs : List Verdict} (h : Course g c vs c')
      (hmove : Context.Moves c' c'') (hsilent : c''.outcomes = c'.outcomes) : Course g c vs c''
  | discharge {c' : Context} {vs : List Verdict} (h : Course g c vs c') (hints : List Formula) :
      Course g c (vs ++ (outcome (discharge g hints) c').1.toOption.toList)
        (outcome (discharge g hints) c').2
  | other {c' : Context} {vs : List Verdict} (h : Course g c vs c') {g' : Goal}
      (hother : g'.layer.serial ≠ g.layer.serial) (hints : List Formula) :
      Course g c vs (outcome (discharge g' hints) c').2

theorem Course.trans {vs vs' : List Verdict} (h : Course g c vs c') (h' : Course g c' vs' c'') :
    Course g c (vs ++ vs') c'' := by
  induction h' with
  | refl => rwa [List.append_nil]
  | move _ hmove hsilent ih => exact ih.move hmove hsilent
  | discharge _ hints ih =>
      rw [← List.append_assoc]
      exact ih.discharge hints
  | other _ hother hints ih => exact ih.other hother hints

theorem Course.leads (h : Course g c vs c') : c.Leads c' := by
  induction h with
  | refl => exact .refl _
  | move _ hmove _ ih => exact ih.trans (.of_moves hmove)
  | discharge _ hints ih => exact ih.trans (operates_discharge g hints _)
  | @other _ _ _ g' _ hints ih => exact ih.trans (operates_discharge g' hints _)

/-- **The verdict on a goal is that of the last completed discharge.** -/
theorem Course.outcome? (h : Course g c vs c') :
    c'.outcome? g.layer = vs.getLast?.or (c.outcome? g.layer) := by
  induction h with
  | refl => rfl
  | move _ _ hsilent ih =>
      rw [← ih, Context.outcome?_congr hsilent]
  | @discharge c' vs h hints ih =>
      cases hout : Proof.outcome (Proof.discharge g hints) c' with
      | mk r c'' =>
          cases r with
          | error e =>
              rw [Context.outcome?_congr (recorded_of_refused hout)]
              simpa [Except.toOption] using ih
          | ok v =>
              -- what is recorded last is found first
              rw [Context.outcome?, (recorded_of_discharge hout).2]
              simp [Except.toOption]
  | @other c' vs h g' hother hints ih =>
      cases hout : Proof.outcome (Proof.discharge g' hints) c' with
      | mk r c'' =>
          rw [← ih]
          cases r with
          | error e =>
              rw [Context.outcome?_congr (recorded_of_refused hout)]
          | ok v =>
              -- the verdict is recorded for another layer
              rw [Context.outcome?, (recorded_of_discharge hout).2, List.find?_cons_of_neg]
              · rfl
              · simpa using hother

/-- **The last completed discharge** took place while the layer of the goal was the innermost
one. -/
theorem Course.exists_last {v : Verdict} (h : Course g c vs c') (hv : vs.getLast? = some v) :
    ∃ vs₀ c₀ hints c₁, Course g c vs₀ c₀ ∧ c₀.current.serial = g.layer.serial ∧
      outcome (Proof.discharge g hints) c₀ = (.ok v, c₁) ∧ Course g c₁ [] c' := by
  induction h with
  | refl => cases hv
  | move _ hmove hsilent ih =>
      obtain ⟨vs₀, c₀, hints, c₁, hbefore, hinnermost, hout, hafter⟩ := ih hv
      exact ⟨vs₀, c₀, hints, c₁, hbefore, hinnermost, hout, hafter.move hmove hsilent⟩
  | @discharge c' vs h hints ih =>
      cases hout : outcome (Proof.discharge g hints) c' with
      | mk r c'' =>
          rw [hout] at hv
          cases r with
          | error e =>
              obtain ⟨vs₀, c₀, hints₀, c₁, hbefore, hinnermost, hout₀, hafter⟩ :=
                ih (by simpa [Except.toOption] using hv)
              have hrefused := hafter.discharge hints
              rw [hout] at hrefused
              exact ⟨vs₀, c₀, hints₀, c₁, hbefore, hinnermost, hout₀, hrefused⟩
          | ok v' =>
              obtain rfl : v' = v := by simpa [Except.toOption] using hv
              exact ⟨vs, c', hints, c'', h, (recorded_of_discharge hout).1, hout, .refl⟩
  | other _ hother hints ih =>
      obtain ⟨vs₀, c₀, hints₀, c₁, hbefore, hinnermost, hout, hafter⟩ := ih hv
      exact ⟨vs₀, c₀, hints₀, c₁, hbefore, hinnermost, hout, hafter.other hother hints⟩

end Proof

/-! ### Regular states -/

namespace Context

variable {c c' : Context} {layer : Layer}

/-- A layer is the innermost one. -/
def Innermost (c : Context) (layer : Layer) : Prop :=
  ∃ l outer, c.opened = l :: outer ∧ l.serial = layer.serial

/-- A layer that is expected to be the innermost one is closed just if it is. -/
theorem exists_pop_iff : (∃ l, c.pop (some layer) = .ok (l, c')) ↔
    c.Innermost layer ∧ c' = c.closeInnermost := by
  unfold pop Innermost
  cases c.opened with
  | nil => simp
  | cons l outer =>
      by_cases hserial : layer.serial = l.serial
      · simp [hserial, eq_comm]
      · simp [hserial, Ne.symm hserial]

/-- **The states that a run can reach** in which verdicts on goals come from discharges. -/
inductive Regular : Context → Prop where
  | start (options : Settings.Options) (replies : List Prepared) : Regular (start options replies)
  | move {c c' : Context} (h : Regular c) (hmove : Moves c c')
      (hsilent : c'.outcomes = c.outcomes) : Regular c'
  | discharge {c : Context} (h : Regular c) (g : Goal) (hints : List Formula) :
      Regular (Proof.outcome (Proof.discharge g hints) c).2

theorem Regular.reachable (h : c.Regular) : c.Reachable := by
  induction h with
  | start options replies => exact .start options replies
  | move _ hmove _ ih => exact ih.move hmove
  | discharge _ g hints ih => exact ih.leads (Proof.operates_discharge g hints _)

/-- An operation records one verdict at most. -/
theorem Moves.outcomes (h : Moves c c') :
    c'.outcomes = c.outcomes ∨ ∃ o, c'.outcomes = o :: c.outcomes := by
  cases h with
  | push name => exact .inl rfl
  | pop hpop =>
      rw [(Proof.eq_of_pop hpop).2]
      exact .inl c.outcomes_closeInnermost
  | unwind layer => exact .inl (c.outcomes_unwind layer)
  | declare stem kind => exact .inl (Adds.declare c stem kind).recorded.1
  | assume hassume => exact .inl (Adds.assume hassume).recorded.1
  | assumeFact hassume => exact .inl (Adds.assumeFact hassume).recorded.1
  | commit hcommit =>
      obtain ⟨-, -, -, rfl⟩ := Proof.inv_of_commit hcommit
      exact .inl rfl
  | check name rule claim => exact .inl (Proof.silent_checkRefuted name rule claim c)
  | setOutcome layer v => exact .inr ⟨_, rfl⟩
  | log level source message => exact .inl rfl

theorem Moves.length_outcomes_le (h : Moves c c') : c.outcomes.length ≤ c'.outcomes.length := by
  rcases h.outcomes with hsame | ⟨o, hmore⟩
  · exact Nat.le_of_eq (congrArg List.length hsame.symm)
  · rw [hmore]
    exact Nat.le_succ _

theorem Leads.length_outcomes_le (h : c.Leads c') : c.outcomes.length ≤ c'.outcomes.length := by
  induction h with
  | refl => exact Nat.le_refl _
  | tail _ hmove ih => exact Nat.le_trans ih (Moves.length_outcomes_le hmove)

/-- Layers are never un-opened. -/
theorem Moves.openings_le (h : Moves c c') : c.openings ≤ c'.openings := by
  rcases h.cases with ⟨name, rfl⟩ | ⟨n, rfl⟩ | h
  · exact Nat.le_succ _
  · exact Nat.le_of_eq (base_closeMany n c).2.symm
  · exact Nat.le_of_eq h.openings.symm

theorem Leads.openings_le (h : c.Leads c') : c.openings ≤ c'.openings := by
  induction h with
  | refl => exact Nat.le_refl _
  | tail _ hmove ih => exact Nat.le_trans ih (Moves.openings_le hmove)

theorem Counted.serial_current_le (hc : c.Counted) : c.current.serial ≤ c.openings := by
  unfold current
  cases hopened : c.opened with
  | nil => simp [hc.ground]
  | cons l outer => exact hc.bounded l (by simp [hopened])

/-- A layer with the number of the innermost one is not the base. -/
theorem Counted.innermost (hc : c.Counted) (h : c.current.serial = layer.serial)
    (hlayer : 0 < layer.serial) : c.Innermost layer := by
  unfold current at h
  cases hopened : c.opened with
  | nil =>
      rw [hopened] at h
      have hzero : c.base.serial = layer.serial := h
      rw [hc.ground] at hzero
      omega
  | cons l outer =>
      rw [hopened] at h
      exact ⟨l, outer, hopened, h⟩

/-- Verdicts are on goals of layers that were opened. -/
theorem Regular.bounded (h : c.Regular) : ∀ o ∈ c.outcomes, o.1 ≤ c.openings := by
  induction h with
  | start options replies => exact fun o ho => absurd ho List.not_mem_nil
  | move _ hmove hsilent ih =>
      rw [hsilent]
      exact fun o ho => Nat.le_trans (ih o ho) hmove.openings_le
  | @discharge c h g hints ih =>
      have hopenings := Leads.openings_le (Proof.operates_discharge g hints c)
      cases hout : Proof.outcome (Proof.discharge g hints) c with
      | mk r c' =>
          rw [hout] at hopenings
          cases r with
          | error e =>
              rw [Proof.recorded_of_refused hout]
              exact fun o ho => Nat.le_trans (ih o ho) hopenings
          | ok v =>
              obtain ⟨hserial, houtcomes⟩ := Proof.recorded_of_discharge hout
              rw [houtcomes]
              refine List.forall_mem_cons.2 ⟨?_, fun o ho => Nat.le_trans (ih o ho) hopenings⟩
              exact Nat.le_trans (hserial ▸ h.reachable.counted.serial_current_le) hopenings

/-- There is no verdict on the goal of a layer that was not opened yet. -/
theorem Regular.outcome?_eq_none (h : c.Regular) (hlayer : c.openings < layer.serial) :
    c.outcome? layer = none := by
  have hnone : c.outcomes.find? (fun o => o.1 == layer.serial) = none := by
    refine List.find?_eq_none.2 fun o ho => ?_
    have hbound := h.bounded o ho
    simp only [beq_iff_eq]
    omega
  rw [outcome?, hnone]
  rfl

end Context

namespace Proof

variable {α β : Type} {c c' c'' : Context} {g : Goal} {vs : List Verdict}

/-! ### Parts of proofs as courses -/

/-- Operations that record no verdict are a course. -/
theorem course_of_leads (g : Goal) (h : c.Leads c') (hsilent : c'.outcomes = c.outcomes) :
    Course g c [] c' := by
  induction h with
  | refl => exact .refl
  | @tail c₁ c₂ hleads hmove ih =>
      -- no verdict was recorded on the way
      have hbefore := Context.Leads.length_outcomes_le hleads
      have hsame : c₂.outcomes = c₁.outcomes := by
        rcases Context.Moves.outcomes hmove with hsame | ⟨o, hmore⟩
        · exact hsame
        · have hlength := congrArg List.length (hmore.symm.trans hsilent)
          rw [List.length_cons] at hlength
          omega
      exact (ih (hsame.symm.trans hsilent)).move hmove hsame

/-- **A part of a proof proceeds** with a goal whose layer was opened: it is a course, whether it
returns or fails. -/
def Proceeds (g : Goal) (p : ProofM α) : Prop :=
  ∀ c : Context, g.layer.serial ≤ c.openings → ∃ vs, Course g c vs (outcome p c).2

theorem proceeds_of_silent {p : ProofM α} (hp : Operates p) (hsilent : Silent p) : Proceeds g p :=
  fun c _ => ⟨[], course_of_leads g (hp c) (hsilent c)⟩

theorem Proceeds.bind {p : ProofM α} {f : α → ProofM β} (hp : Proceeds g p)
    (hf : ∀ a, Proceeds g (f a)) : Proceeds g (p >>= f) := by
  intro c hc
  obtain ⟨vs, hcourse⟩ := hp c hc
  rw [outcome_bind]
  generalize outcome p c = r at hcourse
  obtain ⟨r, c₁⟩ := r
  cases r with
  | error e => exact ⟨vs, hcourse⟩
  | ok a =>
      obtain ⟨vs', hcourse'⟩ := hf a c₁ (Nat.le_trans hc (hcourse.leads.openings_le))
      exact ⟨vs ++ vs', hcourse.trans hcourse'⟩

/-- A failure may be caught. -/
theorem Proceeds.attempt {p : ProofM α} (hp : Proceeds g p) : Proceeds g (attempt p) := by
  intro c hc
  obtain ⟨vs, hcourse⟩ := hp c hc
  exact ⟨vs, hcourse⟩

theorem proceeds_discharge (g : Goal) (hints : List Formula) : Proceeds g (discharge g hints) :=
  fun _ _ => ⟨_, Course.refl.discharge hints⟩

theorem proceeds_other {g' : Goal} (hother : g'.layer.serial ≠ g.layer.serial)
    (hints : List Formula) : Proceeds g (discharge g' hints) :=
  fun _ _ => ⟨_, Course.refl.other hother hints⟩

theorem silent_conclude (f : Fact) : Silent (conclude f) := by
  intro c
  rw [conclude, outcome_change]
  cases hconclude : c.conclude f with
  | error e => rfl
  | ok c' =>
      unfold Context.conclude at hconclude
      split at hconclude
      · obtain ⟨-, -, -, rfl⟩ := inv_of_commit hconclude
        rfl
      · exact (Context.Adds.assumeFact hconclude).recorded.1

theorem still_fact (name : String) : Still (fact name) := by
  intro c
  rw [fact, outcome_change]
  cases c.fact name <;> rfl

/-- What comes after the body of a layer closes layers. -/
theorem proceeds_scope {name : String} {body : Layer → ProofM α}
    (hbody : ∀ layer : Layer, layer.serial ≠ g.layer.serial → Proceeds g (body layer)) :
    Proceeds g (scope name body) := by
  intro c hc
  have hpush : Course g c [] (c.push name).2 := Course.refl.move (.push c name) rfl
  have hserial : (c.push name).1.serial ≠ g.layer.serial :=
    Nat.ne_of_gt (Nat.lt_succ_of_le hc)
  -- the layer that is opened is not that of the goal, which was opened before
  obtain ⟨vs, hcourse⟩ := hbody (c.push name).1 hserial (c.push name).2 (Nat.le_succ_of_le hc)
  have hinside := hpush.trans hcourse
  rw [outcome_scope_eq]
  generalize outcome (body (c.push name).1) (c.push name).2 = r at hinside
  obtain ⟨r, c₁⟩ := r
  cases r with
  | error e => exact ⟨_, hinside.move (.unwind c₁ (c.push name).1) (c₁.outcomes_unwind _)⟩
  | ok a =>
      dsimp only at hinside ⊢
      cases hpop : c₁.pop (some (c.push name).1) with
      | error e => exact ⟨_, hinside⟩
      | ok popped =>
          refine ⟨_, hinside.move (.pop hpop) ?_⟩
          rw [(eq_of_pop hpop).2]
          exact c₁.outcomes_closeInnermost

theorem proceeds_proving {claim : Fact} {rule : String} {concluding : Bool}
    {body : Goal → ProofM Unit}
    (hbody : ∀ g' : Goal, g'.layer.serial ≠ g.layer.serial → Proceeds g (body g')) :
    Proceeds g (proving claim rule concluding body) := by
  rw [proving_eq]
  refine Proceeds.bind (proceeds_scope fun layer hlayer => ?_) fun r => ?_
  · refine (proceeds_of_silent (operates_declares _) (builds_declares _).silent).bind fun ws =>
      (proceeds_of_silent (operates_assumeGuard claim ws) (builds_assumeGuard claim ws).silent).bind
        fun _ => (hbody _ hlayer).bind fun _ =>
        (proceeds_of_silent (operates_look _) (still_look _).silent).bind fun verdict => ?_
    split
    · exact proceeds_of_silent (operates_fail _) (still_require _).silent
    · exact proceeds_of_silent (operates_pure _) (still_pure _).silent
  · obtain ⟨layer, verdict⟩ := r
    unfold judging
    simp only
    split
    · exact proceeds_of_silent operates_fail_bind still_fail_bind.silent
    · split
      · exact proceeds_of_silent (operates_conclude claim) (silent_conclude claim)
      · exact proceeds_of_silent (operates_pure ()) (still_pure ()).silent

/-- **Proceeding with a goal is closed**, since goals of other claims are in other layers. -/
theorem closed_proceeds (g : Goal) :
    Closed (Proceeds g) fun g' p => g'.layer.serial ≠ g.layer.serial → Proceeds g p where
  pure a := proceeds_of_silent (operates_pure a) (still_pure a).silent
  bind hp hf := hp.bind hf
  require r := proceeds_of_silent (operates_require r) (still_require r).silent
  layer := proceeds_of_silent (operates_look _) (still_look _).silent
  fact name := proceeds_of_silent (operates_fact name) (still_fact name).silent
  declare stem kind :=
    proceeds_of_silent (operates_declare stem kind) (builds_declare stem kind).silent
  assume f label := proceeds_of_silent (operates_assume f label) (builds_assume f label).silent
  assumeFact f := proceeds_of_silent (operates_assumeFact f) (builds_assumeFact f).silent
  conclude f := proceeds_of_silent (operates_conclude f) (silent_conclude f)
  scope hbody := proceeds_scope fun layer _ => hbody layer
  prepare hp hf hother := hp.bind fun a => hf a hother
  discharge _ hints hother := (proceeds_other hother hints).bind fun _ =>
    proceeds_of_silent (operates_pure ()) (still_pure ()).silent
  proving hbody := proceeds_proving hbody

end Proof

end CandyCircle
