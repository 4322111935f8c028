/-
**Claims are concluded by discharging their goals.**

Between opening the layer of a claim and closing it anything may be done.  The claim is concluded if
what is done ends, with that layer as the innermost one, and the last discharge of the goal that was
completed found it refuted.  In every other case establishing the claim fails, and nothing is
committed or registered by it.

Main definitions:

* `CandyCircle.Proof.Establishes` — a goal is established;
* `CandyCircle.Context.OnlyCloses` — nothing is done but to close layers.

Main results:

* `CandyCircle.Proof.outcome_proving` — what establishing a claim comes to once its body has run;
* `CandyCircle.Proof.proving_concludes_iff` — **a claim is concluded just if its goal is
  established**, and otherwise nothing is done but to close layers.
-/
import CandyCircle.Proofs.Refutation.Discharging

set_option autoImplicit false

namespace CandyCircle

open Logic

namespace Context

/-- Between two states nothing was done but to close layers: nothing was committed, and nothing was
registered or assumed in the layers that are still open. -/
structure OnlyCloses (c c' : Context) : Prop where
  opened : c'.opened <:+ c.opened
  /-- The same is asserted in the layers that are still open. -/
  frames : c'.session.frames <:+ c.session.frames
  base : c'.base = c.base
  /-- The same is asserted at the base. -/
  asserted : c'.session.base = c.session.base
  committed : c'.committed = c.committed

theorem suffix_frames_closeMany (n : Nat) : ∀ c : Context,
    (closeMany n c).session.frames <:+ c.session.frames := by
  induction n with
  | zero => exact fun _ => List.suffix_rfl
  | succ n ih =>
      intro c
      refine (ih c.closeInnermost).trans ?_
      unfold closeInnermost
      split
      · exact List.suffix_rfl
      · exact List.tail_suffix _

theorem onlyCloses_closeMany (n : Nat) (c : Context) : c.OnlyCloses (closeMany n c) where
  opened := by
    rw [opened_closeMany]
    exact List.drop_suffix n c.opened
  frames := suffix_frames_closeMany n c
  base := (base_closeMany n c).1
  asserted := (Proof.heard_closeMany n c).2.asserted
  committed := (Proof.heard_closeMany n c).2.committed

theorem onlyCloses_unwind (c : Context) (layer : Layer) : c.OnlyCloses (c.unwind layer) := by
  obtain ⟨n, hn⟩ := c.exists_unwind_eq layer
  exact hn ▸ onlyCloses_closeMany n c

end Context

namespace Proof

variable {claim : Fact} {rule : String} {concluding : Bool} {body : Goal → ProofM Unit}
  {c c₁ c₂ : Context}

/-! ### Claims -/

/-- What is done in the layer of a claim before its goal is there: witnesses are declared, and the
guard is assumed for them. -/
def preparing (claim : Fact) : ProofM (List Symbol) := do
  let witnesses ← claim.vars.mapM fun s => declare s.name s.kind
  assumeGuard claim witnesses
  return witnesses

theorem builds_preparing (claim : Fact) : Builds (preparing claim) :=
  (builds_declares _).bind fun ws => (builds_assumeGuard claim ws).bind fun _ =>
    (still_pure ws).builds

theorem operates_preparing (claim : Fact) : Operates (preparing claim) :=
  (operates_declares _).bind fun ws => (operates_assumeGuard claim ws).bind fun _ =>
    operates_pure ws

/-- The goal of a claim that is established in a state. -/
def goalIn (c : Context) (claim : Fact) (rule : String) (ws : List Symbol) : Goal :=
  { claim, rule, witnesses := ws, layer := (c.push claim.name).1 }

/-- **A goal is established**: what was done about it has ended, its layer is the innermost one, and
the last discharge that was completed found it refuted while that layer was the innermost one. -/
structure Establishes (g : Goal) (c : Context) (r : Except Failure Unit) (c' : Context) : Prop where
  ended : r = .ok ()
  innermost : c'.Innermost g.layer
  discharged : ∃ vs c₀ hints c₁, Course g c vs c₀ ∧ c₀.Innermost g.layer ∧
    outcome (discharge g hints) c₀ = (.ok .unsat, c₁) ∧ Course g c₁ [] c'

/-- What the last discharge found is the verdict on the goal. -/
theorem Establishes.outcome? {g : Goal} {r : Except Failure Unit} (h : Establishes g c r c₂) :
    c₂.outcome? g.layer = some .unsat := by
  obtain ⟨vs, c₀, hints, c₁, -, -, hout, hafter⟩ := h.discharged
  rw [hafter.outcome?, Context.outcome?, (recorded_of_discharge hout).2]
  simp

/-- Between preparing a goal and looking at the verdict on it, its body runs. -/
theorem refutation_eq (claim : Fact) (rule : String) (body : Goal → ProofM Unit) (c : Context) :
    refutation claim rule body (c.push claim.name).1 =
      preparing claim >>= fun ws => body (goalIn c claim rule ws) >>= fun _ =>
        look (fun c' => c'.outcome? (c.push claim.name).1) >>= fun
          | none => fail (.scope (.neverDischarged claim.name claim.name))
          | some verdict => return ((c.push claim.name).1, verdict) := by
  simp only [preparing, bind_assoc, pure_bind]
  rfl

/-- What the layer of a claim comes to once its body has run. -/
theorem outcome_refutation {ws : List Symbol} {r : Except Failure Unit}
    (hprepared : outcome (preparing claim) (c.push claim.name).2 = (.ok ws, c₁))
    (hbody : outcome (body (goalIn c claim rule ws)) c₁ = (r, c₂)) :
    outcome (refutation claim rule body (c.push claim.name).1) (c.push claim.name).2 =
      match r, c₂.outcome? (c.push claim.name).1 with
      | .error e, _ => (.error e, c₂)
      | .ok (), none => (.error (.scope (.neverDischarged claim.name claim.name)), c₂)
      | .ok (), some v => (.ok ((c.push claim.name).1, v), c₂) := by
  rw [refutation_eq, outcome_bind, hprepared]
  simp only [outcome_bind, hbody]
  cases r with
  | error e => rfl
  | ok u =>
      simp only [look, outcome_change]
      cases c₂.outcome? (c.push claim.name).1 <;> rfl

/-- **What establishing a claim comes to** once its body has run. -/
theorem outcome_proving {ws : List Symbol} {r : Except Failure Unit}
    (hprepared : outcome (preparing claim) (c.push claim.name).2 = (.ok ws, c₁))
    (hbody : outcome (body (goalIn c claim rule ws)) c₁ = (r, c₂)) :
    outcome (proving claim rule concluding body) c =
      match r, c₂.outcome? (c.push claim.name).1 with
      | .error e, _ => (.error e, c₂.unwind (c.push claim.name).1)
      | .ok (), none => (.error (.scope (.neverDischarged claim.name claim.name)),
          c₂.unwind (c.push claim.name).1)
      | .ok (), some v =>
          match c₂.pop (some (c.push claim.name).1) with
          | .error e => (.error e, c₂)
          | .ok (_, c₃) =>
              outcome (judging claim rule concluding ((c.push claim.name).1, v)) c₃ := by
  rw [proving_eq, outcome_bind, outcome_scope_eq, outcome_refutation hprepared hbody]
  cases r with
  | error e => rfl
  | ok u =>
      cases c₂.outcome? (c.push claim.name).1 with
      | none => rfl
      | some v =>
          simp only
          cases c₂.pop (some (c.push claim.name).1) <;> rfl

/-- After its layer was closed, a claim that was refuted is concluded if asked for. -/
theorem outcome_judging_eq (layer : Layer) (v : Verdict) (c : Context) :
    outcome (judging claim rule concluding (layer, v)) c =
      if v = .unsat then
        match if concluding then c.conclude claim else .ok c with
        | .ok c' => (.ok (), c')
        | .error e => (.error e, c)
      else (.error (.notRefuted claim.name v rule layer.depth), c) := by
  cases v with
  | sat | unknown => rfl
  | unsat =>
      cases concluding with
      | false => rfl
      | true =>
          have hparts : judging claim rule true (layer, .unsat) = conclude claim := rfl
          rw [hparts, conclude, outcome_change, if_pos rfl, if_pos rfl]
          cases c.conclude claim <;> rfl

section Prepared

variable {ws : List Symbol} {r : Except Failure Unit} {vs : List Verdict}

/-- What fails after the body of a claim has run does nothing but to close layers. -/
theorem onlyCloses_of_proving {e : Failure} {c' : Context}
    (hprepared : outcome (preparing claim) (c.push claim.name).2 = (.ok ws, c₁))
    (hbody : outcome (body (goalIn c claim rule ws)) c₁ = (r, c₂))
    (h : outcome (proving claim rule concluding body) c = (.error e, c')) : c₂.OnlyCloses c' := by
  rw [outcome_proving hprepared hbody] at h
  cases r with
  | error e' =>
      cases h
      exact c₂.onlyCloses_unwind _
  | ok u =>
      cases hverdict : c₂.outcome? (c.push claim.name).1 with
      | none =>
          rw [hverdict] at h
          cases h
          exact c₂.onlyCloses_unwind _
      | some v =>
          rw [hverdict] at h
          cases hpop : c₂.pop (some (c.push claim.name).1) with
          | error e' =>
              simp only [hpop] at h
              cases h
              exact Context.onlyCloses_closeMany 0 c₂
          | ok popped =>
              obtain ⟨l, c₃⟩ := popped
              simp only [hpop] at h
              rw [outcome_judging_eq] at h
              obtain rfl : c₃ = c' := by
                split at h
                · split at h
                  · cases h
                  · exact (Prod.mk.inj h).2
                · exact (Prod.mk.inj h).2
              rw [(eq_of_pop hpop).2]
              exact Context.onlyCloses_closeMany 1 c₂

/-- The verdict that counts in the end is that of the last discharge that was completed. -/
theorem establishes_of_verdict (hc : c.Regular)
    (hprepared : outcome (preparing claim) (c.push claim.name).2 = (.ok ws, c₁))
    (hcourse : Course (goalIn c claim rule ws) c₁ vs c₂)
    (hverdict : c₂.outcome? (c.push claim.name).1 = some .unsat)
    (hinnermost : c₂.Innermost (c.push claim.name).1) :
    Establishes (goalIn c claim rule ws) c₁ (.ok ()) c₂ := by
  have hc₁ : c₁.Reachable := by
    have hleads := operates_preparing claim (c.push claim.name).2
    rw [hprepared] at hleads
    exact (hc.reachable.move (.push c claim.name)).leads hleads
  -- when the body starts there is no verdict on the goal
  have hnone : c₁.outcome? (c.push claim.name).1 = none := by
    have hsilent := (builds_preparing claim).silent (c.push claim.name).2
    rw [hprepared] at hsilent
    rw [Context.outcome?_congr (c := c) hsilent]
    exact hc.outcome?_eq_none (Nat.lt_succ_self _)
  have hlast : vs.getLast? = some .unsat := by
    have hcounts : c₂.outcome? (c.push claim.name).1 =
        vs.getLast?.or (c₁.outcome? (c.push claim.name).1) := hcourse.outcome?
    rw [hnone, Option.or_none] at hcounts
    exact hcounts.symm.trans hverdict
  obtain ⟨vs₀, c₀, hints, c₀', hbefore, hcurrent, hout, hafter⟩ := hcourse.exists_last hlast
  have hc₀ := hc₁.leads hbefore.leads
  exact ⟨rfl, hinnermost, vs₀, c₀, hints, c₀', hbefore,
    hc₀.counted.innermost hcurrent (Nat.succ_pos _), hout, hafter⟩

/-- **A claim is concluded just if its goal is established**, in the layer around its own. -/
theorem proving_ok_iff (hc : c.Regular)
    (hprepared : outcome (preparing claim) (c.push claim.name).2 = (.ok ws, c₁))
    (hbody : outcome (body (goalIn c claim rule ws)) c₁ = (r, c₂))
    (hcourse : Course (goalIn c claim rule ws) c₁ vs c₂) (c' : Context) :
    outcome (proving claim rule concluding body) c = (.ok (), c') ↔
      Establishes (goalIn c claim rule ws) c₁ r c₂ ∧
        (if concluding then c₂.closeInnermost.conclude claim
          else .ok c₂.closeInnermost) = .ok c' := by
  rw [outcome_proving hprepared hbody]
  constructor
  · intro h
    cases r with
    | error e => cases h
    | ok u =>
        cases hverdict : c₂.outcome? (c.push claim.name).1 with
        | none =>
            rw [hverdict] at h
            cases h
        | some v =>
            rw [hverdict] at h
            cases hpop : c₂.pop (some (c.push claim.name).1) with
            | error e =>
                simp only [hpop] at h
                cases h
            | ok popped =>
                obtain ⟨l, c₃⟩ := popped
                obtain ⟨hinnermost, rfl⟩ := Context.exists_pop_iff.1 ⟨l, hpop⟩
                simp only [hpop] at h
                rw [outcome_judging_eq] at h
                split at h
                · rename_i hunsat
                  rw [hunsat] at hverdict
                  refine ⟨establishes_of_verdict hc hprepared hcourse hverdict hinnermost, ?_⟩
                  split at h
                  · rename_i hconcluded
                    rw [hconcluded, (Prod.mk.inj h).2]
                  · cases h
                · cases h
  · rintro ⟨hestablishes, hconcluded⟩
    obtain rfl := hestablishes.ended
    have hverdict : c₂.outcome? (c.push claim.name).1 = some .unsat := hestablishes.outcome?
    obtain ⟨l, hpop⟩ := Context.exists_pop_iff.2 ⟨hestablishes.innermost, rfl⟩
    have hpop : c₂.pop (some (c.push claim.name).1) = .ok (l, c₂.closeInnermost) := hpop
    simp only [hverdict, hpop]
    rw [outcome_judging_eq, if_pos rfl, hconcluded]

end Prepared

/-- If the goal of a claim cannot be prepared, nothing changes. -/
theorem proving_of_unprepared {e : Failure}
    (h : outcome (preparing claim) (c.push claim.name).2 = (.error e, c₁)) :
    ∃ c', outcome (proving claim rule concluding body) c = (.error e, c') ∧ c.Unchanged c' := by
  have hrefutation : outcome (refutation claim rule body (c.push claim.name).1)
      (c.push claim.name).2 = (.error e, c₁) := by
    rw [refutation_eq, outcome_bind, h]
  obtain ⟨-, -, hinside, -⟩ := (builds_preparing claim).halts (c.push claim.name).2
  rw [h] at hinside
  have hrests : (c.push claim.name).2.Rests
      (outcome (refutation claim rule body (c.push claim.name).1) (c.push claim.name).2).2 := by
    rw [hrefutation]
    exact hinside.rests
  refine ⟨c₁.closeInnermost, ?_, hinside.unchanged⟩
  rw [proving_eq, outcome_bind, outcome_scope_of_rests hrests, hrefutation]

/-- **A claim is concluded by discharging its goal, and not otherwise.**  Whatever is done between
opening its layer and closing it: establishing the claim succeeds just if what is done ended, the
layer is the innermost one then, and the last discharge that was completed found the goal refuted;
the claim is then concluded around its layer.  Otherwise it fails, and nothing is committed or
registered by it. -/
theorem proving_concludes_iff (hc : c.Regular) (claim : Fact) (rule : String) (concluding : Bool)
    (body : Goal → ProofM Unit) :
    match outcome (preparing claim) (c.push claim.name).2 with
    | (.error e, _) =>
        ∃ c', outcome (proving claim rule concluding body) c = (.error e, c') ∧ c.Unchanged c'
    | (.ok ws, c₁) =>
        ∀ r c₂ vs, outcome (body (goalIn c claim rule ws)) c₁ = (r, c₂) →
          Course (goalIn c claim rule ws) c₁ vs c₂ →
          (∀ c', outcome (proving claim rule concluding body) c = (.ok (), c') ↔
            Establishes (goalIn c claim rule ws) c₁ r c₂ ∧
              (if concluding then c₂.closeInnermost.conclude claim
                else .ok c₂.closeInnermost) = .ok c') ∧
          ∀ e c', outcome (proving claim rule concluding body) c = (.error e, c') →
            c₂.OnlyCloses c' := by
  cases hprepared : outcome (preparing claim) (c.push claim.name).2 with
  | mk prepared c₁ =>
      cases prepared with
      | error e => exact proving_of_unprepared hprepared
      | ok ws =>
          exact fun r c₂ vs hbody hcourse =>
            ⟨proving_ok_iff hc hprepared hbody hcourse,
              fun e c' => onlyCloses_of_proving hprepared hbody⟩

section Hesitating

/-- A claim that holds everywhere. -/
def evident (name : String) : Fact :=
  .plain name (.lit true)

/-- What is done about a goal: it is discharged, another claim is established, the goal is
discharged from a layer further inside, where that is refused, and it is discharged once more. -/
def hesitant (g : Goal) : ProofM Unit := do
  let _ ← discharge g []
  prove (evident "helper") plainRule noHints true
  let _ ← attempt (scope "case" fun _ => discharge g [])
  let _ ← discharge g []

theorem proceeds_hesitant (g : Goal) : Proceeds g (hesitant g) := by
  have hclosed := closed_proceeds g
  refine (proceeds_discharge g []).bind fun _ => ?_
  refine (hclosed.prove fun _ => hclosed.pure []).bind fun _ => ?_
  refine (Proceeds.attempt (proceeds_scope fun _ _ => proceeds_discharge g [])).bind fun _ => ?_
  exact (proceeds_discharge g []).bind fun _ => hclosed.pure ()

/-- With a solver that does not know first and then refutes everything, the claim is concluded. -/
theorem establishes_hesitant :
    let c := Context.start (Settings.options {}) [.ok ⟨"UNKNOWN", none⟩]
    let g := goalIn c (evident "claim") plainRule []
    let r := outcome (hesitant g) (c.push "claim").2
    c.Regular ∧ Establishes g (c.push "claim").2 r.1 r.2 ∧
      ∃ c', outcome (proving (evident "claim") plainRule true hesitant) c = (.ok (), c') ∧
        c'.committed = ["claim"] := by
  intro c g r
  have hc : c.Regular := .start _ _
  obtain ⟨vs, hcourse⟩ := proceeds_hesitant g (c.push "claim").2 (Nat.le_refl _)
  have h := proving_concludes_iff hc (evident "claim") plainRule true hesitant
  have hprepared : outcome (preparing (evident "claim")) (c.push (evident "claim").name).2 =
      (.ok [], (c.push "claim").2) := rfl
  rw [hprepared] at h
  obtain ⟨hok, -⟩ := h r.1 r.2 vs rfl hcourse
  have hcommitted : (outcome (proving (evident "claim") plainRule true hesitant) c).2.committed =
      ["claim"] := by
    decide +kernel
  have hreturns : (outcome (proving (evident "claim") plainRule true hesitant) c).1.toOption =
      some () := by
    decide +kernel
  cases hout : outcome (proving (evident "claim") plainRule true hesitant) c with
  | mk result c' =>
      rw [hout] at hcommitted hreturns
      cases result with
      | error e => cases hreturns
      | ok u => exact ⟨hc, ((hok c').1 hout).1, c', rfl, hcommitted⟩

end Hesitating

end Proof

end CandyCircle
