/-
**Operations that fail change nothing.**

Closing a layer, assuming something and committing a fact change several parts of the state, one
after another: what the solver was told, the layer with its constants, its facts and its count of
assumptions, the base, the retired constants and the list of committed facts.  If one change were
refused after another one was made, the parts would no longer fit together.  But each operation
looks at all that may be wrong before its first change, and no change can be refused.  So an
operation that fails has changed nothing, and it fails just if the discipline of layers is broken,
or if a fact has no formula at all: a fact may well be accepted although its trigger cannot be the
pattern of a quantifier.

Main definitions:

* `CandyCircle.Proof.Atomic`, `CandyCircle.Proof.Certain` — a proof that fails has changed nothing,
  and a proof never fails;
* `CandyCircle.Proof.popping`, `CandyCircle.Proof.assuming`, `CandyCircle.Proof.assumingFact`,
  `CandyCircle.Proof.committing` — the operations, one change after another;
* `CandyCircle.Context.Refuses` — a fact has no formula, or its formula mentions a retired constant;
* `CandyCircle.Proof.Breach`, `CandyCircle.Proof.BreachOr` — what the failures say;
* `CandyCircle.Proof.FailsJustIf` — **an operation fails just if something is wrong**, and then
  everything is as it was.

Main results:

* `CandyCircle.Proof.Atomic.bind`, `CandyCircle.Proof.Still.bind_atomic` — **first what changes
  nothing, then what never fails**;
* `CandyCircle.Proof.pop_eq_popping`, `CandyCircle.Proof.changeAssume_eq_assuming`,
  `CandyCircle.Proof.assumeFact_eq_assumingFact`, `CandyCircle.Proof.commit_eq_committing` — the
  operations come to their changes;
* `CandyCircle.Proof.operations_fail_just_if` — **when operations fail**;
* `CandyCircle.Proof.unformed_refused` — a fact that is accepted, and yet neither assumed nor
  committed.
-/
import CandyCircle.Proofs.Fact.Coverage
import CandyCircle.Proofs.Refutation.Discharging
import CandyCircle.Proofs.Refutation.Leaking

set_option autoImplicit false

namespace CandyCircle

open Logic

namespace Context

/-- **A fact that can be neither assumed nor committed**: it has no formula, or its formula mentions
a retired constant outside of patterns. -/
def Refuses (c : Context) (f : Fact) : Prop :=
  (∃ e, formulaOf f = .error e) ∨
    ∃ formula, formulaOf f = .ok formula ∧ c.MentionsRetired False formula

theorem refuses_iff (c : Context) {f : Fact} {formula : Formula} (h : formulaOf f = .ok formula) :
    c.Refuses f ↔ c.MentionsRetired False formula := by
  simp [Refuses, h]

theorem exists_of_not_refuses {c : Context} {f : Fact} (h : ¬ c.Refuses f) :
    ∃ formula, formulaOf f = .ok formula ∧ ¬ c.MentionsRetired False formula := by
  cases hformula : formulaOf f with
  | error e => exact absurd (.inl ⟨e, hformula⟩) h
  | ok formula => exact ⟨formula, rfl, fun hmentions => h ((c.refuses_iff hformula).2 hmentions)⟩

end Context

namespace Proof

variable {α β : Type} {c : Context}

/-! ### Proofs that change nothing if they fail -/

/-- A proof that fails has changed nothing. -/
def Atomic (p : ProofM α) : Prop :=
  ∀ c e c', outcome p c = (.error e, c') → c' = c

/-- A proof never fails. -/
def Certain (p : ProofM α) : Prop :=
  ∀ c, ∃ a c', outcome p c = (.ok a, c')

theorem outcome_bind_of_ok {p : ProofM α} {f : α → ProofM β} {a : α} {c₁ : Context}
    (h : outcome p c = (.ok a, c₁)) : outcome (p >>= f) c = outcome (f a) c₁ := by
  rw [outcome_bind, h]

theorem outcome_bind_of_error {p : ProofM α} {f : α → ProofM β} {e : Failure} {c₁ : Context}
    (h : outcome p c = (.error e, c₁)) : outcome (p >>= f) c = (.error e, c₁) := by
  rw [outcome_bind, h]

theorem certain_pure (a : α) : Certain (pure a : ProofM α) :=
  fun c => ⟨a, c, rfl⟩

theorem Certain.bind {p : ProofM α} {f : α → ProofM β} (hp : Certain p)
    (hf : ∀ a, Certain (f a)) : Certain (p >>= f) := by
  intro c
  obtain ⟨a, c₁, hfirst⟩ := hp c
  obtain ⟨b, c₂, hsecond⟩ := hf a c₁
  exact ⟨b, c₂, (outcome_bind_of_ok hfirst).trans hsecond⟩

theorem Still.atomic {p : ProofM α} (h : Still p) : Atomic p := by
  intro c e c' hout
  have hstate := h c
  rwa [hout] at hstate

/-- **Before the first change** anything may fail. -/
theorem Still.bind_atomic {p : ProofM α} {f : α → ProofM β} (hp : Still p)
    (hf : ∀ a, Atomic (f a)) : Atomic (p >>= f) := by
  intro c e c' hout
  have hstate := hp c
  cases hfirst : outcome p c with
  | mk r c₁ =>
      rw [hfirst] at hstate
      obtain rfl : c₁ = c := hstate
      cases r with
      | error e₁ =>
          rw [outcome_bind_of_error hfirst] at hout
          cases hout
          rfl
      | ok a =>
          rw [outcome_bind_of_ok hfirst] at hout
          exact hf a c₁ e c' hout

/-- **After the first change** nothing may fail. -/
theorem Atomic.bind {p : ProofM α} {f : α → ProofM β} (hp : Atomic p)
    (hf : ∀ a, Certain (f a)) : Atomic (p >>= f) := by
  intro c e c' hout
  cases hfirst : outcome p c with
  | mk r c₁ =>
      cases r with
      | error e₁ =>
          rw [outcome_bind_of_error hfirst] at hout
          cases hout
          exact hp c e _ hfirst
      | ok a =>
          obtain ⟨b, c₂, hsecond⟩ := hf a c₁
          rw [outcome_bind_of_ok hfirst, hsecond] at hout
          cases hout

theorem Certain.atomic {p : ProofM α} (h : Certain p) : Atomic p := by
  intro c e c' hout
  obtain ⟨a, c₁, hok⟩ := h c
  rw [hok] at hout
  cases hout

/-! ### Operations, one change after another -/

/-- One change of the state. -/
def update (f : Context → Context) : ProofM Unit :=
  change fun c => .ok ((), f c)

theorem certain_update (f : Context → Context) : Certain (update f) :=
  fun c => ⟨(), f c, rfl⟩

theorem certain_log (level : LogLevel) (source : LogSource) (message : String) :
    Certain (log level source message : ProofM Unit) :=
  fun c => ⟨(), c.logged level source message, rfl⟩

/-- A value read off the state that may be refused. -/
def checking (f : Context → Except Failure α) : ProofM α :=
  change fun c => (f c).map (·, c)

theorem still_checking (f : Context → Except Failure α) : Still (checking f) := by
  intro c
  rw [checking, outcome_change]
  cases f c <;> rfl

theorem outcome_checking_bind (f : Context → Except Failure β) (g : β → ProofM α) (c : Context) :
    outcome (checking f >>= g) c =
      match f c with
      | .ok b => outcome (g b) c
      | .error e => (.error e, c) := by
  rw [outcome_bind, checking, outcome_change]
  cases f c <;> rfl

/-- The layer that is to be closed, if it is the one that is expected, and those around it. -/
def closable (expected : Option Layer) (c : Context) : Except Failure (Layer × List Layer) :=
  match c.opened with
  | [] => .error (.scope .nothingOpen)
  | l :: outer =>
      match expected with
      | some e =>
          if e.serial = l.serial then .ok (l, outer)
          else .error (.scope (.notInnermost e.name l.name))
      | none => .ok (l, outer)

/-- Closing a layer: the solver forgets it, it is taken away, and its constants are retired. -/
def popping (expected : Option Layer) : ProofM Layer := do
  let (l, outer) ← checking (closable expected)
  update fun c => { c with session := c.session.pop }
  update fun c => { c with opened := outer }
  update fun c => { c with retired := c.retired ++ l.symbols }
  log .debug .context (Context.movement "pop" l.name outer.length)
  return l

/-- Assuming a formula: the solver is told of it, and the innermost layer counts it. -/
def assuming (a : Assertion) : ProofM Unit := do
  checking fun c => c.refuseLeaks a.formula
    ("assumption " ++ if a.label.isEmpty then Term.display a.formula else a.label)
  update fun c => { c with session := c.session.add a }
  update fun c => c.updateCurrent fun l => { l with assumptions := l.assumptions + 1 }

/-- Assuming a fact: its formula is assumed, and the innermost layer registers it. -/
def assumingFact (f : Fact) : ProofM Unit := do
  let formula ← checking fun _ => Context.formulaOf f
  assuming { formula, label := f.name }
  update fun c => c.updateCurrent fun l => l.register f

/-- The formula of a fact that may be committed. -/
def committable (f : Fact) (c : Context) : Except Failure Formula :=
  if c.depth ≠ 0 then .error (.scope (.commitInside f.name c.depth c.current.name))
  else if (c.base.find? f.name).isSome then .error (.scope (.alreadyCommitted f.name))
  else do
    let formula ← Context.formulaOf f
    c.refuseLeaks formula ("fact '" ++ f.name ++ "'")
    return formula

/-- Committing a fact: the solver is told of its formula, the base registers it, and it is listed
among the committed ones. -/
def committing (f : Fact) : ProofM Unit := do
  let formula ← checking (committable f)
  update fun c => { c with session := c.session.add { formula, label := f.name } }
  update fun c => { c with base := c.base.register f }
  update fun c => { c with committed := c.committed ++ [f.name] }
  log .debug .context ("commit " ++ f.name)

theorem eq_of_outcome {p q : ProofM α} (h : ∀ c, outcome p c = outcome q c) : p = q :=
  funext h

theorem pop_eq_popping (expected : Option Layer) : pop expected = popping expected := by
  refine eq_of_outcome fun c => ?_
  rw [popping, outcome_checking_bind, pop, outcome_change]
  obtain ⟨options, session, ledger, base, opened, retired, committed, issued, openings, outcomes,
    log⟩ := c
  unfold Context.pop closable
  cases opened with
  | nil => rfl
  | cons l outer =>
      cases expected with
      | none => rfl
      | some e =>
          dsimp only
          by_cases hserial : e.serial = l.serial
          · rw [if_pos hserial, if_pos hserial]
            rfl
          · rw [if_neg hserial, if_neg hserial]

theorem changeAssume_eq_assuming (a : Assertion) :
    (change fun c => (c.assume a).map ((), ·)) = assuming a := by
  refine eq_of_outcome fun c => ?_
  rw [assuming, outcome_checking_bind, outcome_change]
  unfold Context.assume
  cases c.refuseLeaks a.formula _ <;> rfl

theorem assumeFact_eq_assumingFact (f : Fact) : assumeFact f = assumingFact f := by
  refine eq_of_outcome fun c => ?_
  rw [assumingFact, outcome_checking_bind, assumeFact, outcome_change, Context.assumeFact]
  cases Context.formulaOf f with
  | error e => rfl
  | ok formula =>
      dsimp only
      rw [← changeAssume_eq_assuming, outcome_bind, outcome_change]
      dsimp only [Bind.bind, Except.bind]
      cases c.assume { formula, label := f.name } <;> rfl

theorem commit_eq_committing (f : Fact) : commit f = committing f := by
  refine eq_of_outcome fun c => ?_
  rw [committing, outcome_checking_bind, commit, outcome_change]
  unfold Context.commit committable
  by_cases hdepth : c.depth = 0
  · rw [if_neg (not_not_intro hdepth), if_neg (not_not_intro hdepth)]
    by_cases hknown : (c.base.find? f.name).isSome
    · rw [if_pos hknown, if_pos hknown]
      rfl
    · rw [if_neg hknown, if_neg hknown]
      cases Context.formulaOf f with
      | error e => rfl
      | ok formula =>
          dsimp only [Bind.bind, Except.bind]
          cases c.refuseLeaks formula ("fact '" ++ f.name ++ "'") <;> rfl
  · rw [if_pos hdepth, if_pos hdepth]
    rfl

/-! ### Operations that fail -/

theorem atomic_pop (expected : Option Layer) : Atomic (pop expected : ProofM Layer) := by
  rw [pop_eq_popping]
  refine (still_checking _).bind_atomic fun _ => Certain.atomic ?_
  exact (certain_update _).bind fun _ => (certain_update _).bind fun _ =>
    (certain_update _).bind fun _ => (certain_log _ _ _).bind fun _ => certain_pure _

theorem atomic_assuming (a : Assertion) : Atomic (assuming a) := by
  refine (still_checking _).bind_atomic fun _ => Certain.atomic ?_
  exact (certain_update _).bind fun _ => certain_update _

theorem atomic_assume (f : Formula) (label : String) : Atomic (assume f label : ProofM Unit) := by
  rw [assume, changeAssume_eq_assuming]
  exact atomic_assuming _

theorem atomic_assumeHint (f : Formula) (label : String) :
    Atomic (assumeHint f label : ProofM Unit) := by
  rw [assumeHint, changeAssume_eq_assuming]
  exact atomic_assuming _

theorem atomic_assumeFact (f : Fact) : Atomic (assumeFact f : ProofM Unit) := by
  rw [assumeFact_eq_assumingFact]
  refine (still_checking _).bind_atomic fun _ => ?_
  exact (atomic_assuming _).bind fun _ => certain_update _

theorem atomic_commit (f : Fact) : Atomic (commit f : ProofM Unit) := by
  rw [commit_eq_committing]
  refine (still_checking _).bind_atomic fun _ => Certain.atomic ?_
  exact (certain_update _).bind fun _ => (certain_update _).bind fun _ =>
    (certain_update _).bind fun _ => certain_log _ _ _

/-- A failure says that the discipline of layers was broken. -/
def Breach (e : Failure) : Prop :=
  ∃ fault, e = .scope fault

/-- A failure says that the discipline of layers was broken, or that a fact has no formula. -/
def BreachOr (f : Fact) (e : Failure) : Prop :=
  Breach e ∨ Context.formulaOf f = .error e

/-- **An operation fails just if something is wrong**: then the failure is of a given sort, and
everything is as it was. -/
structure FailsJustIf (p : ProofM α) (c : Context) (failure : Failure → Prop) (wrong : Prop) :
    Prop where
  fails_iff : (∃ e c', outcome p c = (.error e, c')) ↔ wrong
  of_error : ∀ e c', outcome p c = (.error e, c') → c' = c ∧ failure e

variable {p : ProofM α} {failure failure' : Failure → Prop} {wrong wrong' : Prop}

/-- What fails has changed nothing. -/
theorem FailsJustIf.outcome_eq (h : FailsJustIf p c failure wrong) (hwrong : wrong) :
    ∃ e, failure e ∧ outcome p c = (.error e, c) := by
  obtain ⟨e, c', hout⟩ := h.fails_iff.2 hwrong
  obtain ⟨rfl, hfailure⟩ := h.of_error e c' hout
  exact ⟨e, hfailure, hout⟩

theorem failsJustIf_of_atomic (hp : Atomic p)
    (hwrong : wrong → ∃ e, failure e ∧ (outcome p c).1 = .error e)
    (hright : ¬ wrong → ∃ a, (outcome p c).1 = .ok a) : FailsJustIf p c failure wrong := by
  have hcases (e : Failure) (c' : Context) (hout : outcome p c = (.error e, c')) :
      wrong ∧ failure e := by
    rw [hout] at hwrong hright
    by_cases hw : wrong
    · obtain ⟨e', hfailure, he⟩ := hwrong hw
      cases he
      exact ⟨hw, hfailure⟩
    · obtain ⟨a, ha⟩ := hright hw
      cases ha
  refine ⟨⟨fun ⟨e, c', hout⟩ => (hcases e c' hout).1, fun hw => ?_⟩, fun e c' hout => ?_⟩
  · obtain ⟨e, -, he⟩ := hwrong hw
    exact ⟨_, _, Prod.ext he rfl⟩
  · exact ⟨hp c e c' hout, (hcases e c' hout).2⟩

theorem FailsJustIf.mono (h : FailsJustIf p c failure wrong)
    (hfailure : ∀ e, failure e → failure' e) (hwrong : wrong ↔ wrong') :
    FailsJustIf p c failure' wrong' where
  fails_iff := h.fails_iff.trans hwrong
  of_error e c' hout := (h.of_error e c' hout).imp_right (hfailure e)

/-- What is screened fails just if a retired constant is mentioned. -/
theorem failsJustIf_of_screened {g : Context → Except Failure Context} {f : Formula}
    (hp : Atomic (change fun c => (g c).map ((), ·))) (h : c.Screened f (g c)) :
    FailsJustIf (change fun c => (g c).map ((), ·)) c Breach (c.MentionsRetired False f) := by
  refine failsJustIf_of_atomic hp (fun hmentions => ?_) fun hnone => ?_
  · obtain ⟨what, names, hrefused, -⟩ := h.refused hmentions
    refine ⟨.scope (.leak what names c.current.name), ⟨_, rfl⟩, ?_⟩
    rw [outcome_change, hrefused]
    rfl
  · obtain ⟨c', hok⟩ := h.accepted hnone
    refine ⟨(), ?_⟩
    rw [outcome_change, hok]
    rfl

/-- **A layer cannot be closed** if none is open, or if the innermost one is another one than is
expected. -/
theorem failsJustIf_pop (c : Context) (expected : Option Layer) :
    FailsJustIf (pop expected) c Breach
      (c.opened = [] ∨ ∃ layer, expected = some layer ∧ ¬ c.Innermost layer) := by
  refine failsJustIf_of_atomic (atomic_pop expected) (fun hwrong => ?_) fun hright => ?_
  · rw [pop, outcome_change, Context.pop]
    cases hopened : c.opened with
    | nil => exact ⟨.scope .nothingOpen, ⟨_, rfl⟩, rfl⟩
    | cons l outer =>
        rw [hopened] at hwrong
        obtain ⟨layer, rfl, hother⟩ := hwrong.resolve_left (List.cons_ne_nil _ _)
        have hserial : ¬ layer.serial = l.serial := fun heq => hother ⟨l, outer, hopened, heq.symm⟩
        refine ⟨.scope (.notInnermost layer.name l.name), ⟨_, rfl⟩, ?_⟩
        dsimp only
        rw [if_neg hserial]
  · obtain ⟨hopened, hexpected⟩ := not_or.1 hright
    obtain ⟨l, outer, hopened⟩ := List.exists_cons_of_ne_nil hopened
    rw [pop, outcome_change]
    cases expected with
    | none => exact ⟨l, by rw [Context.pop, hopened]⟩
    | some layer =>
        have hinnermost : c.Innermost layer := not_not.1 fun h => hexpected ⟨layer, rfl, h⟩
        obtain ⟨l', hl'⟩ := Context.exists_pop_iff.2 ⟨hinnermost, rfl⟩
        exact ⟨l', by rw [hl']⟩

/-- A fact that has no formula cannot be assumed, for the reason that it has none. -/
theorem assumeFact_unformed {f : Fact} {e : Failure} (h : Context.formulaOf f = .error e)
    (c : Context) : outcome (assumeFact f) c = (.error e, c) := by
  rw [assumeFact_eq_assumingFact, assumingFact, outcome_checking_bind, h]

/-- **A fact cannot be assumed** if it has no formula, or if its formula mentions a retired
constant. -/
theorem failsJustIf_assumeFact (c : Context) (f : Fact) :
    FailsJustIf (assumeFact f) c (BreachOr f) (c.Refuses f) := by
  cases h : Context.formulaOf f with
  | error e =>
      refine failsJustIf_of_atomic (atomic_assumeFact f) (fun _ => ?_) fun hright => ?_
      · exact ⟨e, .inr h, congrArg Prod.fst (assumeFact_unformed h c)⟩
      · exact absurd (.inl ⟨e, h⟩) hright
  | ok formula =>
      exact (failsJustIf_of_screened (atomic_assumeFact f) (c.screened_assumeFact h)).mono
        (fun _ => .inl) (c.refuses_iff h).symm

/-- **A fact cannot be committed** if a layer is open, if there is one of its name at the base, if
it has no formula, or if its formula mentions a retired constant. -/
theorem failsJustIf_commit (c : Context) (f : Fact) :
    FailsJustIf (commit f) c (BreachOr f)
      (c.opened ≠ [] ∨ (∃ g, c.base.find? f.name = some g) ∨ c.Refuses f) := by
  refine failsJustIf_of_atomic (atomic_commit f) (fun hwrong => ?_) fun hright => ?_
  · rw [commit, outcome_change]
    by_cases hopened : c.opened = []
    · have hdepth : c.depth = 0 := List.length_eq_zero_iff.2 hopened
      cases hfind : c.base.find? f.name with
      | some g =>
          refine ⟨.scope (.alreadyCommitted f.name), .inl ⟨_, rfl⟩, ?_⟩
          rw [Context.commit, if_neg (not_not_intro hdepth), hfind]
          rfl
      | none =>
          have hrefuses : c.Refuses f := by
            simpa [hopened, hfind] using hwrong
          rcases hrefuses with ⟨e, he⟩ | ⟨formula, h, hmentions⟩
          · -- the formula is looked for before anything is committed
            refine ⟨e, .inr he, ?_⟩
            rw [Context.commit, if_neg (not_not_intro hdepth), hfind, he]
            rfl
          · obtain ⟨what, names, hrefused, -⟩ :=
              (c.screened_commit h hdepth hfind).refused hmentions
            exact ⟨.scope (.leak what names c.current.name), .inl ⟨_, rfl⟩, by rw [hrefused]; rfl⟩
    · have hdepth : c.depth ≠ 0 := fun hzero => hopened (List.length_eq_zero_iff.1 hzero)
      refine ⟨.scope (.commitInside f.name c.depth c.current.name), .inl ⟨_, rfl⟩, ?_⟩
      rw [Context.commit, if_pos hdepth]
      rfl
  · obtain ⟨hopened, hright⟩ := not_or.1 hright
    obtain ⟨hnew, haccepts⟩ := not_or.1 hright
    have hfind : c.base.find? f.name = none :=
      Option.eq_none_iff_forall_not_mem.2 fun g hg => hnew ⟨g, hg⟩
    have hdepth : c.depth = 0 := List.length_eq_zero_iff.2 (not_not.1 hopened)
    obtain ⟨formula, h, hnone⟩ := Context.exists_of_not_refuses haccepts
    obtain ⟨c', hok⟩ := (c.screened_commit h hdepth hfind).accepted hnone
    exact ⟨(), by rw [commit, outcome_change, hok]; rfl⟩

/-- **A goal cannot be discharged** while another layer than its own is the innermost one. -/
theorem discharge_elsewhere {g : Goal} (h : c.current.serial ≠ g.layer.serial)
    (hints : List Formula) : ∃ fault, outcome (discharge g hints) c = (.error (.scope fault), c) :=
  ⟨_, by rw [outcome_discharge, if_neg h]⟩

/-- **When operations fail**, and that they change nothing then: closing a layer, assuming formulas
and facts, committing facts, and discharging goals while another layer is the innermost one. -/
theorem operations_fail_just_if (c : Context) :
    (∀ expected, FailsJustIf (pop expected) c Breach
        (c.opened = [] ∨ ∃ layer, expected = some layer ∧ ¬ c.Innermost layer)) ∧
      (∀ f label, FailsJustIf (assume f label) c Breach (c.MentionsRetired False f)) ∧
      (∀ f label, FailsJustIf (assumeHint f label) c Breach (c.MentionsRetired False f)) ∧
      (∀ f, FailsJustIf (assumeFact f) c (BreachOr f) (c.Refuses f)) ∧
      (∀ f, FailsJustIf (commit f) c (BreachOr f)
        (c.opened ≠ [] ∨ (∃ g, c.base.find? f.name = some g) ∨ c.Refuses f)) ∧
      (∀ f e, Context.formulaOf f = .error e → outcome (assumeFact f) c = (.error e, c)) ∧
      ∀ g hints, c.current.serial ≠ g.layer.serial →
        ∃ fault, outcome (discharge g hints) c = (.error (.scope fault), c) :=
  ⟨failsJustIf_pop c,
    fun f label => failsJustIf_of_screened (atomic_assume f label)
      (c.screened_assume { formula := f, label }),
    fun f label => failsJustIf_of_screened (atomic_assumeHint f label)
      (c.screened_assume { formula := f, label, hint := true }),
    failsJustIf_assumeFact c, failsJustIf_commit c, fun _ _ h => assumeFact_unformed h c,
    fun _ hints h => discharge_elsewhere h hints⟩

/-- A fact that mentions a retired constant. -/
def stale : Fact :=
  .plain "stale" (.atLeast (.int "w!0") 0)

/-- A fact that has no formula: its trigger is a variable. -/
def unformed : Fact :=
  .about "unformed" ["i"] (.lit true) (.atLeast (.int "i") 0) (some (.ofInts (.int "i") []))

/-- A goal about a retired constant, whose layer was closed. -/
def abandoned : Goal :=
  { claim := stale, rule := plainRule, witnesses := []
    layer := { serial := 1, name := "inner", depth := 1 } }

/-- Where no layer is open and a constant is retired, nothing can be closed, nothing can be said of
that constant, a fact without a formula can be neither assumed nor committed, and no goal of a
closed layer can be discharged; each attempt leaves the state as it was. -/
theorem operations_fail_retiring :
    Context.retiring.Reachable ∧
      (∃ e, outcome (pop none) Context.retiring = (.error e, Context.retiring)) ∧
      (∃ e, outcome (assume stale.formula "") Context.retiring = (.error e, Context.retiring)) ∧
      (∃ e, outcome (assumeFact stale) Context.retiring = (.error e, Context.retiring)) ∧
      (∃ e, outcome (commit stale) Context.retiring = (.error e, Context.retiring)) ∧
      (∃ e, Context.formulaOf unformed = .error e ∧
        outcome (assumeFact unformed) Context.retiring = (.error e, Context.retiring)) ∧
      (∃ e, outcome (commit unformed) Context.retiring = (.error e, Context.retiring)) ∧
      ∃ e, outcome (discharge abandoned []) Context.retiring = (.error e, Context.retiring) := by
  have hmentions : Context.retiring.MentionsRetired False stale.formula := by
    refine ⟨.int "w!0", ?_, Context.mem_retired_retiring.2 rfl⟩
    simp [stale, Fact.plain, Fact.formula, Fact.matrix, Formula.isTrue, Formula.atLeast,
      Expr.Occurs, Term.int, Symbol.int]
  have hstale : Context.retiring.Refuses stale := .inr ⟨stale.formula, rfl, hmentions⟩
  have hunformed : Context.retiring.Refuses unformed := .inl ⟨_, rfl⟩
  obtain ⟨hpop, hassume, -, hassumeFact, hcommit, hreason, hdischarge⟩ :=
    operations_fail_just_if Context.retiring
  obtain ⟨_, -, hpop⟩ := (hpop none).outcome_eq (.inl rfl)
  obtain ⟨_, -, hassume⟩ := (hassume _ "").outcome_eq hmentions
  obtain ⟨_, -, hassumeFact⟩ := (hassumeFact stale).outcome_eq hstale
  obtain ⟨_, -, hcommitStale⟩ := (hcommit stale).outcome_eq (.inr (.inr hstale))
  obtain ⟨_, -, hcommitUnformed⟩ := (hcommit unformed).outcome_eq (.inr (.inr hunformed))
  obtain ⟨_, hdischarge⟩ := hdischarge abandoned [] (by decide)
  exact ⟨Context.reachable_retiring, ⟨_, hpop⟩, ⟨_, hassume⟩, ⟨_, hassumeFact⟩,
    ⟨_, hcommitStale⟩, ⟨_, rfl, hreason unformed _ rfl⟩, ⟨_, hcommitUnformed⟩, ⟨_, hdischarge⟩⟩

/-- **A fact without a formula is refused** although it was accepted, no layer is open, its name is
new, and no retired constant occurs in its formula, be it in the pattern. -/
theorem unformed_refused :
    Context.retiring.Reachable ∧ unformed.checked = .ok unformed ∧ Context.retiring.opened = [] ∧
      Context.retiring.base.find? unformed.name = none ∧
      ¬ Context.retiring.MentionsRetired True unformed.formula ∧
      (∃ e, outcome (assumeFact unformed) Context.retiring = (.error e, Context.retiring)) ∧
      ∃ e, outcome (commit unformed) Context.retiring = (.error e, Context.retiring) := by
  have hformula : Context.formulaOf unformed = .error (.fact (.form .pattern)) := rfl
  have hcovered := Fact.missing_eq_nil_iff.1 (show unformed.missing = [] by decide +kernel)
  have hnone : ¬ Context.retiring.MentionsRetired True unformed.formula := by
    rintro ⟨x, hx, hretired⟩
    obtain ⟨hoccurs, hvar⟩ := (Fact.occurs_formula_iff unformed).1 hx
    refine hvar (List.mem_singleton.2 ?_)
    rcases hoccurs with hguard | hbody | ⟨-, -, t, ht, htrigger⟩
    · exact hguard.elim
    · exact hbody.resolve_right id
    · obtain rfl := List.mem_singleton.1 ht
      exact htrigger
  obtain ⟨_, -, hcommit⟩ := (failsJustIf_commit Context.retiring unformed).outcome_eq
    (.inr (.inr (.inl ⟨_, hformula⟩)))
  exact ⟨Context.reachable_retiring, Fact.checked_eq_ok_iff.2 hcovered, rfl, rfl, hnone,
    ⟨_, assumeFact_unformed hformula _⟩, ⟨_, hcommit⟩⟩

end Proof

end CandyCircle
