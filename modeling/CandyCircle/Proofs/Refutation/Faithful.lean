/-
**Refutation is faithful.**

The query of a claim has no model exactly if the claim follows from what is active when the claim is
taken up: whoever refutes the query has proved the claim, and a claim that follows can be refuted,
as far as any solver can.  Fresh constants stand for all values of the variables, since nothing that
is active speaks of them.  Hints change nothing if they follow from what the query asserts besides.

This holds in every state that a run can reach, inside as many layers as may be open, and for every
claim, with or without variables and with or without a guard.

Main definitions:

* `CandyCircle.Logic.Predates` — syntax mentions no fresh constants from a number on;
* `CandyCircle.View.formulas` — what is active in a view;
* `CandyCircle.Context.Accepts` — nothing about a claim is refused, and the solver replies.

Main results:

* `CandyCircle.View.unsatisfiable_refutes_iff` — **the query of a claim has no model exactly if the
  claim follows from what is active**;
* `CandyCircle.Proof.prove_faithful` — **establishing a claim asks that query and no other, and
  concludes only what follows**.
-/
import CandyCircle.Proofs.Refutation.Reachable
import CandyCircle.Proofs.Refutation.Returning
import CandyCircle.Proofs.Refutation.Soundness

set_option autoImplicit false

namespace CandyCircle

open Logic

/-! ### Formulas from before -/

/-- Syntax mentions none of the fresh constants from a number on. -/
def Logic.Predates (n : Nat) {shape : Shape} (e : Expr shape) : Prop :=
  ∀ s ∈ e.constants, ¬ Fresh n s

theorem Logic.Predates.settled {n : Nat} {f : Formula} (h : Predates n f) : Settled n f :=
  settled_of_constants h

/-! ### The query of a claim -/

namespace View

variable {V : View} {claim : Fact} {hs : List Formula}

/-- What is active in a view. -/
def formulas (V : View) : List Formula :=
  (V.base ++ V.frames.reverse.flatten).map Assertion.formula

theorem forall_formulas {P : Formula → Prop} :
    (∀ f ∈ V.formulas, P f) ↔ ∀ a ∈ V.base ++ V.frames.reverse.flatten, P a.formula :=
  List.forall_mem_map

theorem formulas_conclude (V : View) (f : Fact) :
    (V.conclude f).formulas = V.formulas ++ [f.formula] := by
  unfold conclude
  split
  · rename_i hframes
    simp [formulas, commit, hframes, Fact.assertion]
  · rename_i top outer hframes
    simp [formulas, add, hframes, Fact.assertion]

@[simp] theorem formulas_declare (V : View) (n : Nat) : (V.declare n).formulas = V.formulas := rfl

/-- The formulas of a query besides what is active: the guard unless it says nothing, the negated
body, and the hints. -/
theorem formulas_refutes (V : View) (claim : Fact) (hs : List Formula) :
    (V.refutes claim [] hs).2.formulas = V.formulas ++
      ((claim.guardAssertions (claim.witnesses V.issued)).map Assertion.formula ++
        .not (V.body claim) :: hs) := by
  simp [refutes, question, Question.formulas, formulas, Fact.denial, body, Fact.hintAssertions,
    Function.comp_def]

/-- The guard of a claim is true if the query asserts it, and also if it is left out. -/
theorem satisfies_guard {I : Interpretation} {ρ : Valuation}
    (h : ∀ a ∈ claim.guardAssertions (claim.witnesses V.issued), Satisfies I ρ a.formula) :
    Satisfies I ρ (V.guard claim) := by
  unfold Fact.guardAssertions at h
  split at h
  · rename_i htrue
    rw [guard, Fact.satisfies_guardFor]
    exact Fact.satisfies_of_isTrue (Bool.and_eq_true_iff.1 htrue).2
  · exact h _ (List.mem_singleton.2 rfl)

/-- A claim is true of the constants of its query wherever it is true. -/
theorem body_of_satisfies {I : Interpretation} {ρ : Valuation}
    (h : Satisfies I ρ claim.formula) (hguard : Satisfies I ρ (V.guard claim)) :
    Satisfies I ρ (V.body claim) := by
  rw [guard, Fact.satisfies_guardFor] at hguard
  rw [body, Fact.satisfies_bodyFor]
  refine claim.satisfies_formula_iff.1 h _ ?_ hguard
  exact Fact.agreeOn_assigned fun a ha => Fact.mem_vars_of_mem_bind ha

/-- A claim that follows from what is active can be refuted, whatever its hints are. -/
theorem unsatisfiable_refutes (hentails : Entails V.formulas claim.formula) (hs : List Formula) :
    Unsatisfiable (V.refutes claim [] hs).2.formulas := by
  intro I ρ hmodel
  rw [formulas_refutes] at hmodel
  obtain ⟨hI, hrest⟩ := List.forall_mem_append.1 hmodel
  obtain ⟨hguard, hdenied⟩ := List.forall_mem_append.1 hrest
  refine hdenied _ List.mem_cons_self (body_of_satisfies (hentails I ρ hI) ?_)
  exact satisfies_guard (List.forall_mem_map.1 hguard)

/-- **The query of a claim has no model exactly if the claim follows from what is active**, whatever
its hints are, provided that they follow from the rest of the query. -/
theorem unsatisfiable_refutes_iff (hactive : ∀ f ∈ V.formulas, Settled V.issued f)
    (hclaim : claim.Settled V.issued)
    (hhints : ∀ e ∈ hs, Entails (V.formulas ++ [V.guard claim, .not (V.body claim)]) e) :
    Unsatisfiable (V.refutes claim [] hs).2.formulas ↔ Entails V.formulas claim.formula := by
  refine ⟨fun hunsat I ρ hI => satisfies_of_witnesses hclaim fun J hJ hguard => ?_,
    fun hentails => unsatisfiable_refutes hentails hs⟩
  -- what is active does not speak of the fresh constants, so it is still true
  have hJactive : ∀ f ∈ V.formulas, Satisfies J ρ f := fun f hf => hactive f hf hJ (hI f hf)
  by_contra hbody
  refine hbody (body_of_unsatisfiable hunsat ?_ (fun e he => hhints e he J ρ ?_) hguard)
  · rw [List.append_nil]
    exact forall_formulas.1 hJactive
  · refine List.forall_mem_append.2 ⟨hJactive, ?_⟩
    exact List.forall_mem_cons.2 ⟨hguard, List.forall_mem_singleton.2 hbody⟩

end View

/-! ### Reachable states -/

namespace Context

variable {c : Context} {claim : Fact} {hints : List Formula} {r : Reply}

theorem Shows.active {V : View} (h : c.Shows V) : c.session.active = V.formulas := by
  simp [Session.active, Session.question, Question.formulas, View.formulas, h.base, h.frames]

/-- Nothing about a claim is refused: its parts are formulas, neither they nor its hints mention
retired constants, and the solver replies. -/
structure Accepts (c : Context) (claim : Fact) (hints : List Formula) (r : Reply) : Prop where
  proper : claim.Proper
  guard : c.stance.Admits claim.guard
  body : c.stance.Admits claim.body
  hints : ∀ e ∈ hints, c.stance.Admits e
  /-- The solver replies. -/
  reply : c.session.reply = .ok r

theorem Orderly.stance_numbered (h : c.Orderly) : c.stance.Numbered :=
  fun name hname => h.numbered name (List.mem_append_left _ hname)

theorem Accepts.fit (h : c.Accepts claim hints r) (hc : c.Orderly) :
    Proof.Fit c.stance claim (claim.witnesses c.stance.issued) hints :=
  .of_constants h.proper hc.stance_numbered (List.forall_mem_append.2 ⟨h.guard, h.body⟩) h.hints

end Context

/-! ### Establishing a claim -/

namespace Proof

variable {c : Context} {claim : Fact} {hints : List Symbol → List Formula}

/-- **Refutation is faithful.**  Establishing a claim in a reachable state asks one query at most,
and exactly one if nothing about the claim is refused.  The query has no model exactly if the claim
follows from what is active before; so if the solver is honest and the proof returns, the claim
follows, and nothing else was concluded. -/
theorem prove_faithful (hc : c.Reachable)
    (hactive : ∀ f ∈ c.session.active, Predates c.issued.length f)
    (hguard : Predates c.issued.length claim.guard) (hbody : Predates c.issued.length claim.body)
    (hhints : ∀ e ∈ hints (claim.witnesses c.issued.length),
      Entails (c.session.active ++ [c.view.guard claim, .not (c.view.body claim)]) e)
    (rule : String) (concluding : Bool) :
    let ws := claim.witnesses c.issued.length
    let q := c.view.refutes claim [] (hints ws)
    let p := outcome (prove claim rule (fun ws => pure (hints ws)) concluding) c
    (Unsatisfiable q.2.formulas ↔ Entails c.session.active claim.formula) ∧
      (∃ xs, c.Heard p.2 xs ∧ xs.map Exchange.query <+: [q]) ∧
      (∀ r, c.Accepts claim (hints ws) r → ∃ x, c.Heard p.2 [x] ∧ x.query = q) ∧
      (p.1 = .ok () → p.2.Honest → Entails c.session.active claim.formula ∧
        p.2.session.active =
          c.session.active ++ if concluding then [claim.formula] else []) := by
  intro ws q p
  have hshows := hc.shows
  have hiff : Unsatisfiable q.2.formulas ↔ Entails c.session.active claim.formula := by
    rw [hshows.active] at hactive hhints ⊢
    exact View.unsatisfiable_refutes_iff (fun f hf => (hactive f hf).settled)
      ⟨hguard.settled, hbody.settled⟩ hhints
  have hruns : Asks (prove claim rule (fun ws => pure (hints ws)) concluding) c [q] fun _ xs c' =>
      (∀ x ∈ xs, x.Refuted) ∧ ∃ V', c'.Shows V' ∧ V' = if concluding
        then (c.view.declare claim.vars.length).conclude claim
        else c.view.declare claim.vars.length :=
    runs_proving (l := []) (discharges_asking c.view claim rule hints) c hshows
  refine ⟨hiff, hruns.exists_heard, fun r hr => ?_, fun hreturns hhonest => ?_⟩
  · have hall : AsksAll (prove claim rule (fun ws => pure (hints ws)) concluding) c.view c.stance
        [q] := asksAll_prove rule concluding rfl (hr.fit hc.orderly) hr.reply
    obtain ⟨xs, hheard, hxs⟩ := hall c hshows rfl
    obtain ⟨x, rfl, hx⟩ := List.map_eq_singleton_iff.1 hxs
    exact ⟨x, hheard, hx⟩
  · obtain ⟨⟨V', hshows', rfl⟩, hunsat⟩ := hruns.of_ok_outcome hreturns
    refine ⟨hiff.1 (hunsat hhonest q List.mem_cons_self), ?_⟩
    rw [hshows'.active, hshows.active]
    cases concluding with
    | false => simp
    | true => simp [View.formulas_conclude]

/-! ### A claim inside a layer -/

/-- A state inside a layer that fixes a natural number. -/
def fixedNumber : Context :=
  let opened := ((Context.start (Settings.options {}) []).push "case").2
  (opened.declare "k" .int).2.assertInside
    { formula := .atLeast (.int "k!0") 0, label := "k >= 0" }

theorem reachable_fixedNumber : fixedNumber.Reachable := by
  have hopened := (Context.Reachable.start (Settings.options {}) []).move (.push _ "case")
  refine (hopened.move (.declare _ "k" .int)).move (.assume (Context.assume_of_admits ?_))
  exact fun _ _ => List.not_mem_nil

theorem predates_fixedNumber : ∀ f ∈ fixedNumber.session.active, Predates 1 f := by
  refine List.forall_mem_singleton.2 fun s hs => ?_
  rw [List.mem_singleton.1 hs]
  exact not_fresh_of_lt (Nat.lt_succ_self 0) "k" .int

/-- The sum of that number and another natural number is one, too. -/
def sumNatural : Fact :=
  .about "sum" ["n"] (.atLeast (.int "n") 0) (.atLeast (Term.plus (.int "n") (.int "k!0")) 0) none

/-- That claim is asked about once, with a hint, and its query has no model. -/
theorem prove_faithful_sumNatural : fixedNumber.Reachable ∧
    ∃ x, fixedNumber.Heard (outcome (prove sumNatural plainRule
        (fun _ => pure [.atLeast (.int "k!0") 0]) true) fixedNumber).2 [x] ∧
      Unsatisfiable x.question.formulas := by
  have hk : ¬ Fresh 1 (.int "k!0") := not_fresh_of_lt (Nat.lt_succ_self 0) "k" .int
  have hn : ¬ Fresh 1 (.int "n") := not_fresh_of_plain (by decide) 1
  have hguard : Predates 1 sumNatural.guard := List.forall_mem_singleton.2 hn
  have hbody : Predates 1 sumNatural.body := by
    refine List.forall_mem_cons.2 ⟨hn, List.forall_mem_singleton.2 hk⟩
  have hhint : ∀ e ∈ [Formula.atLeast (.int "k!0") 0], Entails (fixedNumber.session.active ++
      [fixedNumber.view.guard sumNatural, .not (fixedNumber.view.body sumNatural)]) e := by
    exact List.forall_mem_singleton.2 fun I ρ hI => hI _ List.mem_cons_self
  obtain ⟨hiff, _, hasked, _⟩ := @prove_faithful fixedNumber sumNatural
    (fun _ => [.atLeast (.int "k!0") 0]) reachable_fixedNumber predates_fixedNumber hguard hbody
    hhint plainRule true
  obtain ⟨x, hheard, hx⟩ := hasked .exhausted ⟨⟨rfl, rfl⟩, fun _ _ => List.not_mem_nil,
    fun _ _ => List.not_mem_nil, fun _ _ _ _ => List.not_mem_nil, rfl⟩
  refine ⟨reachable_fixedNumber, x, hheard, ?_⟩
  rw [show x.question = _ from congrArg Prod.snd hx]
  refine hiff.2 fun I ρ hI => ?_
  have hk : 0 ≤ I.const .int "k!0" := hI _ List.mem_cons_self
  have hsum : ∀ n : Int, 0 ≤ n → 0 ≤ n + I.const .int "k!0" := fun n hn => Int.add_nonneg hn hk
  simpa [sumNatural, Fact.about, Fact.satisfies_formula] using hsum

end Proof

end CandyCircle
