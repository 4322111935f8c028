/-
**Proofs that complete.**

A proof that commits facts and asks afterwards may stop between two commits, so that there is no
saying of it what a failure leaves behind.  But if nothing is refused it does not fail: it returns,
and has then asked all its queries.  That is said here at once, from a state of which both is known,
what it shows and what it may be refused for.

Main definitions:

* `CandyCircle.Proof.Completes` — **a proof returns and has asked a list of queries**;
* `CandyCircle.Proof.Yields` — the same of a proof that asks nothing and changes nothing that
  matters.

Main results:

* `CandyCircle.Proof.Completes.of_runs` — a proof that asks nothing and returns completes;
* `CandyCircle.Proof.Completes.bind`, `CandyCircle.Proof.Completes.scope` — the parts of a proof,
  one after another and inside a layer;
* `CandyCircle.Proof.yields_mapM` — a value for each member of a list.
-/
import CandyCircle.Proofs.Refutation.Returning

set_option autoImplicit false

namespace CandyCircle

open Logic

/-- A fact about one integer has an instance for every integer term. -/
theorem Fact.instanceAt_of_vars {f : Fact} {name : String} (hvars : f.vars = [.int name])
    (hfault : f.matrixFault? = none) (t : IntTerm) :
    f.instanceAt [.int t] = .ok (f.matrixFor [.int t]) := by
  have hassign : Fact.assign? (.int name) (.int t) = some ⟨.int name, t⟩ := dif_pos rfl
  have has : f.assignments [.int t] = .ok [⟨.int name, t⟩] := by
    simp [assignments, hvars, hassign]
  have hinstance : f.instanceAt [.int t] = .ok (f.matrix.substitute [⟨.int name, t⟩]) := by
    simp [instanceAt, hfault, barring, has, Bind.bind, Except.bind, pure, Except.pure]
  exact hinstance.trans (congrArg Except.ok (eq_matrixFor hinstance))

/-- A query that was asked, with its answer. -/
def Exchange.said (x : Exchange) : Query × String :=
  (x.query, x.answer)

namespace Proof

variable {α β : Type} {V : View} {σ : Stance} {l l₁ l₂ : List (Query × String)}

/-! ### Completing -/

/-- **A proof returns and has asked a list of queries**, with these answers, from every state that
shows a view and has a stance. -/
def Completes (p : ProofM α) (V : View) (σ : Stance) (l : List (Query × String))
    (Q : α → View → Stance → Prop) : Prop :=
  ∀ c : Context, c.Shows V → c.stance = σ → ∃ a xs c', outcome p c = (.ok a, c') ∧
    c.Heard c' xs ∧ xs.map Exchange.said = l ∧ ∃ V', c'.Shows V' ∧ Q a V' c'.stance

/-- A proof asks nothing, returns a value and changes nothing that matters. -/
def Yields (p : ProofM α) (V : View) (σ : Stance) (a : α) : Prop :=
  Completes p V σ [] fun b V' σ' => b = a ∧ V' = V ∧ σ' = σ

theorem Completes.mono {p : ProofM α} {Q Q' : α → View → Stance → Prop}
    (h : Completes p V σ l Q) (hQ : ∀ a V' σ', Q a V' σ' → Q' a V' σ') :
    Completes p V σ l Q' := by
  intro c hc hσ
  obtain ⟨a, xs, c', hout, hheard, hl, V', hV', hQa⟩ := h c hc hσ
  exact ⟨a, xs, c', hout, hheard, hl, V', hV', hQ a V' _ hQa⟩

theorem Completes.of_runs {p : ProofM α} {Q : α → View → Prop} {Q' : α → Stance → Prop}
    (hp : Runs p V [] Q) (hr : Returns p σ Q') :
    Completes p V σ [] fun a V' σ' => Q a V' ∧ Q' a σ' := by
  intro c hc hσ
  subst hσ
  obtain ⟨a, xs, c', hout, hheard, hxs, ⟨-, V', hV', hQ⟩, hQ'⟩ := (hp c hc).of_returns hr
  obtain rfl := List.map_eq_nil_iff.1 hxs
  exact ⟨a, [], c', hout, hheard, rfl, V', hV', hQ, hQ'⟩

/-- **One proof after another.** -/
theorem Completes.bind {p : ProofM α} {f : α → ProofM β} {Q₁ : α → View → Stance → Prop}
    {Q : β → View → Stance → Prop} (hp : Completes p V σ l₁ Q₁)
    (hf : ∀ a V₁ σ₁, Q₁ a V₁ σ₁ → Completes (f a) V₁ σ₁ l₂ Q) :
    Completes (p >>= f) V σ (l₁ ++ l₂) Q := by
  intro c hc hσ
  obtain ⟨a, xs, c₁, hout, hheard, rfl, V₁, hV₁, hQ₁⟩ := hp c hc hσ
  obtain ⟨b, ys, c', hout', hheard', rfl, hQ⟩ := hf a V₁ _ hQ₁ c₁ hV₁ rfl
  refine ⟨b, xs ++ ys, c', ?_, hheard.trans hheard', List.map_append, hQ⟩
  rw [outcome_bind, hout]
  exact hout'

theorem Completes.next {p : ProofM α} {f : α → ProofM β} {Q₁ : α → View → Stance → Prop}
    {Q : β → View → Stance → Prop} (hp : Completes p V σ [] Q₁)
    (hf : ∀ a V₁ σ₁, Q₁ a V₁ σ₁ → Completes (f a) V₁ σ₁ l Q) : Completes (p >>= f) V σ l Q :=
  .bind hp hf

theorem Completes.ending {p : ProofM α} {f : α → ProofM β} {Q₁ : α → View → Stance → Prop}
    {Q : β → View → Stance → Prop} (hp : Completes p V σ l Q₁)
    (hf : ∀ a V₁ σ₁, Q₁ a V₁ σ₁ → Completes (f a) V₁ σ₁ [] Q) : Completes (p >>= f) V σ l Q := by
  have h := hp.bind hf
  rwa [List.append_nil] at h

/-- **A part of a proof inside a layer** completes if it completes on its own and leaves the layer
the innermost one. -/
theorem Completes.scope {name : String} {body : Layer → ProofM α}
    {Q : α → View → Stance → Prop}
    (hbody : ∀ layer : Layer, layer.serial = σ.openings + 1 →
      Completes (body layer) V.push σ.push l fun a V' σ' =>
        σ'.opened.head?.map Prod.fst = some (σ.openings + 1) ∧ Q a V'.pop σ'.pop) :
    Completes (scope name body) V σ l Q := by
  intro c hc hσ
  subst hσ
  obtain ⟨a, xs, c₁, hout, hheard, hl, V₁, hV₁, hhead, hQ⟩ :=
    hbody (c.push name).1 rfl (c.push name).2 (shows_push hc name) rfl
  have hopen : c₁.opened ≠ [] := by
    rintro hnil
    simp [Context.stance, hnil] at hhead
  refine ⟨a, xs, c₁.closeInnermost, outcome_scope hout hhead, ?_, hl, V₁.pop,
    shows_closeInnermost hV₁ hopen, by rwa [stance_closeInnermost]⟩
  simpa using ((heard_push c name).trans hheard).trans (heard_closeInnermost c₁)

/-- A query is asked, and the answer stands for a verdict. -/
theorem completes_checkRefuted {r : Reply} (hreply : σ.reply = .ok r) (name rule claim : String) :
    Completes (checkRefuted name rule claim) V σ [((name, V.question []), r.answer)]
      fun v V' σ' => v = .ofAnswer r.answer ∧ V' = V ∧ σ' = σ.answered := by
  intro c hc hσ
  obtain ⟨y, c', hout, hheard, hquery, hanswer, hshows⟩ :=
    outcome_checkRefuted hc (r := r) (by rw [← hσ] at hreply; exact hreply) name rule claim
  obtain ⟨v, c'', hout', hv, hstance⟩ := returns_checkRefuted hreply name rule claim c hσ
  rw [hout] at hout'
  cases hout'
  refine ⟨_, [y], c', hout, hheard, ?_, V, hshows, hv, rfl, hstance⟩
  rw [List.map_singleton, Exchange.said, hquery, hanswer]

/-! ### Values -/

theorem Yields.bind {p : ProofM α} {f : α → ProofM β} {a : α} {Q : β → View → Stance → Prop}
    (hp : Yields p V σ a) (hf : Completes (f a) V σ l Q) : Completes (p >>= f) V σ l Q := by
  refine Completes.next hp fun b V₁ σ₁ h => ?_
  obtain ⟨rfl, rfl, rfl⟩ := h
  exact hf

theorem yields_pure (a : α) : Yields (pure a) V σ a :=
  (Completes.of_runs (runs_pure a) (returns_pure a)).mono fun _ _ _ h => ⟨h.1.1, h.1.2, h.2.2⟩

theorem yields_require {r : Except Failure α} {a : α} (h : r = .ok a) :
    Yields (require r) V σ a :=
  (Completes.of_runs (runs_require r) (returns_require h)).mono fun _ _ _ h =>
    ⟨h.2.1, h.1.2, h.2.2⟩

theorem yields_mapM {g : α → ProofM β} {value : α → β} {xs : List α}
    (h : ∀ x ∈ xs, Yields (g x) V σ (value x)) : Yields (xs.mapM g) V σ (xs.map value) := by
  induction xs with
  | nil => exact yields_pure []
  | cons x rest ih =>
      obtain ⟨hx, hrest⟩ := List.forall_mem_cons.1 h
      rw [List.mapM_cons, List.map_cons]
      exact hx.bind ((ih hrest).bind (yields_pure _))

theorem yields_instanceOf {f : Fact} {name : String} (hvars : f.vars = [.int name])
    (hfault : f.matrixFault? = none) (t : IntTerm) :
    Yields (instanceOf f [t]) V σ (f.matrixFor [.int t]) :=
  yields_require (congrArg (Except.mapError Failure.fact) (f.instanceAt_of_vars hvars hfault t))

end Proof

end CandyCircle
