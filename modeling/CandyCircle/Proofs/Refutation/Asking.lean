/-
**What a proof asks.**

A proof that returns has asked a certain list of queries, and a proof that fails has asked the
beginning of that list and left the base as it was.  Nothing is said of when a proof fails.

Main definitions:

* `CandyCircle.Proof.Asks` — **a proof asks a list of queries**;
* `CandyCircle.Proof.Runs` — the same from everything that a state shows, all queries being
  refuted.

Main results:

* `CandyCircle.Proof.Runs.bind`, `CandyCircle.Proof.runs_scope` — what the parts of a proof ask, one
  after another and inside a layer;
* `CandyCircle.Proof.runs_declare`, `CandyCircle.Proof.runs_assume`, `CandyCircle.Proof.runs_commit`
  and the other lemmas of this form — single operations;
* `CandyCircle.Proof.inv_of_assume`, `CandyCircle.Proof.inv_of_assumeFact`,
  `CandyCircle.Proof.inv_of_commit` — what is known once such an operation was not refused.
-/
import CandyCircle.Proofs.Logic.Search
import CandyCircle.Proofs.Refutation.View

set_option autoImplicit false

namespace CandyCircle

open Logic

/-! ### What a proof asks -/

namespace Proof

variable {α β : Type}

/-- **A proof asks a list of queries.**  If it returns it has asked all of them, and if it fails a
part from the beginning, and the base is as it was. -/
def Asks (p : ProofM α) (c : Context) (l : List Query)
    (Q : α → List Exchange → Context → Prop) : Prop :=
  match outcome p c with
  | (.ok a, c') => ∃ xs, c.Heard c' xs ∧ xs.map Exchange.query = l ∧ Q a xs c'
  | (.error _, c') => (∃ xs, c.Heard c' xs ∧ xs.map Exchange.query <+: l) ∧ c.SameBase c'

/-- From whatever shows a view, a proof asks a list of queries, all of which are refuted if it
returns. -/
def Runs (p : ProofM α) (V : View) (l : List Query) (Q : α → View → Prop) : Prop :=
  ∀ c, c.Shows V → Asks p c l fun a xs c' =>
    (∀ x ∈ xs, x.Refuted) ∧ ∃ V', c'.Shows V' ∧ Q a V'

section Rules

variable {c : Context} {l : List Query}

/-- A proof that returns and asks nothing. -/
theorem Asks.of_ok {p : ProofM α} {Q : α → List Exchange → Context → Prop} {a : α} {c' : Context}
    (h : outcome p c = (.ok a, c')) (hheard : c.Heard c' []) (hQ : Q a [] c') : Asks p c [] Q := by
  rw [Asks, h]
  exact ⟨[], hheard, rfl, hQ⟩

/-- A proof that fails at once. -/
theorem Asks.of_error {p : ProofM α} {Q : α → List Exchange → Context → Prop} {e : Failure}
    (h : outcome p c = (.error e, c)) : Asks p c l Q := by
  rw [Asks, h]
  exact ⟨⟨[], .refl c, List.nil_prefix⟩, .refl c⟩

theorem Asks.mono {p : ProofM α} {Q Q' : α → List Exchange → Context → Prop} (h : Asks p c l Q)
    (hQ : ∀ a xs c', Q a xs c' → Q' a xs c') : Asks p c l Q' := by
  unfold Asks at *
  split at h
  · obtain ⟨xs, hxs, hl, hQa⟩ := h
    exact ⟨xs, hxs, hl, hQ _ _ _ hQa⟩
  · exact h

/-- **One proof after another** asks first what the first one asks and then what the other one
asks. -/
theorem Asks.bind (l₁ l₂ : List Query) {p : ProofM α} {f : α → ProofM β}
    {Q₁ : α → List Exchange → Context → Prop}
    {Q : β → List Exchange → Context → Prop} (hp : Asks p c l₁ Q₁)
    (hf : ∀ a xs c₁, Q₁ a xs c₁ →
      c.SameBase c₁ ∧ Asks (f a) c₁ l₂ fun b ys c' => Q b (xs ++ ys) c') :
    Asks (p >>= f) c (l₁ ++ l₂) Q := by
  unfold Asks at hp ⊢
  rw [outcome_bind]
  generalize outcome p c = r at hp ⊢
  obtain ⟨r, c₁⟩ := r
  cases r with
  | error e =>
      -- the first proof fails, and the other one does not run
      obtain ⟨⟨xs, hxs, hl⟩, hbase⟩ := hp
      exact ⟨⟨xs, hxs, hl.trans (List.prefix_append _ _)⟩, hbase⟩
  | ok a =>
      obtain ⟨xs, hxs, rfl, hQ₁⟩ := hp
      obtain ⟨hbase, hf⟩ := hf a xs c₁ hQ₁
      unfold Asks at hf
      simp only
      generalize outcome (f a) c₁ = r at hf ⊢
      obtain ⟨r, c'⟩ := r
      cases r with
      | error e =>
          -- the second proof fails, after all that the first one asked
          obtain ⟨⟨ys, hys, hl⟩, hbase'⟩ := hf
          refine ⟨⟨xs ++ ys, hxs.trans hys, ?_⟩, hbase.trans hbase'⟩
          rw [List.map_append]
          exact (List.prefix_append_right_inj _).2 hl
      | ok b =>
          obtain ⟨ys, hys, rfl, hQ⟩ := hf
          exact ⟨xs ++ ys, hxs.trans hys, List.map_append, hQ⟩

end Rules

section Views

variable {V : View} {l : List Query}

theorem Runs.mono {p : ProofM α} {Q Q' : α → View → Prop} (h : Runs p V l Q)
    (hQ : ∀ a V', Q a V' → Q' a V') : Runs p V l Q' := by
  intro c hc
  refine (h c hc).mono fun a xs c' hc' => ?_
  obtain ⟨href, V', hV', hQa⟩ := hc'
  exact ⟨href, V', hV', hQ a V' hQa⟩

/-- **One proof after another.** -/
theorem Runs.bind (l₁ l₂ : List Query) {p : ProofM α} {f : α → ProofM β} {Q₁ : α → View → Prop}
    {Q : β → View → Prop} (hp : Runs p V l₁ Q₁)
    (hf : ∀ a V₁, Q₁ a V₁ → V.SameBase V₁ ∧ Runs (f a) V₁ l₂ Q) :
    Runs (p >>= f) V (l₁ ++ l₂) Q := by
  intro c hc
  refine .bind l₁ l₂ (hp c hc) fun a xs c₁ hc₁ => ?_
  obtain ⟨href, V₁, hV₁, hQ₁⟩ := hc₁
  obtain ⟨hbase, hf⟩ := hf a V₁ hQ₁
  refine ⟨hc.sameBase hV₁ hbase, (hf c₁ hV₁).mono fun b ys c' hc' => ?_⟩
  obtain ⟨href', hQ⟩ := hc'
  refine ⟨fun x hx => ?_, hQ⟩
  rcases List.mem_append.1 hx with hx | hx
  · exact href x hx
  · exact href' x hx

/-- One proof after another, the first of which asks nothing. -/
theorem Runs.next {p : ProofM α} {f : α → ProofM β} {Q₁ : α → View → Prop} {Q : β → View → Prop}
    (hp : Runs p V [] Q₁) (hf : ∀ a V₁, Q₁ a V₁ → V.SameBase V₁ ∧ Runs (f a) V₁ l Q) :
    Runs (p >>= f) V l Q :=
  .bind [] l hp hf

/-- What comes last may change what is returned, if it cannot fail and leaves the state alone. -/
theorem Runs.ending {p : ProofM α} {f : α → ProofM β} {g : α → β} {Q : α → View → Prop}
    (h : Runs p V l Q)
    (hf : ∀ a c' V', c'.Shows V' → Q a V' → outcome (f a) c' = (.ok (g a), c')) :
    Runs (p >>= f) V l fun b V' => ∃ a, b = g a ∧ Q a V' := by
  intro c hc
  have h := h c hc
  unfold Asks at h ⊢
  rw [outcome_bind]
  generalize outcome p c = r at h ⊢
  obtain ⟨r, c'⟩ := r
  cases r with
  | error e => exact h
  | ok a =>
      obtain ⟨xs, hxs, hl, href, V', hV', hQ⟩ := h
      simp only
      rw [hf a c' V' hV' hQ]
      exact ⟨xs, hxs, hl, href, V', hV', a, rfl, hQ⟩

/-- What is returned last may be replaced. -/
theorem Runs.returning {p : ProofM α} {Q : α → View → Prop} (h : Runs p V l Q) (b : β) :
    Runs (p >>= fun _ => pure b) V l fun b' V' => b' = b ∧ ∃ a, Q a V' := by
  refine (h.ending (g := fun _ => b) fun _ c' _ _ _ => outcome_pure b c').mono fun b' V' h => ?_
  obtain ⟨a, hb, hQ⟩ := h
  exact ⟨hb, a, hQ⟩

theorem runs_pure (a : α) : Runs (pure a) V [] fun b V' => b = a ∧ V' = V :=
  fun c hc => Asks.of_ok (outcome_pure a c) (.refl c) ⟨by simp, V, hc, rfl, rfl⟩

/-! ### Single operations -/

/-- A change of the state that leaves ledger and base alone. -/
theorem runs_change {f : Context → Except Failure (α × Context)} {Q : α → View → Prop}
    (h : ∀ c a c', c.Shows V → f c = .ok (a, c') → c.Heard c' [] ∧ ∃ V', c'.Shows V' ∧ Q a V') :
    Runs (change f) V [] Q := by
  intro c hc
  have hout := outcome_change f c
  cases hf : f c with
  | error e =>
      rw [hf] at hout
      exact .of_error hout
  | ok r =>
      obtain ⟨a, c'⟩ := r
      rw [hf] at hout
      obtain ⟨hheard, hQ⟩ := h c a c' hc hf
      exact .of_ok hout hheard ⟨by simp, hQ⟩

/-- A value that may be refused. -/
theorem runs_require (r : Except Failure α) :
    Runs (require r) V [] fun a V' => r = .ok a ∧ V' = V := by
  refine runs_change fun c a c' hc hf => ?_
  cases r with
  | error e => cases hf
  | ok b =>
      cases hf
      exact ⟨.refl c, V, hc, rfl, rfl⟩

/-- A value read off the state. -/
theorem runs_look (f : Context → α) : Runs (look f) V [] fun _ V' => V' = V := by
  refine runs_change fun c a c' hc hf => ?_
  cases hf
  exact ⟨.refl c, V, hc, rfl⟩

/-- The visible fact of a name, while no layer is open. -/
theorem runs_fact (hV : V.frames = []) (name : String) :
    Runs (fact name) V [] fun f V' => V.find? name = some f ∧ V' = V := by
  refine runs_change fun c f c' hc hf => ?_
  have hopened : c.opened = [] := List.length_eq_zero_iff.1 (by rw [hc.depth, hV]; rfl)
  cases hfact : c.fact? name with
  | none =>
      rw [Context.fact, hfact] at hf
      cases hf
  | some g =>
      rw [Context.fact, hfact] at hf
      cases hf
      refine ⟨.refl c, V, hc, ?_, rfl⟩
      have : c.base.find? name = some f := by
        simpa [Context.fact?, Context.layers, hopened] using hfact
      rwa [Layer.find?, hc.facts] at this

/-- A layer is open when there is a frame for it. -/
theorem opened_ne_nil {c : Context} (hc : c.Shows V) (hV : V.frames ≠ []) : c.opened ≠ [] := by
  intro h
  have := hc.depth
  rw [h] at this
  exact hV (List.length_eq_zero_iff.1 this.symm)

/-- A change of the innermost layer that leaves the facts of the base alone. -/
theorem shows_updateCurrent {c : Context} (hc : c.Shows V) {f : Layer → Layer}
    (hf : (c.updateCurrent f).base.facts = c.base.facts) : (c.updateCurrent f).Shows V where
  facts := hf.trans hc.facts
  committed := by rw [Context.committed_updateCurrent, hc.committed]
  base := by rw [Context.session_updateCurrent, hc.base]
  frames := by rw [Context.session_updateCurrent, hc.frames]
  depth := by rw [Context.length_opened_updateCurrent, hc.depth]
  issued := by rw [Context.issued_updateCurrent, hc.issued]

/-- A fresh constant. -/
theorem runs_declare (stem : String) (kind : Kind) :
    Runs (declare stem kind) V [] fun s V' =>
      s = ⟨Context.freshName stem V.issued, kind⟩ ∧ V' = V.declare 1 := by
  refine runs_change fun c s c' hc hf => ?_
  cases hf
  have hc' := shows_updateCurrent hc (c.facts_updateCurrent
    (fun l => { l with symbols := l.symbols ++ [Context.freshName stem c.issued.length] })
    fun _ => rfl)
  refine ⟨.of_eq (by simp) (by simp), V.declare 1, ?_, by rw [← hc.issued], rfl⟩
  exact ⟨hc'.facts, hc'.committed, hc'.base, hc'.frames, hc'.depth,
    by simp [View.declare, hc.issued]⟩

/-- An assertion made inside a layer. -/
theorem shows_assertInside {c : Context} (hc : c.Shows V) (hV : V.frames ≠ []) (a : Assertion) :
    (c.assertInside a).Shows (V.add [a]) := by
  obtain ⟨top, outer, hframes⟩ := List.exists_cons_of_ne_nil hV
  have hsession : c.session.frames = top :: outer := hc.frames.trans hframes
  have hadd : Context.Shows { c with session := c.session.add a } (V.add [a]) := by
    rw [View.add, hframes]
    refine ⟨hc.facts, hc.committed, ?_, ?_, ?_, hc.issued⟩
    · rw [← hc.base]
      exact c.session.base_add (by rw [hsession]; exact List.cons_ne_nil _ _)
    · simp [Session.add, hsession]
    · rw [hc.depth, hframes]
      rfl
  exact shows_updateCurrent hadd (Context.facts_updateCurrent _ _ fun _ => rfl)

theorem heard_assertInside (c : Context) (a : Assertion) : c.Heard (c.assertInside a) [] :=
  .of_eq (by simp [Context.assertInside]) (by simp [Context.assertInside])

/-- What is not refused mentions no retired constants. -/
theorem not_retired_of_refuseLeaks {c : Context} {f : Formula} {what : String}
    (h : c.refuseLeaks f what = .ok ()) : ∀ name ∈ f.names, name ∉ c.retired := by
  intro name hname hretired
  unfold Context.refuseLeaks at h
  split at h
  · rename_i hleaks
    have hmem : name ∈ c.leaks f :=
      (mem_sortedNames _ _).2 (List.mem_filter.2
        ⟨List.mem_map.2 (mem_names_iff.1 hname), by simpa using hretired⟩)
    rw [hleaks] at hmem
    cases hmem
  · cases h

/-- **What is assumed** mentions no retired constants, and is asserted. -/
theorem inv_of_assume {c c' : Context} {a : Assertion} (h : c.assume a = .ok c') :
    (∀ name ∈ a.formula.names, name ∉ c.retired) ∧ c' = c.assertInside a := by
  unfold Context.assume at h
  cases hleaks : c.refuseLeaks a.formula
      ("assumption " ++ if a.label.isEmpty then Term.display a.formula else a.label) with
  | error e =>
      rw [hleaks] at h
      cases h
  | ok u =>
      rw [hleaks] at h
      cases h
      exact ⟨not_retired_of_refuseLeaks hleaks, rfl⟩

theorem eq_of_assume {c c' : Context} {a : Assertion} (h : c.assume a = .ok c') :
    c' = c.assertInside a :=
  (inv_of_assume h).2

/-- An assertion that is assumed inside a layer. -/
theorem runs_changeAssume (hV : V.frames ≠ []) (a : Assertion) :
    Runs (change fun c => (c.assume a).map ((), ·)) V [] fun _ V' => V' = V.add [a] := by
  refine runs_change fun c u c' hc hf => ?_
  cases h : c.assume a with
  | error e =>
      rw [h] at hf
      cases hf
  | ok c'' =>
      rw [h] at hf
      cases hf
      rw [eq_of_assume h]
      exact ⟨heard_assertInside _ _, _, shows_assertInside hc hV _, rfl⟩

/-- A formula assumed inside a layer. -/
theorem runs_assume (hV : V.frames ≠ []) (f : Formula) (label : String) :
    Runs (assume f label) V [] fun _ V' => V' = V.add [{ formula := f, label }] :=
  runs_changeAssume hV _

/-- A hint assumed inside a layer. -/
theorem runs_assumeHint (hV : V.frames ≠ []) (f : Formula) (label : String) :
    Runs (assumeHint f label) V [] fun _ V' =>
      V' = V.add [{ formula := f, label, hint := true }] :=
  runs_changeAssume hV _

theorem add_add (as bs : List Assertion) : (V.add as).add bs = V.add (as ++ bs) := by
  unfold View.add
  cases hV : V.frames with
  | nil => simp [hV]
  | cons top outer => simp

theorem frames_add_ne_nil (hV : V.frames ≠ []) (as : List Assertion) : (V.add as).frames ≠ [] := by
  unfold View.add
  split <;> simp_all

theorem sameBase_add (as : List Assertion) : V.SameBase (V.add as) := by
  unfold View.add
  split <;> exact ⟨rfl, rfl, rfl⟩

theorem sameBase_add_append (as bs : List Assertion) : (V.add as).SameBase (V.add (as ++ bs)) := by
  rw [← add_add]
  exact sameBase_add bs

/-- Hints assumed inside a layer. -/
theorem runs_assumeHints (label : String) (formulas : List Formula) :
    ∀ {V : View}, V.frames ≠ [] → Runs (assumeHints formulas label) V [] fun _ V' =>
      V' = V.add (formulas.map fun f => { formula := f, label, hint := true }) := by
  induction formulas with
  | nil =>
      intro V hV
      refine (runs_pure ()).mono fun _ V' h => ?_
      rw [h.2]
      obtain ⟨top, outer, hframes⟩ := List.exists_cons_of_ne_nil hV
      cases V
      simp_all [View.add]
  | cons f rest ih =>
      intro V hV
      refine (runs_assumeHint hV f label).next fun _ V₁ h₁ => ?_
      subst h₁
      refine ⟨sameBase_add _, (ih (frames_add_ne_nil hV _)).mono fun _ V' h => ?_⟩
      rw [h, add_add]
      rfl

/-- A result whose fault would be reworded is the result itself. -/
theorem ok_of_mapError {ε ε' : Type} {r : Except ε α} {g : ε → ε'} {a : α}
    (h : r.mapError g = .ok a) : r = .ok a := by
  cases r with
  | error e => cases h
  | ok b =>
      cases h
      rfl

/-- Only the innermost layer can be closed. -/
theorem eq_of_pop {c c' : Context} {expected : Option Layer} {layer : Layer}
    (h : c.pop expected = .ok (layer, c')) : c.opened ≠ [] ∧ c' = c.closeInnermost := by
  unfold Context.pop at h
  split at h
  · cases h
  · rename_i hopened
    refine ⟨by rw [hopened]; exact List.cons_ne_nil _ _, ?_⟩
    split at h
    · split at h <;> cases h
      rfl
    · cases h
      rfl

/-- **A fact that is assumed** mentions no retired constants, and is asserted and registered in the
innermost layer. -/
theorem inv_of_assumeFact {c c' : Context} {f : Fact} (h : c.assumeFact f = .ok c') :
    (∀ name ∈ f.formula.names, name ∉ c.retired) ∧
      c' = (c.assertInside f.assertion).updateCurrent fun l => l.register f := by
  unfold Context.assumeFact at h
  cases hformula : Context.formulaOf f with
  | error e => simp [hformula, Bind.bind, Except.bind] at h
  | ok e =>
      obtain rfl := Fact.eq_formula (ok_of_mapError hformula)
      cases hassume : c.assume { formula := f.formula, label := f.name } with
      | error e => simp [hformula, hassume, Bind.bind, Except.bind] at h
      | ok c'' =>
          obtain ⟨hnames, rfl⟩ := inv_of_assume hassume
          simp only [hformula, hassume, Bind.bind, Except.bind, pure, Except.pure,
            Except.ok.injEq] at h
          exact ⟨hnames, h.symm⟩

theorem eq_of_assumeFact {c c' : Context} {f : Fact} (h : c.assumeFact f = .ok c') :
    c' = (c.assertInside f.assertion).updateCurrent fun l => l.register f :=
  (inv_of_assumeFact h).2

/-- A fact assumed inside a layer. -/
theorem runs_assumeFact (hV : V.frames ≠ []) (f : Fact) :
    Runs (assumeFact f) V [] fun _ V' => V' = V.add [f.assertion] := by
  refine runs_change fun c u c' hc hf => ?_
  cases h : c.assumeFact f with
  | error e =>
      rw [h] at hf
      cases hf
  | ok c'' =>
      rw [h] at hf
      cases hf
      rw [eq_of_assumeFact h]
      have hshows := shows_assertInside hc hV f.assertion
      -- a layer is open, so the fact is not registered at the base
      have hopen := opened_ne_nil hshows (frames_add_ne_nil hV _)
      have hreg := shows_updateCurrent hshows (f := (Layer.register · f))
        (congrArg Layer.facts (Context.base_updateCurrent _ _ hopen))
      exact ⟨.of_eq (by simp [Context.assertInside]) (by simp [Context.assertInside]), _, hreg, rfl⟩

/-- Registering a fact under a new name appends it. -/
theorem put_of_find?_eq_none {facts : List (String × Fact)} {f : Fact}
    (h : facts.find? (fun entry => entry.1 == f.name) = none) :
    Layer.put facts f = facts ++ [(f.name, f)] := by
  induction facts with
  | nil => rfl
  | cons entry rest ih =>
      rw [List.find?_cons] at h
      split at h
      · cases h
      · rename_i hne
        have hne : entry.1 ≠ f.name := by simpa using hne
        rw [Layer.put, if_neg hne, ih h]
        rfl

/-- **A fact is committed** while no layer is open and its name is new at the base.  It mentions no
retired constants, and is asserted and registered at the base. -/
theorem inv_of_commit {c c' : Context} {f : Fact} (h : c.commit f = .ok c') :
    c.opened = [] ∧ c.base.find? f.name = none ∧ (∀ name ∈ f.formula.names, name ∉ c.retired) ∧
      c' = { c with
        session := c.session.add f.assertion
        base := c.base.register f
        committed := c.committed ++ [f.name] }.logged .debug .context ("commit " ++ f.name) := by
  have hopened : c.opened = [] := by
    by_contra hne
    unfold Context.commit at h
    rw [if_pos (by simpa [Context.depth] using hne)] at h
    cases h
  unfold Context.commit at h
  rw [if_neg (by simp [Context.depth, hopened])] at h
  cases hfind : c.base.find? f.name with
  | some g => simp [hfind, throw, throwThe, MonadExceptOf.throw, Bind.bind, Except.bind] at h
  | none =>
      cases hformula : Context.formulaOf f with
      | error e => simp [hfind, hformula, Bind.bind, Except.bind] at h
      | ok e =>
          obtain rfl := Fact.eq_formula (ok_of_mapError hformula)
          cases hleaks : c.refuseLeaks f.formula ("fact '" ++ f.name ++ "'") with
          | error fault => simp [hfind, hformula, hleaks, Bind.bind, Except.bind] at h
          | ok u =>
              simp [hfind, hformula, hleaks, Bind.bind, Except.bind, pure, Except.pure] at h
              exact ⟨hopened, rfl, not_retired_of_refuseLeaks hleaks, h.symm⟩

/-- A fact committed while no layer is open. -/
theorem runs_commit (hV : V.frames = []) (f : Fact) :
    Runs (commit f) V [] fun _ V' => V' = V.commit f := by
  refine runs_change fun c u c' hc hf => ?_
  have hopened : c.opened = [] := List.length_eq_zero_iff.1 (by rw [hc.depth, hV]; rfl)
  have hframes : c.session.frames = [] := by rw [hc.frames, hV]
  cases h : c.commit f with
  | error e =>
      rw [h] at hf
      cases hf
  | ok c'' =>
      rw [h] at hf
      cases hf
      obtain ⟨-, hfind, -, rfl⟩ := inv_of_commit h
      have hput : Layer.put c.base.facts f = c.base.facts ++ [(f.name, f)] :=
        put_of_find?_eq_none (by simpa [Layer.find?] using hfind)
      refine ⟨.of_eq rfl (by simp [Context.logged]), V.commit f, ?_, rfl⟩
      refine ⟨?_, ?_, ?_, ?_, ?_, hc.issued⟩
      · change Layer.put c.base.facts f = V.facts ++ [(f.name, f)]
        rw [hput, hc.facts]
      · simp [Context.logged, View.commit, hc.committed]
      · simp [Context.logged, Session.add, hframes, View.commit, hc.base, Fact.assertion]
      · simp [Context.logged, Session.add, Session.note, hframes, View.commit, hV]
      · simp [Context.logged, hopened, View.commit, hV]

/-- A fact concluded. -/
theorem runs_conclude (f : Fact) : Runs (conclude f) V [] fun _ V' => V' = V.conclude f := by
  cases hV : V.frames with
  | nil =>
      have hconclude : V.conclude f = V.commit f := by rw [View.conclude, hV]
      rw [hconclude]
      intro c hc
      have hdepth : c.depth = 0 := by rw [Context.depth, hc.depth, hV]; rfl
      have := runs_commit hV f c hc
      rwa [Asks, show outcome (conclude f) c = outcome (commit f) c by
        rw [conclude, commit, outcome_change, outcome_change, Context.conclude, if_pos hdepth]]
  | cons top outer =>
      have hconclude : V.conclude f = V.add [f.assertion] := by rw [View.conclude, hV]
      rw [hconclude]
      intro c hc
      have hne : V.frames ≠ [] := by rw [hV]; exact List.cons_ne_nil _ _
      have hdepth : c.depth ≠ 0 := by rw [Context.depth, hc.depth, hV]; simp
      have := runs_assumeFact hne f c hc
      rwa [Asks, show outcome (conclude f) c = outcome (assumeFact f) c by
        rw [conclude, assumeFact, outcome_change, outcome_change, Context.conclude, if_neg hdepth]]

/-! ### Layers -/

theorem shows_push {c : Context} (hc : c.Shows V) (name : String) :
    (c.push name).2.Shows V.push where
  facts := hc.facts
  committed := hc.committed
  base := hc.base
  frames := congrArg (List.cons []) hc.frames
  depth := congrArg (· + 1) hc.depth
  issued := hc.issued

theorem heard_push (c : Context) (name : String) : c.Heard (c.push name).2 [] :=
  .of_eq rfl (by simp [Context.push, Context.logged])

theorem heard_closeInnermost (c : Context) : c.Heard c.closeInnermost [] := by
  unfold Context.closeInnermost
  split
  · exact .refl c
  · exact .of_eq rfl (by simp [Context.logged])

theorem sameBase_closeInnermost (c : Context) : c.SameBase c.closeInnermost := by
  unfold Context.closeInnermost
  split <;> exact ⟨rfl, rfl, rfl⟩

theorem shows_closeInnermost {c : Context} (hc : c.Shows V) (hne : c.opened ≠ []) :
    c.closeInnermost.Shows V.pop := by
  obtain ⟨l, outer, hopened⟩ := List.exists_cons_of_ne_nil hne
  have hdepth := hc.depth
  unfold Context.closeInnermost
  rw [hopened] at hdepth ⊢
  refine ⟨hc.facts, hc.committed, hc.base, congrArg List.tail hc.frames, ?_, hc.issued⟩
  change outer.length = V.frames.tail.length
  simp at hdepth ⊢
  omega

/-- Closing layers asks nothing and leaves the base alone. -/
theorem heard_closeMany (n : Nat) : ∀ c : Context,
    c.Heard (Context.closeMany n c) [] ∧ c.SameBase (Context.closeMany n c) := by
  induction n with
  | zero => exact fun c => ⟨.refl c, .refl c⟩
  | succ n ih =>
      intro c
      obtain ⟨hheard, hbase⟩ := ih c.closeInnermost
      exact ⟨(heard_closeInnermost c).trans hheard, (sameBase_closeInnermost c).trans hbase⟩

theorem heard_unwind (c : Context) (layer : Layer) :
    c.Heard (c.unwind layer) [] ∧ c.SameBase (c.unwind layer) := by
  unfold Context.unwind
  split
  · exact ⟨.refl c, .refl c⟩
  · exact heard_closeMany _ c

end Views

/-- **A part of a proof inside a layer** asks what it asks on its own. -/
theorem asks_scope {name : String} {body : Layer → ProofM α} {c : Context} {l : List Query}
    {Q₁ Q : α → List Exchange → Context → Prop}
    (hbody : Asks (body (c.push name).1) (c.push name).2 l Q₁)
    (hQ : ∀ a xs c₁, Q₁ a xs c₁ →
      c.SameBase c₁ ∧ (c₁.opened ≠ [] → Q a xs c₁.closeInnermost)) :
    Asks (scope name body) c l Q := by
  have hpush : outcome (push name : ProofM Layer) c = (.ok (c.push name).1, (c.push name).2) := by
    rw [push, outcome_change]
  have hpushed := heard_push c name
  have hbased : c.SameBase (c.push name).2 := ⟨rfl, rfl, rfl⟩
  unfold Asks at hbody ⊢
  rw [scope, outcome_bind, hpush]
  simp only [outcome_bind, outcome_tryCatch]
  generalize outcome (body (c.push name).1) (c.push name).2 = r at hbody ⊢
  obtain ⟨r, c₁⟩ := r
  cases r with
  | error e =>
      -- the layer and those that were left open in it are closed, and the fault is passed on
      obtain ⟨⟨xs, hxs, hl⟩, hbase⟩ := hbody
      obtain ⟨hheard, hbase'⟩ := heard_unwind c₁ (c.push name).1
      simp only [unwind, fail, require, outcome_change, Except.map]
      refine ⟨⟨xs, ?_, hl⟩, (hbased.trans hbase).trans hbase'⟩
      simpa using (hpushed.trans hxs).trans hheard
  | ok a =>
      obtain ⟨xs, hxs, hl, hQ₁⟩ := hbody
      obtain ⟨hbase, hQa⟩ := hQ a xs c₁ hQ₁
      simp only [pop, outcome_change]
      have hheard : c.Heard c₁ xs := hpushed.trans hxs
      cases hpop : c₁.pop (some (c.push name).1) with
      | error e => exact ⟨⟨xs, hheard, hl ▸ List.prefix_rfl⟩, hbase⟩
      | ok r =>
          obtain ⟨layer, c'⟩ := r
          obtain ⟨hne, rfl⟩ := eq_of_pop hpop
          refine ⟨xs, ?_, hl, hQa hne⟩
          simpa using hheard.trans (heard_closeInnermost c₁)

/-- A part of a proof inside a layer, of which nothing remains but what was declared in it. -/
theorem runs_scope {name : String} {body : Layer → ProofM α} {V : View} {l : List Query}
    (W : View) (hW : V.SameBase W)
    (hbody : ∀ layer, Runs (body layer) V.push l fun _ V' => V' = W) :
    Runs (scope name body) V l fun _ V' => V' = W.pop := by
  intro c hc
  refine asks_scope (hbody _ _ (shows_push hc name)) fun a xs c₁ h => ?_
  obtain ⟨href, W', hshows, hW'⟩ := h
  rw [hW'] at hshows
  exact ⟨hc.sameBase hshows hW, fun hne => ⟨href, W.pop, shows_closeInnermost hshows hne, rfl⟩⟩

end Proof

end CandyCircle
