/-
**Proofs that return.**

What a proof asks is one question and whether it comes to ask it is another.  An operation is
refused for reasons that depend on little of the state: which constants are retired, which layer is
the innermost one, what the base knows and what the solver replies.  A proof whose operations are
not refused returns, and then it has asked all that it can ask.

Main definitions:

* `CandyCircle.Stance` — what of a state decides whether operations are refused;
* `CandyCircle.Stance.Admits` — a formula mentions no retired constants;
* `CandyCircle.Stance.Numbered` — retired constants carry numbers that were given out;
* `CandyCircle.Stance.After` — one stance comes after another one, with the same layers open;
* `CandyCircle.Proof.Returns` — **a proof returns from every state of a stance**;
* `CandyCircle.Proof.AsksAll` — a proof asks all of a list of queries, whether it returns or not.

Main results:

* `CandyCircle.Proof.Asks.of_returns` — **a proof that returns has asked all its queries**;
* `CandyCircle.Proof.returns_scope`, `CandyCircle.Proof.returns_claim` — layers, and claims inside
  them;
* `CandyCircle.Proof.returns_proveFixing` — claims inside a layer that fixes two numbers;
* `CandyCircle.Proof.asksAll_prove` — **a claim that is fit to be asked about is asked about**.
-/
import CandyCircle.Proofs.Logic.Constants
import CandyCircle.Proofs.Refutation.Schemes

set_option autoImplicit false

namespace CandyCircle

open Logic

/-! ### Stances -/

/-- What of a state decides whether operations are refused. -/
structure Stance where
  /-- The numbers of the open layers, each with its constants, the innermost first. -/
  opened : List (Nat × List String)
  retired : List String
  openings : Nat
  issued : Nat
  replies : List Prepared
  outcomes : List (Nat × Verdict)
  /-- The facts of the base. -/
  facts : List (String × Fact)

def Context.stance (c : Context) : Stance where
  opened := c.opened.map fun l => (l.serial, l.symbols)
  retired := c.retired
  openings := c.openings
  issued := c.issued.length
  replies := c.session.replies
  outcomes := c.outcomes
  facts := c.base.facts

namespace Stance

/-- One layer more is open. -/
def push (σ : Stance) : Stance :=
  { σ with opened := (σ.openings + 1, []) :: σ.opened, openings := σ.openings + 1 }

/-- The innermost layer is closed. -/
def pop (σ : Stance) : Stance :=
  match σ.opened with
  | [] => σ
  | l :: outer => { σ with opened := outer, retired := σ.retired ++ l.2 }

/-- The innermost layer has declared constants. -/
def declare (σ : Stance) (names : List String) : Stance :=
  { σ with
    opened := match σ.opened with
      | [] => []
      | l :: outer => (l.1, l.2 ++ names) :: outer
    issued := σ.issued + names.length }

/-- A reply is used up. -/
def answered (σ : Stance) : Stance :=
  { σ with replies := σ.replies.tail }

/-- There is a verdict on the goal of a layer. -/
def judged (σ : Stance) (serial : Nat) (v : Verdict) : Stance :=
  { σ with outcomes := (serial, v) :: σ.outcomes }

/-- A fact is committed. -/
def commit (σ : Stance) (f : Fact) : Stance :=
  { σ with facts := σ.facts ++ [(f.name, f)] }

/-- A claim was asked about in a layer of its own, with constants in place of its variables. -/
def claimed (σ : Stance) (ws : List Symbol) (r : Reply) : Stance :=
  (((σ.push.declare (ws.map Symbol.name)).answered).judged (σ.openings + 1)
    (.ofAnswer r.answer)).pop

/-- The next reply. -/
def reply (σ : Stance) : Prepared :=
  σ.replies.headD (.ok .exhausted)

/-- A formula mentions no retired constants. -/
def Admits (σ : Stance) (f : Formula) : Prop :=
  ∀ s ∈ f.constants, s.name ∉ σ.retired

variable {σ : Stance}

@[simp] theorem declare_nil : σ.declare [] = σ := by
  unfold declare
  cases σ with
  | mk opened => cases opened <;> simp

theorem declare_declare (xs ys : List String) :
    (σ.declare xs).declare ys = σ.declare (xs ++ ys) := by
  unfold declare
  cases σ.opened <;> simp [Nat.add_assoc]

end Stance

@[simp] theorem Session.replies_add (s : Session) (a : Assertion) :
    (s.add a).replies = s.replies := by
  unfold Session.add Session.note
  split <;> rfl

namespace Context

variable {c : Context} {σ : Stance}

/-- A change of the innermost layer that declares nothing and registers nothing at the base. -/
theorem stance_updateCurrent (f : Layer → Layer) (hserial : ∀ l, (f l).serial = l.serial)
    (hsymbols : ∀ l, (f l).symbols = l.symbols)
    (hfacts : c.opened = [] → (f c.base).facts = c.base.facts) :
    (c.updateCurrent f).stance = c.stance := by
  unfold updateCurrent stance
  split <;> simp_all

theorem stance_assertInside (a : Assertion) : (c.assertInside a).stance = c.stance := by
  have hcounted := stance_updateCurrent (c := { c with session := c.session.add a })
    (fun l => { l with assumptions := l.assumptions + 1 }) (fun _ => rfl) (fun _ => rfl)
    fun _ => rfl
  refine hcounted.trans ?_
  simp [stance]

theorem opened_ne_nil_of_stance (h : c.stance = σ) (hσ : σ.opened ≠ []) : c.opened ≠ [] := by
  rintro hopened
  rw [← h] at hσ
  exact hσ (by simp [stance, hopened])

theorem refuseLeaks_of_admits {f : Formula} (h : c.stance.Admits f) (what : String) :
    c.refuseLeaks f what = .ok () := by
  have hleaks : c.leaks f = [] := by
    have hnone :
        (f.constants.map Symbol.name).filter (fun name => c.retired.contains name) = [] := by
      rw [List.filter_eq_nil_iff]
      intro name hname
      obtain ⟨s, hs, rfl⟩ := List.mem_map.1 hname
      have hs : s.name ∉ c.retired := h s hs
      simpa using hs
    rw [leaks, hnone]
    simp [sortedNames]
  rw [refuseLeaks, hleaks]

theorem assume_of_admits {a : Assertion} (h : c.stance.Admits a.formula) :
    c.assume a = .ok (c.assertInside a) := by
  rw [Context.assume, refuseLeaks_of_admits h]
  rfl

end Context

/-! ### Returning -/

namespace Proof

variable {α β : Type} {σ : Stance}

/-- **A proof returns from every state of a stance.** -/
def Returns (p : ProofM α) (σ : Stance) (Q : α → Stance → Prop) : Prop :=
  ∀ c : Context, c.stance = σ → ∃ a c', outcome p c = (.ok a, c') ∧ Q a c'.stance

theorem Returns.mono {p : ProofM α} {Q Q' : α → Stance → Prop} (h : Returns p σ Q)
    (hQ : ∀ a σ', Q a σ' → Q' a σ') : Returns p σ Q' := by
  intro c hc
  obtain ⟨a, c', hout, hQa⟩ := h c hc
  exact ⟨a, c', hout, hQ a _ hQa⟩

theorem Returns.bind {p : ProofM α} {f : α → ProofM β} {Q₁ : α → Stance → Prop}
    {Q : β → Stance → Prop} (hp : Returns p σ Q₁) (hf : ∀ a σ₁, Q₁ a σ₁ → Returns (f a) σ₁ Q) :
    Returns (p >>= f) σ Q := by
  intro c hc
  obtain ⟨a, c₁, hout, hQ₁⟩ := hp c hc
  obtain ⟨b, c', hout', hQ⟩ := hf a _ hQ₁ c₁ rfl
  refine ⟨b, c', ?_, hQ⟩
  rw [outcome_bind, hout]
  exact hout'

/-- **A proof that returns has asked all its queries.** -/
theorem Asks.of_returns {p : ProofM α} {c : Context} {l : List Query}
    {Q : α → List Exchange → Context → Prop} {Q' : α → Stance → Prop} (h : Asks p c l Q)
    (hr : Returns p c.stance Q') :
    ∃ a xs c', outcome p c = (.ok a, c') ∧ c.Heard c' xs ∧ xs.map Exchange.query = l ∧
      Q a xs c' ∧ Q' a c'.stance := by
  obtain ⟨a, c', hout, hQ'⟩ := hr c rfl
  unfold Asks at h
  rw [hout] at h
  obtain ⟨xs, hheard, hl, hQ⟩ := h
  exact ⟨a, xs, c', hout, hheard, hl, hQ, hQ'⟩

/-- A proof that returned had all its queries refuted, so that none of them has a model if the
solver is honest. -/
theorem Asks.of_ok_outcome {p : ProofM α} {c : Context} {l : List Query}
    {Q : α → Context → Prop} (h : Asks p c l fun a xs c' => (∀ x ∈ xs, x.Refuted) ∧ Q a c') {a : α}
    (hreturns : (outcome p c).1 = .ok a) :
    Q a (outcome p c).2 ∧
      ((outcome p c).2.Honest → ∀ q ∈ l, Unsatisfiable q.2.formulas) := by
  unfold Asks at h
  generalize outcome p c = r at h hreturns ⊢
  obtain ⟨r, c'⟩ := r
  cases hreturns
  obtain ⟨xs, hheard, rfl, href, hQ⟩ := h
  exact ⟨hQ, fun hhonest => hheard.unsatisfiable_queries hhonest href⟩

/-- What a proof has asked, whether it returned or not, are the first of its queries. -/
theorem Asks.exists_heard {p : ProofM α} {c : Context} {l : List Query}
    {Q : α → List Exchange → Context → Prop} (h : Asks p c l Q) :
    ∃ xs, c.Heard (outcome p c).2 xs ∧ xs.map Exchange.query <+: l := by
  unfold Asks at h
  generalize outcome p c = r at h ⊢
  obtain ⟨r, c'⟩ := r
  cases r with
  | error e => exact h.1
  | ok a =>
      obtain ⟨xs, hxs, rfl, _⟩ := h
      exact ⟨xs, hxs, List.prefix_rfl⟩

theorem returns_pure (a : α) : Returns (pure a) σ fun b σ' => b = a ∧ σ' = σ :=
  fun c hc => ⟨a, c, rfl, rfl, hc⟩

theorem Returns.returning {p : ProofM α} {Q : α → Stance → Prop} (h : Returns p σ Q) (b : β) :
    Returns (p >>= fun _ => pure b) σ fun b' σ' => b' = b ∧ ∃ a, Q a σ' := by
  refine h.bind fun a σ₁ hQ => (returns_pure b).mono fun b' σ' h => ?_
  obtain ⟨rfl, rfl⟩ := h
  exact ⟨rfl, a, hQ⟩

/-! ### Single operations -/

theorem returns_change {f : Context → Except Failure (α × Context)} {Q : α → Stance → Prop}
    (h : ∀ c : Context, c.stance = σ → ∃ a c', f c = .ok (a, c') ∧ Q a c'.stance) :
    Returns (change f) σ Q := by
  intro c hc
  obtain ⟨a, c', hf, hQ⟩ := h c hc
  exact ⟨a, c', by rw [outcome_change, hf], hQ⟩

theorem returns_require {r : Except Failure α} {a : α} (h : r = .ok a) :
    Returns (require r) σ fun b σ' => b = a ∧ σ' = σ := by
  subst h
  exact returns_change fun c hc => ⟨a, c, rfl, rfl, hc⟩

theorem returns_look (f : Context → α) :
    Returns (look f) σ fun a σ' => (∃ c : Context, c.stance = σ ∧ a = f c) ∧ σ' = σ :=
  returns_change fun c hc => ⟨f c, c, rfl, ⟨c, hc, rfl⟩, hc⟩

theorem returns_log (level : LogLevel) (source : LogSource) (message : String) :
    Returns (log level source message) σ fun _ σ' => σ' = σ :=
  returns_change fun _ hc => ⟨(), _, rfl, hc⟩

theorem returns_declare (stem : String) (kind : Kind) :
    Returns (declare stem kind) σ fun s σ' =>
      s = ⟨Context.freshName stem σ.issued, kind⟩ ∧ σ' = σ.declare [s.name] := by
  refine returns_change fun c hc => ⟨_, (c.declare stem kind).2, rfl, ?_⟩
  subst hc
  refine ⟨rfl, ?_⟩
  unfold Context.declare Context.updateCurrent Context.stance Stance.declare
  cases hopened : c.opened <;> simp

theorem returns_changeAssume {a : Assertion} (h : σ.Admits a.formula) :
    Returns (change fun c => (c.assume a).map ((), ·)) σ fun _ σ' => σ' = σ := by
  refine returns_change fun c hc => ⟨(), c.assertInside a, ?_, ?_⟩
  · subst hc
    rw [Context.assume_of_admits h]
    rfl
  · rw [Context.stance_assertInside, hc]

theorem returns_assume {f : Formula} (h : σ.Admits f) (label : String) :
    Returns (assume f label) σ fun _ σ' => σ' = σ :=
  returns_changeAssume h

theorem returns_assumeHints {formulas : List Formula} (label : String)
    (h : ∀ f ∈ formulas, σ.Admits f) :
    Returns (assumeHints formulas label) σ fun _ σ' => σ' = σ := by
  induction formulas with
  | nil => exact (returns_pure ()).mono fun _ σ' h => h.2
  | cons f rest ih =>
      obtain ⟨hf, hrest⟩ := List.forall_mem_cons.1 h
      refine Returns.bind (returns_changeAssume hf) fun _ σ₁ h₁ => ?_
      subst h₁
      exact ih hrest

theorem formulaOf_of_fault? {f : Fact} (h : f.fault? = none) :
    Context.formulaOf f = .ok f.formula := by
  have hformula : f.formula? = .ok f.formula := by
    simp [Fact.formula?, Fact.barring, h]
  rw [Context.formulaOf, hformula]
  rfl

theorem returns_assumeFact {f : Fact} (hσ : σ.opened ≠ []) (hfault : f.fault? = none)
    (h : σ.Admits f.formula) : Returns (assumeFact f) σ fun _ σ' => σ' = σ := by
  refine returns_change fun c hc =>
    ⟨(), (c.assertInside f.assertion).updateCurrent fun l => l.register f, ?_, ?_⟩
  · subst hc
    have hassume : c.assume f.assertion = .ok (c.assertInside f.assertion) :=
      Context.assume_of_admits h
    unfold Fact.assertion at hassume
    rw [Context.assumeFact, formulaOf_of_fault? hfault]
    simp only [Bind.bind, Except.bind, hassume]
    rfl
  · have hopen := Context.opened_ne_nil_of_stance
      ((Context.stance_assertInside (c := c) f.assertion).trans hc) hσ
    refine (Context.stance_updateCurrent (Layer.register · f) (fun _ => rfl) (fun _ => rfl)
      fun hnil => absurd hnil hopen).trans ?_
    rw [Context.stance_assertInside, hc]

theorem returns_commit {f : Fact} (hσ : σ.opened = [])
    (hnew : σ.facts.find? (fun entry => entry.1 == f.name) = none) (hfault : f.fault? = none)
    (h : σ.Admits f.formula) : Returns (commit f) σ fun _ σ' => σ' = σ.commit f := by
  refine returns_change fun c hc => ?_
  subst hc
  have hopened : c.opened = [] := List.map_eq_nil_iff.1 hσ
  refine ⟨(), { c with
      session := c.session.add f.assertion
      base := c.base.register f
      committed := c.committed ++ [f.name] }.logged .debug .context ("commit " ++ f.name), ?_, ?_⟩
  · have hfind : c.base.find? f.name = none := by
      rw [Layer.find?]
      exact Option.map_eq_none_iff.2 hnew
    rw [Context.commit, if_neg (by simp [Context.depth, hopened]), if_neg (by simp [hfind]),
      formulaOf_of_fault? hfault]
    simp only [Bind.bind, Except.bind]
    rw [Context.refuseLeaks_of_admits h]
    rfl
  · have hput : Layer.put c.base.facts f = c.base.facts ++ [(f.name, f)] :=
      put_of_find?_eq_none hnew
    simp [Context.stance, Context.logged, Layer.register, Stance.commit, hput]

theorem outcome_conclude (f : Fact) (c : Context) : outcome (conclude f) c =
    if c.depth = 0 then outcome (commit f) c else outcome (assumeFact f) c := by
  by_cases hdepth : c.depth = 0 <;>
    simp [conclude, commit, assumeFact, outcome_change, Context.conclude, hdepth]

/-- A fact is concluded if it is a formula without retired constants, and at the base under a new
name. -/
theorem returns_conclude {f : Fact} (hfault : f.fault? = none) (h : σ.Admits f.formula)
    (hnew : σ.opened = [] → σ.facts.find? (fun entry => entry.1 == f.name) = none) :
    Returns (conclude f) σ fun _ _ => True := by
  intro c hc
  rw [outcome_conclude]
  by_cases hσ : σ.opened = []
  · have hopened : c.opened = [] := List.map_eq_nil_iff.1 (hc ▸ hσ)
    have hdepth : c.depth = 0 := congrArg List.length hopened
    rw [if_pos hdepth]
    exact (returns_commit hσ (hnew hσ) hfault h).mono (fun _ _ _ => trivial) c hc
  · have hopened : c.opened ≠ [] := Context.opened_ne_nil_of_stance hc hσ
    have hdepth : c.depth ≠ 0 := fun hdepth => hopened (List.length_eq_zero_iff.1 hdepth)
    rw [if_neg hdepth]
    exact (returns_assumeFact hσ hfault h).mono (fun _ _ _ => trivial) c hc

theorem returns_fact {f : Fact} {name : String} (hσ : σ.opened = [])
    (h : σ.facts.find? (fun entry => entry.1 == name) = some (name, f)) :
    Returns (fact name) σ fun g σ' => g = f ∧ σ' = σ := by
  refine returns_change fun c hc => ⟨f, c, ?_, rfl, hc⟩
  subst hc
  have hopened : c.opened = [] := List.map_eq_nil_iff.1 hσ
  have hfact : c.fact? name = some f := by
    simp [Context.fact?, Context.layers, hopened, Layer.find?]
    exact ⟨name, h⟩
  simp [Context.fact, hfact, Except.map]

theorem returns_checkRefuted {r : Reply} (h : σ.reply = .ok r) (name rule claim : String) :
    Returns (checkRefuted name rule claim) σ fun v σ' =>
      v = .ofAnswer r.answer ∧ σ' = σ.answered := by
  intro c hc
  subst hc
  have hreply : c.session.reply = .ok r := h
  have hout : outcome (checkRefuted name rule claim) c = c.checkRefuted name rule claim := rfl
  rw [hout, Context.checkRefuted, Session.check, hreply]
  exact ⟨_, _, rfl, rfl, rfl⟩

theorem returns_setOutcome (layer : Layer) (v : Verdict) :
    Returns (change fun c => .ok ((), c.setOutcome layer v)) σ fun _ σ' =>
      σ' = σ.judged layer.serial v :=
  returns_change fun c hc => ⟨(), _, rfl, by rw [← hc]; rfl⟩

/-! ### Layers -/

theorem stance_closeInnermost (c : Context) : c.closeInnermost.stance = c.stance.pop := by
  unfold Context.closeInnermost Stance.pop Context.stance
  cases hopened : c.opened <;> simp [Context.logged, Session.pop, Session.note, hopened]

/-- What returns inside a layer and leaves the layer the innermost one returns, and the layer is
closed. -/
theorem outcome_scope {name : String} {body : Layer → ProofM α} {c c₁ : Context} {a : α}
    (hbody : outcome (body (c.push name).1) (c.push name).2 = (.ok a, c₁))
    (hhead : c₁.stance.opened.head?.map Prod.fst = some (c.openings + 1)) :
    outcome (scope name body) c = (.ok a, c₁.closeInnermost) := by
  have hpop : c₁.pop (some (c.push name).1) = .ok (c₁.current, c₁.closeInnermost) := by
    unfold Context.pop
    cases hopened : c₁.opened with
    | nil => simp [Context.stance, hopened] at hhead
    | cons l outer =>
        have hserial : (c.push name).1.serial = l.serial := by
          simpa [Context.stance, hopened, Context.push] using hhead.symm
        simp [hserial, Context.current, hopened]
  have hpushed : outcome (push name : ProofM Layer) c = (.ok (c.push name).1, (c.push name).2) := by
    rw [push, outcome_change]
  rw [scope, outcome_bind, hpushed]
  simp only [outcome_bind, outcome_tryCatch, hbody, pop, outcome_change, hpop]
  rfl

/-- **A part of a proof inside a layer** returns if it returns on its own and leaves the layer the
innermost one. -/
theorem returns_scope {name : String} {body : Layer → ProofM α} {Q : α → Stance → Prop}
    (hbody : ∀ layer : Layer, layer.serial = σ.openings + 1 → Returns (body layer) σ.push
      fun a σ' => σ'.opened.head?.map Prod.fst = some (σ.openings + 1) ∧ Q a σ'.pop) :
    Returns (scope name body) σ Q := by
  intro c hc
  subst hc
  have hpush : (c.push name).2.stance = c.stance.push := rfl
  obtain ⟨a, c₁, hout, hhead, hQ⟩ := hbody (c.push name).1 rfl (c.push name).2 hpush
  exact ⟨a, c₁.closeInnermost, outcome_scope hout hhead, by rwa [stance_closeInnermost]⟩

/-! ### Claims -/

theorem length_freshSymbols (vars : List Symbol) :
    ∀ n, (freshSymbols vars n).length = vars.length := by
  induction vars with
  | nil => exact fun _ => rfl
  | cons s rest ih => exact fun n => congrArg (· + 1) (ih (n + 1))

theorem exists_of_mem_freshSymbols {vars : List Symbol} {w : Symbol} : ∀ {n : Nat},
    w ∈ freshSymbols vars n → ∃ stem number, n ≤ number ∧ number < n + vars.length ∧
      w.name = Context.freshName stem number := by
  induction vars with
  | nil => exact fun h => absurd h List.not_mem_nil
  | cons s rest ih =>
      intro n h
      rcases List.mem_cons.1 h with rfl | h
      · exact ⟨s.name, n, Nat.le_refl n, by simp, rfl⟩
      · obtain ⟨stem, number, hn, hlt, hname⟩ := ih h
        exact ⟨stem, number, by omega, by simp only [List.length_cons]; omega, hname⟩

end Proof

namespace Stance

variable {σ : Stance} {s : Symbol}

/-- Retired constants carry numbers that were given out. -/
def Numbered (σ : Stance) : Prop :=
  ∀ name ∈ σ.retired, ∃ stem number, number < σ.issued ∧ name = Context.freshName stem number

/-- Constants that were not given out are not retired. -/
theorem Numbered.not_retired (h : σ.Numbered) {number : Nat} (hn : σ.issued ≤ number)
    (stem : String) : Context.freshName stem number ∉ σ.retired := by
  intro hretired
  obtain ⟨stem', number', hlt, hname⟩ := h _ hretired
  have := Context.freshName_inj hname
  omega

/-- Nor are constants that are no fresh ones. -/
theorem Numbered.not_retired_plain (h : σ.Numbered) {name : String} (hname : '!' ∉ name.toList) :
    name ∉ σ.retired := by
  intro hretired
  obtain ⟨stem, number, _, heq⟩ := h _ hretired
  exact Context.freshName_ne hname stem number heq.symm

/-- So it is inside a new layer, whatever it has declared. -/
theorem Numbered.layer (h : σ.Numbered) (names : List String) :
    (σ.push.declare names).Numbered := by
  intro name hname
  obtain ⟨stem, number, hlt, hname⟩ := h name hname
  exact ⟨stem, number, Nat.lt_add_right names.length hlt, hname⟩

/-- One stance comes after another one: the same layers are open, the base knows the same facts, and
nothing was retired meanwhile but what was given out meanwhile. -/
structure After (σ σ' : Stance) : Prop where
  opened : σ'.opened = σ.opened
  facts : σ'.facts = σ.facts
  issued : σ.issued ≤ σ'.issued
  retired : ∀ name ∈ σ'.retired, name ∈ σ.retired ∨
    ∃ stem number, σ.issued ≤ number ∧ number < σ'.issued ∧ name = Context.freshName stem number

variable {σ' σ'' : Stance}

theorem After.trans (h : σ.After σ') (h' : σ'.After σ'') : σ.After σ'' where
  opened := h'.opened.trans h.opened
  facts := h'.facts.trans h.facts
  issued := Nat.le_trans h.issued h'.issued
  retired := by
    have hissued := h.issued
    have hissued' := h'.issued
    intro name hname
    rcases h'.retired name hname with hname | ⟨stem, number, hn, hlt, hname⟩
    · refine (h.retired name hname).imp_right fun ⟨stem, number, hn, hlt, hname⟩ => ?_
      exact ⟨stem, number, hn, by omega, hname⟩
    · exact Or.inr ⟨stem, number, by omega, hlt, hname⟩

theorem After.numbered (h : σ.After σ') (hσ : σ.Numbered) : σ'.Numbered := by
  have hissued := h.issued
  intro name hname
  rcases h.retired name hname with hname | ⟨stem, number, _, hlt, hname⟩
  · obtain ⟨stem, number, hlt, hname⟩ := hσ name hname
    exact ⟨stem, number, by omega, hname⟩
  · exact ⟨stem, number, hlt, hname⟩

/-- Constants from before are not retired meanwhile. -/
theorem After.not_retired (h : σ.After σ') (hs : s.name ∉ σ.retired) (hold : ¬ Fresh σ.issued s) :
    s.name ∉ σ'.retired := by
  intro hretired
  rcases h.retired _ hretired with hretired | ⟨stem, number, hn, _, hname⟩
  · exact hs hretired
  · exact hold ⟨stem, number, hn, hname⟩

/-- After a layer is closed its constants are retired. -/
theorem After.of_layer {names : List String} (h : (σ.push.declare names).After σ')
    (hnames : ∀ name ∈ names, ∃ stem number, σ.issued ≤ number ∧
      number < σ.issued + names.length ∧ name = Context.freshName stem number) :
    σ.After σ'.pop := by
  obtain ⟨hopened, hfacts, hissued, hretired⟩ := h
  have hopened : σ'.opened = (σ.openings + 1, names) :: σ.opened := hopened
  have hissued : σ.issued + names.length ≤ σ'.issued := hissued
  simp only [pop, hopened]
  refine ⟨rfl, hfacts, Nat.le_of_add_right_le hissued, fun name hname => ?_⟩
  rcases List.mem_append.1 hname with hname | hname
  · refine (hretired name hname).imp_right fun ⟨stem, number, hn, hlt, hname⟩ => ?_
    exact ⟨stem, number, Nat.le_of_add_right_le hn, hlt, hname⟩
  · obtain ⟨stem, number, hn, hlt, hname⟩ := hnames name hname
    exact Or.inr ⟨stem, number, hn, Nat.lt_of_lt_of_le hlt hissued, hname⟩

theorem issued_claimed (σ : Stance) (claim : Fact) (r : Reply) :
    (σ.claimed (claim.witnesses σ.issued) r).issued = σ.issued + claim.vars.length := by
  have hlength := Proof.length_freshSymbols claim.vars σ.issued
  simp [claimed, push, declare, answered, judged, pop, Fact.witnesses, hlength]

/-- After a claim was asked about, the constants that stood for its variables are retired. -/
theorem after_claimed (σ : Stance) (claim : Fact) (r : Reply) :
    σ.After (σ.claimed (claim.witnesses σ.issued) r) := by
  have hlayer : (σ.push.declare ((claim.witnesses σ.issued).map Symbol.name)).After
      (((σ.push.declare ((claim.witnesses σ.issued).map Symbol.name)).answered).judged
        (σ.openings + 1) (.ofAnswer r.answer)) :=
    ⟨rfl, rfl, Nat.le_refl _, fun name hname => Or.inl hname⟩
  refine hlayer.of_layer fun name hname => ?_
  obtain ⟨w, hw, rfl⟩ := List.mem_map.1 hname
  rw [List.length_map, Fact.witnesses, Proof.length_freshSymbols]
  exact Proof.exists_of_mem_freshSymbols hw

/-- One layer more is open, in which two constants were declared. -/
def fixing (σ : Stance) (stem stem' : String) : Stance :=
  σ.push.declare [Context.freshName stem σ.issued, Context.freshName stem' (σ.issued + 1)]

/-- That layer is closed again, whatever was done in it. -/
theorem After.of_fixing {stem stem' : String} (h : (σ.fixing stem stem').After σ') :
    σ'.opened.head?.map Prod.fst = some (σ.openings + 1) ∧ σ.After σ'.pop := by
  constructor
  · rw [h.opened]
    rfl
  · refine h.of_layer (List.forall_mem_cons.2 ⟨?_, List.forall_mem_singleton.2 ?_⟩)
    · exact ⟨stem, σ.issued, Nat.le_refl _, Nat.lt_add_of_pos_right Nat.two_pos, rfl⟩
    · exact ⟨stem', σ.issued + 1, Nat.le_succ _, Nat.lt_succ_self _, rfl⟩

end Stance

namespace Proof

variable {α β : Type} {σ : Stance}

theorem assignments_witnesses (f : Fact) (n : Nat) :
    f.assignments ((f.witnesses n).map Symbol.any) =
      .ok (f.bind ((f.witnesses n).map Symbol.any)) := by
  have hmapM (vars : List Symbol) : ∀ n, ((vars.zip ((freshSymbols vars n).map Symbol.any)).mapM
      fun p => Fact.assign? p.1 p.2) = some ((vars.zip ((freshSymbols vars n).map
        Symbol.any)).filterMap fun p => Fact.assign? p.1 p.2) := by
    induction vars with
    | nil => exact fun _ => rfl
    | cons s rest ih =>
        intro n
        have hfirst : Fact.assign? s (Symbol.any ⟨Context.freshName s.name n, s.kind⟩) =
            some ⟨s, .const s.kind (Context.freshName s.name n)⟩ := dif_pos rfl
        simp only [freshSymbols, List.map_cons, List.zip_cons_cons, List.mapM_cons, hfirst, ih]
        rw [List.filterMap_cons_some (b := ⟨s, .const s.kind (Context.freshName s.name n)⟩) hfirst]
        rfl
  rw [Fact.assignments, if_pos (by simp [Fact.witnesses, length_freshSymbols]), Fact.witnesses,
    hmapM]
  rfl

theorem guardAt_witnesses (f : Fact) (n : Nat) :
    f.guardAt ((f.witnesses n).map Symbol.any) =
      .ok (f.guardFor ((f.witnesses n).map Symbol.any)) := by
  rw [Fact.guardAt, assignments_witnesses]
  rfl

theorem bodyAt_witnesses (f : Fact) (n : Nat) :
    f.bodyAt ((f.witnesses n).map Symbol.any) =
      .ok (f.bodyFor ((f.witnesses n).map Symbol.any)) := by
  rw [Fact.bodyAt, assignments_witnesses]
  rfl

theorem returns_declares (vars : List Symbol) : ∀ {σ : Stance},
    Returns (vars.mapM fun s => declare s.name s.kind) σ fun ws σ' =>
      ws = freshSymbols vars σ.issued ∧ σ' = σ.declare (ws.map Symbol.name) := by
  induction vars with
  | nil =>
      intro σ
      refine (returns_pure []).mono fun ws σ' h => ?_
      obtain ⟨rfl, rfl⟩ := h
      exact ⟨rfl, Stance.declare_nil.symm⟩
  | cons s rest ih =>
      intro σ
      rw [List.mapM_cons]
      refine (returns_declare s.name s.kind).bind fun w σ₁ h₁ => ih.bind fun ws σ₂ h₂ =>
        (returns_pure _).mono fun ws' σ₃ h₃ => ?_
      obtain ⟨rfl, rfl⟩ := h₁
      obtain ⟨rfl, rfl⟩ := h₂
      obtain ⟨rfl, rfl⟩ := h₃
      exact ⟨rfl, Stance.declare_declare _ _⟩

/-- A claim is fit to be asked about: its parts are formulas, and neither they nor the constants
that stand in place of its variables are retired. -/
structure Fit (σ : Stance) (claim : Fact) (ws : List Symbol) (hints : List Formula) : Prop where
  proper : claim.Proper
  guard : σ.Admits (claim.guardFor (ws.map Symbol.any))
  body : σ.Admits (claim.bodyFor (ws.map Symbol.any))
  hints : ∀ e ∈ hints, σ.Admits e

/-- A claim without retired constants is fit to be asked about, since fresh constants are not
retired. -/
theorem Fit.of_constants {claim : Fact} {hints : List Formula} (hproper : claim.Proper)
    (hσ : σ.Numbered)
    (hclaim : ∀ s ∈ claim.guard.constants ++ claim.body.constants, s.name ∉ σ.retired)
    (hhints : ∀ e ∈ hints, σ.Admits e) : Fit σ claim (claim.witnesses σ.issued) hints := by
  have hws : ∀ w ∈ claim.witnesses σ.issued, w.name ∉ σ.retired := by
    intro w hw
    obtain ⟨stem, number, hn, _, hname⟩ := exists_of_mem_freshSymbols hw
    exact hname ▸ hσ.not_retired hn stem
  refine ⟨hproper, fun s hs => ?_, fun s hs => ?_, hhints⟩
  · obtain hs | hs := Fact.mem_constants_bind hs
    · exact hclaim s (List.mem_append_left _ hs)
    · exact hws s hs
  · obtain hs | hs := Fact.mem_constants_bind hs
    · exact hclaim s (List.mem_append_right _ hs)
    · exact hws s hs

theorem Fit.congr {σ' : Stance} {claim : Fact} {ws : List Symbol} {hints : List Formula}
    (h : Fit σ claim ws hints) (hretired : σ'.retired = σ.retired) : Fit σ' claim ws hints where
  proper := h.proper
  guard s hs := hretired ▸ h.guard s hs
  body s hs := hretired ▸ h.body s hs
  hints e he s hs := hretired ▸ h.hints e he s hs

theorem returns_assumeGuard {claim : Fact} {n : Nat}
    (h : σ.Admits (claim.guardFor ((claim.witnesses n).map Symbol.any))) :
    Returns (assumeGuard claim (claim.witnesses n)) σ fun _ σ' => σ' = σ := by
  unfold assumeGuard
  split
  · exact (returns_pure ()).mono fun _ σ' h => h.2
  · have hguard := congrArg (Except.mapError Failure.fact) (guardAt_witnesses claim n)
    refine (returns_require hguard).bind fun guard σ₁ h₁ => ?_
    obtain ⟨rfl, rfl⟩ := h₁
    exact returns_assume h _

/-- **The query of a goal is asked** if its layer is the innermost one. -/
theorem returns_discharge {g : Goal} {hints : List Formula} {n : Nat} {r : Reply}
    (hws : g.witnesses = g.claim.witnesses n)
    (hlayer : σ.opened.head?.map Prod.fst = some g.layer.serial)
    (hfit : Fit σ g.claim g.witnesses hints) (hreply : σ.reply = .ok r) :
    Returns (discharge g hints) σ fun v σ' =>
      v = .ofAnswer r.answer ∧ σ' = σ.answered.judged g.layer.serial v := by
  unfold discharge
  refine (returns_look _).bind fun current σ₁ h₁ => ?_
  obtain ⟨⟨c, hc, rfl⟩, rfl⟩ := h₁
  have hserial : c.current.serial = g.layer.serial := by
    subst hc
    unfold Context.current
    cases hopened : c.opened <;> simp_all [Context.stance]
  rw [if_neg (not_not.2 hserial)]
  have hbody := congrArg (Except.mapError Failure.fact) (bodyAt_witnesses g.claim n)
  rw [← hws] at hbody
  have hnegation : Formula.negation (g.claim.bodyFor (g.witnesses.map Symbol.any)) =
      .ok (.not (g.claim.bodyFor (g.witnesses.map Symbol.any))) := by
    simp [Formula.negation, Formula.proper, Fact.isStanding_bodyFor hfit.proper.body, Bind.bind,
      Except.bind, pure, Except.pure]
  have hfails := congrArg (Except.mapError fun fault => Failure.fact (.form fault)) hnegation
  have hreadable : g.claim.display? = .ok g.claim.display := by
    simp [Fact.display?, Fact.barring, hfit.proper.matrixFault?]
  have hdisplay := congrArg (Except.mapError Failure.fact) hreadable
  dsimp only
  refine (returns_require hbody).bind fun body σ₁ h₁ => ?_
  obtain ⟨rfl, rfl⟩ := h₁
  refine (returns_require hfails).bind fun fails σ₁ h₁ => ?_
  obtain ⟨rfl, rfl⟩ := h₁
  have hdenied : σ₁.Admits (.not (g.claim.bodyFor (g.witnesses.map Symbol.any))) := hfit.body
  refine (returns_assume hdenied _).bind fun _ σ₁ h₁ => ?_
  subst h₁
  refine (returns_assumeHints _ hfit.hints).bind fun _ σ₁ h₁ => ?_
  subst h₁
  refine (returns_require hdisplay).bind fun _ σ₁ h₁ => ?_
  obtain ⟨-, rfl⟩ := h₁
  refine (returns_checkRefuted hreply _ _ _).bind fun v σ₁ h₁ => ?_
  obtain ⟨rfl, rfl⟩ := h₁
  refine (returns_setOutcome g.layer _).bind fun _ σ₂ h₂ => ?_
  subst h₂
  refine (returns_pure _).mono fun v σ' h => ?_
  obtain ⟨rfl, rfl⟩ := h
  exact ⟨rfl, rfl⟩

/-- A proof of a goal by a single query, whose hints are formulas built from the witnesses. -/
def asking (hints : List Symbol → List Formula) (g : Goal) : ProofM Unit := do
  let _ ← discharge g (← pure (hints g.witnesses))

/-- **A claim that is fit to be asked about is asked about**, in a layer of its own. -/
theorem returns_claim {claim : Fact} {hints : List Symbol → List Formula} {r : Reply}
    (rule : String)
    (hfit : Fit σ claim (claim.witnesses σ.issued) (hints (claim.witnesses σ.issued)))
    (hreply : σ.reply = .ok r) :
    Returns (scope claim.name (refutation claim rule (asking hints))) σ fun a σ' =>
      a.2 = .ofAnswer r.answer ∧ σ' = σ.claimed (claim.witnesses σ.issued) r := by
  refine returns_scope fun layer hlayer => ?_
  unfold refutation
  refine (returns_declares claim.vars).bind fun ws σ₁ h₁ => ?_
  obtain ⟨rfl, hσ₁⟩ := h₁
  -- the layer is open and its constants are declared; nothing was retired meanwhile
  have hfit₁ : Fit σ₁ claim (claim.witnesses σ.issued) (hints (claim.witnesses σ.issued)) :=
    hfit.congr (by rw [hσ₁]; rfl)
  have hreply₁ : σ₁.reply = .ok r := by rw [hσ₁]; exact hreply
  have hhead₁ : σ₁.opened.head?.map Prod.fst = some layer.serial := by rw [hσ₁, hlayer]; rfl
  refine (returns_assumeGuard hfit₁.guard).bind fun _ σ₂ h₂ => ?_
  subst h₂
  have hgoal := returns_discharge
    (g := { claim, rule, witnesses := claim.witnesses σ.issued, layer }) rfl hhead₁ hfit₁ hreply₁
  refine Returns.bind (hgoal.returning ()) fun _ σ₃ h₃ => ?_
  obtain ⟨-, v, rfl, rfl⟩ := h₃
  refine (returns_look _).bind fun verdict σ₄ h₄ => ?_
  obtain ⟨⟨c, hc, rfl⟩, rfl⟩ := h₄
  have houtcome : c.outcome? layer = some (.ofAnswer r.answer) := by
    have hlatest : c.outcomes = (layer.serial, .ofAnswer r.answer) :: σ₂.outcomes :=
      congrArg Stance.outcomes hc
    simp [Context.outcome?, hlatest]
  rw [houtcome]
  refine (returns_pure _).mono fun a σ' h => ?_
  obtain ⟨rfl, rfl⟩ := h
  refine ⟨by rw [← hlayer]; exact hhead₁, rfl, ?_⟩
  rw [Stance.claimed, ← hlayer, hσ₁]
  rfl

/-- A claim whose query is answered with `UNSAT` is established. -/
theorem returns_prove {claim : Fact} {hints : List Symbol → List Formula} {r : Reply}
    (rule : String) (hfit : Fit σ claim (claim.witnesses σ.issued)
      (hints (claim.witnesses σ.issued)))
    (hreply : σ.reply = .ok r) (hunsat : Verdict.ofAnswer r.answer = .unsat) :
    Returns (prove claim rule (fun ws => pure (hints ws)) false) σ fun _ σ' =>
      σ' = σ.claimed (claim.witnesses σ.issued) r := by
  refine (returns_claim rule hfit hreply).bind fun a σ₁ h₁ => ?_
  obtain ⟨layer, verdict⟩ := a
  obtain ⟨rfl, rfl⟩ := h₁
  simp only [hunsat]
  exact (returns_pure ()).mono fun _ σ' h => h.2

/-! ### Layers with two constants -/

section Fixing

variable {stem stem' : String}

/-- Two constants are declared in a new layer. -/
theorem Returns.fixing {p : Symbol → Symbol → ProofM α} {Q : α → Stance → Prop}
    (h : Returns (p (.int (Context.freshName stem σ.issued))
      (.int (Context.freshName stem' (σ.issued + 1)))) (σ.fixing stem stem') Q) :
    Returns (declare stem .int >>= fun a => declare stem' .int >>= fun b => p a b) σ.push Q := by
  refine (returns_declare stem .int).bind fun a σ₁ h₁ => ?_
  obtain ⟨rfl, rfl⟩ := h₁
  refine (returns_declare stem' .int).bind fun b σ₁ h₁ => ?_
  obtain ⟨rfl, rfl⟩ := h₁
  rw [Stance.declare_declare]
  exact h

/-- A claim is established in such a layer, which is closed again afterwards. -/
theorem returns_proveFixing {claim : Fact} {hints : List Symbol → List Formula} {r : Reply}
    (rule : String) (hfit : Fit (σ.fixing stem stem') claim (claim.witnesses (σ.issued + 2))
      (hints (claim.witnesses (σ.issued + 2))))
    (hreply : σ.reply = .ok r) (hunsat : Verdict.ofAnswer r.answer = .unsat) :
    Returns (prove claim rule (fun ws => pure (hints ws)) false) (σ.fixing stem stem') fun _ σ' =>
      σ'.opened.head?.map Prod.fst = some (σ.openings + 1) ∧ σ.After σ'.pop := by
  refine (returns_prove rule hfit hreply hunsat).mono fun _ σ' h => ?_
  have hafter := (σ.fixing stem stem').after_claimed claim r
  rw [h]
  exact hafter.of_fixing

end Fixing

/-! ### Asking all queries -/

/-- **A proof asks all of a list of queries**, whether it returns or not. -/
def AsksAll (p : ProofM α) (V : View) (σ : Stance) (l : List Query) : Prop :=
  ∀ c : Context, c.Shows V → c.stance = σ →
    ∃ xs, c.Heard (outcome p c).2 xs ∧ xs.map Exchange.query = l

section AsksAll

variable {V : View} {l l₁ l₂ : List Query}

theorem Asks.heard_nil {p : ProofM α} {c : Context} {Q : α → List Exchange → Context → Prop}
    (h : Asks p c [] Q) : c.Heard (outcome p c).2 [] := by
  obtain ⟨xs, hheard, hnil⟩ := h.exists_heard
  rwa [List.map_eq_nil_iff.1 (List.prefix_nil.1 hnil)] at hheard

theorem AsksAll.of_returns {p : ProofM α} {Q : α → List Exchange → Context → Prop}
    {Q' : α → Stance → Prop} (hp : ∀ c, c.Shows V → Asks p c l Q) (hr : Returns p σ Q') :
    AsksAll p V σ l := by
  intro c hc hσ
  subst hσ
  obtain ⟨a, xs, c', hout, hheard, hxs, _⟩ := (hp c hc).of_returns hr
  exact ⟨xs, by rwa [hout], hxs⟩

theorem AsksAll.bind {p : ProofM α} {f : α → ProofM β} {Q : α → View → Prop}
    {Q' : α → Stance → Prop} (hp : Runs p V l₁ Q) (hr : Returns p σ Q')
    (hf : ∀ a V₁ σ₁, Q a V₁ → Q' a σ₁ → AsksAll (f a) V₁ σ₁ l₂) :
    AsksAll (p >>= f) V σ (l₁ ++ l₂) := by
  intro c hc hσ
  subst hσ
  obtain ⟨a, xs, c₁, hout, hheard, rfl, ⟨_, V₁, hV₁, hQ⟩, hQ'⟩ := (hp c hc).of_returns hr
  obtain ⟨ys, hheard', rfl⟩ := hf a V₁ _ hQ hQ' c₁ hV₁ rfl
  refine ⟨xs ++ ys, ?_, List.map_append⟩
  rw [outcome_bind, hout]
  exact hheard.trans hheard'

/-- A part that returns and asks nothing comes first. -/
theorem AsksAll.next {p : ProofM α} {f : α → ProofM β} {Q : α → View → Prop}
    {Q' : α → Stance → Prop} (hp : Runs p V [] Q) (hr : Returns p σ Q')
    (hf : ∀ a V₁ σ₁, Q a V₁ → Q' a σ₁ → AsksAll (f a) V₁ σ₁ l) : AsksAll (p >>= f) V σ l :=
  .bind hp hr hf

theorem AsksAll.ending {p : ProofM α} {f : α → ProofM β}
    {Q₁ : α → List Exchange → Context → Prop} (h : AsksAll p V σ l)
    (hp : ∀ c, c.Shows V → Asks p c l Q₁)
    (hf : ∀ a xs c₁, Q₁ a xs c₁ → Asks (f a) c₁ [] fun _ _ _ => True) :
    AsksAll (p >>= f) V σ l := by
  intro c hc hσ
  obtain ⟨xs, hheard, rfl⟩ := h c hc hσ
  refine ⟨xs, ?_, rfl⟩
  have hasks := hp c hc
  unfold Asks at hasks
  rw [outcome_bind]
  generalize outcome p c = r at hheard hasks ⊢
  obtain ⟨r, c₁⟩ := r
  cases r with
  | error e => exact hheard
  | ok a =>
      obtain ⟨xs', _, _, hQ₁⟩ := hasks
      simpa using hheard.trans (hf a xs' c₁ hQ₁).heard_nil

/-- Opening and closing a layer asks nothing. -/
theorem AsksAll.scope {name : String} {body : Layer → ProofM α}
    (h : ∀ layer : Layer, layer.serial = σ.openings + 1 →
      AsksAll (body layer) V.push σ.push l) : AsksAll (scope name body) V σ l := by
  intro c hc hσ
  subst hσ
  obtain ⟨xs, hheard, hxs⟩ := h (c.push name).1 rfl (c.push name).2 (shows_push hc name) rfl
  have hpushed : outcome (push name : ProofM Layer) c = (.ok (c.push name).1, (c.push name).2) := by
    rw [push, outcome_change]
  have hheard := (heard_push c name).trans hheard
  refine ⟨xs, ?_, hxs⟩
  rw [Proof.scope, outcome_bind, hpushed]
  simp only [outcome_bind, outcome_tryCatch]
  generalize outcome (body (c.push name).1) (c.push name).2 = r at hheard ⊢
  obtain ⟨r, c₁⟩ := r
  cases r with
  | error e =>
      simp only [unwind, fail, require, outcome_change, Except.map]
      simpa using hheard.trans (heard_unwind c₁ (c.push name).1).1
  | ok a =>
      simp only [pop, outcome_change]
      cases hpop : c₁.pop (some (c.push name).1) with
      | error e => exact hheard
      | ok r =>
          obtain ⟨layer, c'⟩ := r
          obtain ⟨_, rfl⟩ := eq_of_pop hpop
          simpa using hheard.trans (heard_closeInnermost c₁)

theorem discharges_asking (V : View) (claim : Fact) (rule : String)
    (hints : List Symbol → List Formula) (layer : Layer) :
    Discharges (asking hints { claim, rule, witnesses := claim.witnesses V.issued, layer }) layer
      (V.refuting claim) [] (V.refutes claim [] (hints (claim.witnesses V.issued)))
      (V.refuted claim [] (hints (claim.witnesses V.issued)) 0) := by
  have hadd : ((V.refuting claim).add []).declare 0 = V.refuting claim := by
    rw [add_nil (List.cons_ne_nil _ _)]
    rfl
  have h : Discharges _ layer (((V.refuting claim).add []).declare 0) [] _ _ :=
    discharges_refutes claim rule [] (hints (claim.witnesses V.issued)) 0
  rw [hadd] at h
  exact h

/-- **A claim that is fit to be asked about is asked about**, whatever the solver replies. -/
theorem asksAll_prove {claim : Fact} {hints : List Symbol → List Formula} {r : Reply}
    (rule : String) (concluding : Bool) (hissued : σ.issued = V.issued)
    (hfit : Fit σ claim (claim.witnesses V.issued) (hints (claim.witnesses V.issued)))
    (hreply : σ.reply = .ok r) :
    AsksAll (prove claim rule (fun ws => pure (hints ws)) concluding) V σ
      [V.refutes claim [] (hints (claim.witnesses V.issued))] := by
  have hasks (c : Context) (hc : c.Shows V) :=
    asks_claim (l := []) (discharges_asking V claim rule hints) hc
  rw [← hissued] at hfit
  refine (AsksAll.of_returns hasks (returns_claim rule hfit hreply)).ending hasks
    fun a _ c₁ ⟨_, _, _, _, _, hshows₁⟩ => ?_
  exact (asks_judging claim rule concluding hshows₁ a).mono fun _ _ _ _ => trivial

end AsksAll

end Proof

end CandyCircle
