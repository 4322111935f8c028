/-
**Proofs are all or nothing.**

A claim is established in layers of its own, and an induction in two or three of them, with queries
in between and hints that are built on the way.  Whatever happens there, nothing of it is left once
the proof is over: if it returns, all its queries were refuted and exactly one fact was concluded,
and if it fails, wherever it fails, everything is as it was.  The first query that is not refuted is
the last one, and the failure is about it.

Hints may be built by anything that only builds terms, declares constants and assumes formulas, and
that may fail.

Main definitions:

* `CandyCircle.Context.Unchanged`, `CandyCircle.Context.Inside` — nothing changed, and nothing
  outside the innermost layer;
* `CandyCircle.Context.Gained` — exactly one fact was concluded;
* `CandyCircle.Proof.Builds`, `CandyCircle.Proof.Still` — what builds hints and claims;
* `CandyCircle.Proof.Stops` — a proof stops at the first query that is not refuted, and what it
  changed by then;
* `CandyCircle.Proof.AllOrNothing` — **a proof is all or nothing**.

Main results:

* `CandyCircle.Proof.Stops.bind`, `CandyCircle.Proof.stops_scope` — the parts of a proof, one after
  another and inside a layer;
* `CandyCircle.Proof.stops_discharge`, `CandyCircle.Proof.stops_prove` — goals and claims;
* `CandyCircle.Proof.combinators_all_or_nothing` — **claims and both inductions are all or
  nothing**.
-/
import CandyCircle.Proofs.Refutation.Comparing

set_option autoImplicit false

namespace CandyCircle

open Logic

/-! ### What changes between two states -/

theorem Layer.find?_register (l : Layer) (f : Fact) : (l.register f).find? f.name = some f := by
  have hput (facts : List (String × Fact)) :
      (Layer.put facts f).find? (fun entry => entry.1 == f.name) = some (f.name, f) := by
    induction facts with
    | nil => simp [Layer.put]
    | cons entry rest ih =>
        unfold Layer.put
        split <;> simp_all
  rw [Layer.find?, Layer.register, hput]
  rfl

namespace Context

/-- Between two states nothing changed: the layers know what they knew, the same is asserted in each
of them, and the same is committed. -/
structure Unchanged (c c' : Context) : Prop where
  opened : c'.opened = c.opened
  base : c'.base = c.base
  /-- The same is asserted at the base. -/
  asserted : c'.session.base = c.session.base
  /-- The same is asserted in the open layers. -/
  frames : c'.session.frames = c.session.frames
  committed : c'.committed = c.committed

/-- Between two states nothing changed but inside the innermost layer, if one is open. -/
structure Inside (c c' : Context) : Prop where
  opened : ∀ l outer, c.opened = l :: outer →
    ∃ l' : Layer, l'.serial = l.serial ∧ c'.opened = l' :: outer
  frames : ∀ top outer, c.session.frames = top :: outer →
    ∃ top', c'.session.frames = top' :: outer
  base : c.opened ≠ [] → c'.base = c.base
  asserted : c.session.frames ≠ [] → c'.session.base = c.session.base
  committed : c'.committed = c.committed

/-- Between two states exactly one fact was concluded. -/
structure Gained (c c' : Context) (f : Fact) : Prop where
  /-- It is visible under its name. -/
  visible : c'.fact f.name = .ok f
  /-- Its formula is asserted, and nothing else is that was not. -/
  active : c'.session.active = c.session.active ++ [f.formula]
  /-- If no layer is open it was committed. -/
  committed : c.opened = [] → c'.opened = [] ∧ c'.base = c.base.register f ∧
    c'.session.base = c.session.base ++ [f.assertion] ∧ c'.session.frames = c.session.frames ∧
    c'.committed = c.committed ++ [f.name]
  /-- Otherwise it was assumed in the innermost layer, and nothing outside changed. -/
  assumed : ∀ l outer, c.opened = l :: outer → ∃ top frames, c.session.frames = top :: frames ∧
    c'.opened = { l.register f with assumptions := l.assumptions + 1 } :: outer ∧
    c'.session.frames = (top ++ [f.assertion]) :: frames ∧
    c'.base = c.base ∧ c'.session.base = c.session.base ∧ c'.committed = c.committed

/-- Between two states exactly one fact was concluded, if any. -/
def Concluded (c c' : Context) : Option Fact → Prop
  | none => c.Unchanged c'
  | some f => c.Gained c' f

section Changes

variable {c c' c'' : Context}

instance : Std.Refl Unchanged where
  refl _ := ⟨rfl, rfl, rfl, rfl, rfl⟩

instance : IsTrans Context Unchanged where
  trans _ _ _ h h' := ⟨h'.opened.trans h.opened, h'.base.trans h.base,
    h'.asserted.trans h.asserted, h'.frames.trans h.frames, h'.committed.trans h.committed⟩

theorem Unchanged.inside (h : c.Unchanged c') : c.Inside c' where
  opened l _ hl := ⟨l, rfl, h.opened.trans hl⟩
  frames top _ htop := ⟨top, h.frames.trans htop⟩
  base _ := h.base
  asserted _ := h.asserted
  committed := h.committed

instance : Std.Refl Inside where
  refl c := (refl_of Unchanged c).inside

instance : IsTrans Context Inside where
  trans c c' c'' h h' := by
    refine ⟨fun l outer hl => ?_, fun top outer htop => ?_, fun hne => ?_, fun hne => ?_,
      h'.committed.trans h.committed⟩
    · obtain ⟨l', hserial, hl'⟩ := h.opened l outer hl
      obtain ⟨l'', hserial', hl''⟩ := h'.opened l' outer hl'
      exact ⟨l'', hserial'.trans hserial, hl''⟩
    · obtain ⟨top', htop'⟩ := h.frames top outer htop
      exact h'.frames top' outer htop'
    · obtain ⟨l, outer, hl⟩ := List.exists_cons_of_ne_nil hne
      obtain ⟨l', -, hl'⟩ := h.opened l outer hl
      exact (h'.base (by simp [hl'])).trans (h.base hne)
    · obtain ⟨top, outer, htop⟩ := List.exists_cons_of_ne_nil hne
      obtain ⟨top', htop'⟩ := h.frames top outer htop
      exact (h'.asserted (by simp [htop'])).trans (h.asserted hne)

theorem inside_updateCurrent (c : Context) {f : Layer → Layer}
    (hf : ∀ l, (f l).serial = l.serial) : c.Inside (c.updateCurrent f) where
  opened l outer hl := ⟨f l, hf l, by simp [updateCurrent, hl]⟩
  frames top outer htop := ⟨top, by simpa using htop⟩
  base := base_updateCurrent c f
  asserted _ := by rw [session_updateCurrent]
  committed := committed_updateCurrent c f

theorem inside_assertInside (c : Context) (a : Assertion) : c.Inside (c.assertInside a) := by
  have hadd : c.Inside { c with session := c.session.add a } := by
    refine ⟨fun l _ hl => ⟨l, rfl, hl⟩, fun top outer htop => ⟨top ++ [a], ?_⟩, fun _ => rfl,
      c.session.base_add, rfl⟩
    simp [Session.add, htop]
  exact IsTrans.trans _ _ _ hadd (inside_updateCurrent _ fun _ => rfl)

/-- The same facts are visible. -/
theorem Unchanged.fact? (h : c.Unchanged c') (name : String) : c'.fact? name = c.fact? name := by
  rw [Context.fact?, Context.fact?, layers, layers, h.opened, h.base]

theorem Unchanged.active (h : c.Unchanged c') : c'.session.active = c.session.active := by
  rw [Session.active, Session.active, Session.question, Session.question, h.asserted, h.frames]

/-- What was concluded from an unchanged state was concluded. -/
theorem Unchanged.gained {f : Fact} (h : c.Unchanged c') (h' : c'.Gained c'' f) :
    c.Gained c'' f where
  visible := h'.visible
  active := h.active ▸ h'.active
  committed hopened := by
    have hgained := h'.committed (h.opened.trans hopened)
    rwa [h.base, h.asserted, h.frames, h.committed] at hgained
  assumed l outer hopened := by
    have hgained := h'.assumed l outer (h.opened.trans hopened)
    rwa [h.base, h.asserted, h.frames, h.committed] at hgained

theorem Unchanged.concluded {f : Option Fact} (h : c.Unchanged c') (h' : c'.Concluded c'' f) :
    c.Concluded c'' f := by
  cases f with
  | none => exact IsTrans.trans _ _ _ h h'
  | some f => exact h.gained h'

/-- **Once a layer is closed nothing of what happened inside it is left.** -/
theorem Inside.unchanged {name : String} (h : (c.push name).2.Inside c') :
    c.Unchanged c'.closeInnermost := by
  obtain ⟨l, -, hl⟩ := h.opened _ _ rfl
  obtain ⟨top, htop⟩ := h.frames _ _ rfl
  have hbase := h.base (List.cons_ne_nil _ _)
  have hasserted := h.asserted (List.cons_ne_nil _ _)
  unfold closeInnermost
  rw [hl]
  exact ⟨rfl, hbase, hasserted, congrArg List.tail htop, h.committed⟩

theorem Inside.rests {name : String} (h : (c.push name).2.Inside c') :
    (c.push name).2.Rests c' := by
  obtain ⟨l, hserial, hl⟩ := h.opened _ _ rfl
  obtain ⟨top, htop⟩ := h.frames _ _ rfl
  refine ⟨?_, ?_⟩
  · rw [hl]
    exact congrArg (· :: _) hserial
  · rw [htop]
    rfl

end Changes

end Context

/-! ### Conclusions -/

namespace Context

variable {c c' : Context} {f : Fact}

/-- A fact that is committed is all that is gained. -/
theorem gained_of_commit (hc : c.opened.length = c.session.frames.length)
    (h : c.commit f = .ok c') : c.Heard c' [] ∧ c.Gained c' f := by
  obtain ⟨hopened, -, -, rfl⟩ := Proof.inv_of_commit h
  have hframes : c.session.frames = [] := List.length_eq_zero_iff.1 (by rw [← hc, hopened]; rfl)
  refine ⟨.of_eq rfl (c.session.asked_add _), ?_, c.session.active_add _, fun _ => ?_, ?_⟩
  · have hfind := c.base.find?_register f
    simp [fact, fact?, layers, logged, hopened, hfind]
  · refine ⟨hopened, rfl, ?_, ?_, rfl⟩
    · simp [logged, Session.add, hframes]
    · simp [logged, Session.add, Session.note, hframes]
  · intro l outer hl
    rw [hopened] at hl
    cases hl

/-- A fact that is assumed inside a layer is all that is gained. -/
theorem gained_of_assumeFact (hc : c.opened.length = c.session.frames.length)
    (hdepth : c.depth ≠ 0) (h : c.assumeFact f = .ok c') : c.Heard c' [] ∧ c.Gained c' f := by
  obtain ⟨l, outer, hl⟩ := List.exists_cons_of_ne_nil (List.ne_nil_of_length_pos
    (Nat.pos_of_ne_zero hdepth))
  obtain ⟨top, frames, htop⟩ : ∃ top frames, c.session.frames = top :: frames :=
    List.exists_cons_of_length_pos (by rw [← hc, hl]; exact Nat.succ_pos _)
  obtain rfl := Proof.eq_of_assumeFact h
  refine ⟨?_, ?_, ?_, fun hnil => ?_, ?_⟩
  · exact (Proof.heard_assertInside c f.assertion).trans (.of_eq (by simp) (by simp))
  · have hfind := ({ l with assumptions := l.assumptions + 1 } : Layer).find?_register f
    simp [fact, fact?, layers, assertInside, updateCurrent, hl, hfind]
  · simp [assertInside, Fact.assertion]
  · rw [hl] at hnil
    cases hnil
  · intro l' outer' hl'
    rw [hl] at hl'
    cases hl'
    refine ⟨top, frames, htop, ?_, ?_, ?_, ?_, ?_⟩ <;>
      simp [assertInside, updateCurrent, hl, Layer.register, Session.add, Session.note, htop]

/-- **A fact that is concluded is all that is gained.** -/
theorem gained_of_conclude (hc : c.opened.length = c.session.frames.length)
    (h : c.conclude f = .ok c') : c.Heard c' [] ∧ c.Gained c' f := by
  unfold Context.conclude at h
  split at h
  · exact gained_of_commit hc h
  · rename_i hdepth
    exact gained_of_assumeFact hc hdepth h

end Context

/-! ### What builds claims and hints -/

/-- One step in building hints: a constant is declared, or a formula or a fact is assumed. -/
inductive Context.Adds : Context → Context → Prop where
  | declare (c : Context) (stem : String) (kind : Kind) : Adds c (c.declare stem kind).2
  | assume {c c' : Context} {a : Assertion} (h : c.assume a = .ok c') : Adds c c'
  | assumeFact {c c' : Context} {f : Fact} (h : c.assumeFact f = .ok c') : Adds c c'

/-- Building hints asks nothing and stays inside the innermost layer. -/
theorem Context.Adds.quiet {c c' : Context} (h : c.Adds c') : c.Heard c' [] ∧ c.Inside c' := by
  cases h with
  | declare stem kind =>
      have hnamed := c.inside_updateCurrent (f := fun l =>
        { l with symbols := l.symbols ++ [Context.freshName stem c.issued.length] }) fun _ => rfl
      refine ⟨.of_eq (Context.ledger_updateCurrent _ _) ?_, ⟨hnamed.opened, hnamed.frames,
        hnamed.base, hnamed.asserted, hnamed.committed⟩⟩
      exact congrArg Session.asked (Context.session_updateCurrent _ _)
  | assume hassume =>
      rw [Proof.eq_of_assume hassume]
      exact ⟨Proof.heard_assertInside _ _, Context.inside_assertInside _ _⟩
  | @assumeFact _ f hassume =>
      rw [Proof.eq_of_assumeFact hassume]
      have hregister := (c.assertInside f.assertion).inside_updateCurrent
        (f := fun l => l.register f) fun _ => rfl
      refine ⟨?_, IsTrans.trans _ _ _ (Context.inside_assertInside _ _) hregister⟩
      exact (Proof.heard_assertInside c f.assertion).trans (.of_eq (by simp) (by simp))

namespace Proof

variable {α β : Type}

/-- A proof only declares constants and assumes formulas, whether it returns or fails. -/
def Builds (p : ProofM α) : Prop :=
  ∀ c : Context, Relation.ReflTransGen Context.Adds c (outcome p c).2

/-- A proof changes nothing, whether it returns or fails. -/
def Still (p : ProofM α) : Prop :=
  ∀ c : Context, (outcome p c).2 = c

section Building

theorem still_require (r : Except Failure α) : Still (require r) := by
  intro c
  rw [require, outcome_change]
  cases r <;> rfl

theorem still_look (f : Context → α) : Still (look f) :=
  fun _ => rfl

theorem still_pure (a : α) : Still (pure a) :=
  fun _ => rfl

/-- What comes after a failure is not run. -/
theorem still_fail_bind {e : Failure} {f : α → ProofM β} : Still (fail e >>= f) := by
  intro c
  rw [outcome_bind, fail, require, outcome_change]
  rfl

theorem Still.builds {p : ProofM α} (h : Still p) : Builds p := by
  intro c
  rw [h c]

theorem Builds.bind {p : ProofM α} {f : α → ProofM β} (hp : Builds p) (hf : ∀ a, Builds (f a)) :
    Builds (p >>= f) := by
  intro c
  have hfirst := hp c
  rw [outcome_bind]
  generalize outcome p c = r at hfirst
  obtain ⟨r, c₁⟩ := r
  cases r with
  | error e => exact hfirst
  | ok a => exact hfirst.trans (hf a c₁)

theorem builds_declare (stem : String) (kind : Kind) : Builds (declare stem kind) :=
  fun c => .single (.declare c stem kind)

/-- A change of the state that is one step in building hints. -/
theorem builds_change {f : Context → Except Failure Context}
    (h : ∀ c c', f c = .ok c' → Context.Adds c c') :
    Builds (change fun c => (f c).map ((), ·)) := by
  intro c
  rw [outcome_change]
  cases hf : f c with
  | error e => exact .refl
  | ok c' => exact .single (h c c' hf)

theorem builds_assume (f : Formula) (label : String) : Builds (assume f label) :=
  builds_change fun _ _ h => .assume h

theorem builds_assumeFact (f : Fact) : Builds (assumeFact f) :=
  builds_change fun _ _ h => .assumeFact h

theorem builds_assumeHints (formulas : List Formula) (label : String) :
    Builds (assumeHints formulas label) := by
  induction formulas with
  | nil => exact (still_pure ()).builds
  | cons f rest ih =>
      exact Builds.bind (builds_change fun _ _ h => .assume h) fun _ => ih

theorem builds_declares (vars : List Symbol) :
    Builds (vars.mapM fun s => declare s.name s.kind) := by
  induction vars with
  | nil => exact (still_pure []).builds
  | cons s rest ih =>
      rw [List.mapM_cons]
      exact (builds_declare _ _).bind fun w => ih.bind fun ws => (still_pure _).builds

theorem builds_assumeGuard (claim : Fact) (ws : List Symbol) : Builds (assumeGuard claim ws) := by
  unfold assumeGuard
  split
  · exact (still_pure ()).builds
  · exact (still_require _).builds.bind fun guard => builds_assume _ _

end Building

/-! ### Stopping at a query -/

/-- **A proof stops at the first query that is not refuted.**  By then it changed no more than a
relation between states allows, and it fails with that query or goes on to some condition. -/
def Stops (R : Context → Context → Prop) (S : α → Exchange → Context → Prop) (p : ProofM α) :
    Prop :=
  ∀ c : Context, ∃ xs, c.Heard (outcome p c).2 xs ∧ R c (outcome p c).2 ∧
    ((∀ x ∈ xs, x.Refuted) ∨ ∃ y : Exchange, y.Ends xs ∧ Struck y S (outcome p c))

section Rules

variable {R : Context → Context → Prop} {S : α → Exchange → Context → Prop}
  {S' : β → Exchange → Context → Prop}

/-- **One proof after another.**  If the first one goes on after a query that was not refuted, the
second one asks nothing and fails with that query, or goes on in turn. -/
theorem Stops.bind [IsTrans Context R] {p : ProofM α} {f : α → ProofM β} (hp : Stops R S p)
    (hf : ∀ a, Stops R S' (f a))
    (hS : ∀ a y c, S a y c → ¬ y.Refuted →
      c.Heard (outcome (f a) c).2 [] ∧ Struck y S' (outcome (f a) c)) :
    Stops R S' (p >>= f) := by
  intro c
  obtain ⟨xs, hheard, hR, h⟩ := hp c
  rw [outcome_bind]
  generalize outcome p c = r at hheard hR h ⊢
  obtain ⟨r, c₁⟩ := r
  cases r with
  | error e => exact ⟨xs, hheard, hR, h⟩
  | ok a =>
      obtain ⟨zs, hheard', hR', h'⟩ := hf a c₁
      refine ⟨xs ++ zs, hheard.trans hheard', IsTrans.trans _ _ _ hR hR', ?_⟩
      rcases h with href | ⟨y, ⟨ys, rfl, href, hy⟩, hstruck⟩
      · rcases h' with href' | ⟨y, ⟨ys, rfl, href', hy⟩, hstruck⟩
        · exact .inl fun x hx => (List.mem_append.1 hx).elim (href x) (href' x)
        · refine .inr ⟨y, ⟨xs ++ ys, (List.append_assoc _ _ _).symm, ?_, hy⟩, hstruck⟩
          exact fun x hx => (List.mem_append.1 hx).elim (href x) (href' x)
      · -- the query that was not refuted is still the last one
        obtain ⟨hquiet, hstruck'⟩ := hS a y c₁ hstruck hy
        obtain rfl : zs = [] := hheard'.unique hquiet
        exact .inr ⟨y, ⟨ys, List.append_nil _, href, hy⟩, hstruck'⟩

theorem Stops.mono {S₁ : α → Exchange → Context → Prop} {p : ProofM α} (h : Stops R S p)
    (hS : ∀ a y c, S a y c → S₁ a y c) : Stops R S₁ p := by
  intro c
  obtain ⟨xs, hheard, hR, h⟩ := h c
  exact ⟨xs, hheard, hR, h.imp_right fun ⟨y, hy, hstruck⟩ =>
    ⟨y, hy, hstruck.mono fun a c => hS a y c⟩⟩

/-- A proof that stops at the first query that is not refuted, with which it fails. -/
def Halts (R : Context → Context → Prop) (p : ProofM α) : Prop :=
  Stops R (fun _ _ _ => False) p

theorem Halts.stops {p : ProofM α} (h : Halts R p) : Stops R S p :=
  h.mono fun _ _ _ h => h.elim

theorem Halts.bind [IsTrans Context R] {p : ProofM α} {f : α → ProofM β} (hp : Halts R p)
    (hf : ∀ a, Stops R S' (f a)) : Stops R S' (p >>= f) :=
  Stops.bind hp hf fun _ _ _ h => h.elim

theorem Stops.inside {p : ProofM α} (h : Stops Context.Unchanged S p) :
    Stops Context.Inside S p := by
  intro c
  obtain ⟨xs, hheard, hunchanged, h⟩ := h c
  exact ⟨xs, hheard, hunchanged.inside, h⟩

/-- What changes nothing asks nothing. -/
theorem Still.halts [Std.Refl R] {p : ProofM α} (h : Still p) : Halts R p := by
  intro c
  rw [h c]
  exact ⟨[], .refl c, refl_of R c, .inl (by simp)⟩

/-- What builds hints asks nothing, and stays inside its layer. -/
theorem Builds.halts {p : ProofM α} (h : Builds p) : Halts Context.Inside p := by
  intro c
  have hquiet {c' : Context} (hadds : Relation.ReflTransGen Context.Adds c c') :
      c.Heard c' [] ∧ c.Inside c' := by
    induction hadds with
    | refl => exact ⟨.refl c, refl_of Context.Inside c⟩
    | tail _ hstep ih =>
        obtain ⟨hheard, hinside⟩ := hstep.quiet
        exact ⟨ih.1.trans hheard, IsTrans.trans _ _ _ ih.2 hinside⟩
  exact ⟨[], (hquiet (h c)).1, (hquiet (h c)).2, .inl (by simp)⟩

/-- A query that is not refuted is the last one, and its verdict is returned. -/
theorem stops_checkRefuted (name rule claim : String) :
    Stops Context.Unchanged (fun v y _ =>
      v = y.entry.verdict ∧ y.entry.lemmaName = name ∧ y.entry.rule = rule)
      (checkRefuted name rule claim) := by
  intro c
  have houtcome : outcome (checkRefuted name rule claim) c = c.checkRefuted name rule claim := rfl
  have hunchanged : c.Unchanged (c.checkRefuted name rule claim).2 := by
    obtain ⟨session, ledger, log, hsame, hbase, hframes⟩ := c.checkRefuted_eq name rule claim
    rw [hsame]
    exact ⟨rfl, rfl, hbase, hframes, rfl⟩
  rw [houtcome]
  cases hreply : c.session.reply with
  | error fault =>
      -- the solver cannot reply
      refine ⟨[], .of_eq ?_ ?_, hunchanged, .inl (by simp)⟩
      · rw [Context.checkRefuted, Session.check, hreply]
      · rw [Context.checkRefuted, Session.check, hreply]
        rfl
  | ok r =>
      obtain ⟨y, c', hc, hwent, hname, hrule, -⟩ := went_checkRefuted hreply name rule claim
      rw [hc] at hunchanged ⊢
      refine ⟨[y], hwent.heard, hunchanged, ?_⟩
      by_cases hy : y.Refuted
      · exact .inl (List.forall_mem_singleton.2 hy)
      · exact .inr ⟨y, ⟨[], rfl, by simp, hy⟩, rfl, hname, hrule⟩

/-! ### Layers -/

/-- **A part of a proof inside a layer** leaves nothing of what it does inside. -/
theorem stops_scope {name : String} {body : Layer → ProofM α}
    (hbody : ∀ layer, Stops Context.Inside S (body layer)) :
    Stops Context.Unchanged (fun a y c => ∃ c', S a y c' ∧ c = c'.closeInnermost)
      (scope name body) := by
  intro c
  obtain ⟨xs, hheard, hinside, h⟩ := hbody (c.push name).1 (c.push name).2
  rw [outcome_scope_of_rests hinside.rests]
  refine ⟨xs, ?_, hinside.unchanged, h.imp_right ?_⟩
  · simpa using ((heard_push c name).trans hheard).trans (heard_closeInnermost _)
  · rintro ⟨y, hy, hstruck⟩
    refine ⟨y, hy, ?_⟩
    generalize outcome (body (c.push name).1) (c.push name).2 = r at hstruck ⊢
    obtain ⟨r, c₁⟩ := r
    cases r with
    | error e => exact hstruck
    | ok a => exact ⟨c₁, hstruck, rfl⟩

theorem halts_scope {name : String} {body : Layer → ProofM α}
    (hbody : ∀ layer, Halts Context.Inside (body layer)) :
    Halts Context.Unchanged (scope name body) :=
  (stops_scope hbody).mono fun _ _ _ ⟨_, h, _⟩ => h

/-! ### Goals and claims -/

/-- **A goal is judged by its query**, whatever the verdict is. -/
theorem stops_discharge (g : Goal) (hints : List Formula) :
    Stops Context.Inside (fun _ y c => Judged g y c) (discharge g hints >>= fun _ => pure ()) := by
  unfold discharge
  simp only [bind_assoc]
  refine (still_look _).halts.bind fun current => ?_
  split
  · -- the layer of the goal is not the innermost one
    simp only [bind_assoc]
    exact still_fail_bind.halts.stops
  simp only [bind_assoc, pure_bind]
  refine (still_require _).halts.bind fun body => (still_require _).halts.bind fun fails => ?_
  refine (builds_assume _ _).halts.bind fun _ => (builds_assumeHints _ _).halts.bind fun _ => ?_
  refine (still_require _).halts.bind fun claim => ?_
  refine Stops.bind (stops_checkRefuted _ _ _).inside (fun verdict => ?_) fun verdict y c h _ => ?_
  · -- nothing but the records of goals changes
    intro c
    refine ⟨[], .of_eq rfl rfl, ?_, .inl (by simp)⟩
    exact (show c.Unchanged (c.setOutcome g.layer verdict) from ⟨rfl, rfl, rfl, rfl, rfl⟩).inside
  · obtain ⟨rfl, hname, hrule⟩ := h
    refine ⟨.of_eq rfl rfl, ?_, hname, hrule⟩
    simp [Context.setOutcome, Context.outcome?]

/-- In its layer a claim is judged by its query. -/
theorem stops_refutation {claim : Fact} {rule : String} {body : Goal → ProofM Unit}
    (hbody : ∀ g, Stops Context.Inside (fun _ y c => Judged g y c) (body g)) (layer : Layer) :
    Stops Context.Inside (fun r y _ =>
      r.2 = y.entry.verdict ∧ y.entry.lemmaName = claim.name ∧ y.entry.rule = rule)
      (refutation claim rule body layer) := by
  refine (builds_declares _).halts.bind fun ws => (builds_assumeGuard claim ws).halts.bind
    fun _ => Stops.bind (hbody _) (fun _ => ?_) fun _ y c h _ => ?_
  · refine (still_look _).halts.bind fun verdict => ?_
    split
    · exact (still_require _).halts.stops
    · exact (still_pure _).halts.stops
  · obtain ⟨hverdict, hname, hrule⟩ := h
    have hverdict : c.outcome? layer = some y.entry.verdict := hverdict
    rw [outcome_bind, look, outcome_change]
    simp only [hverdict]
    exact ⟨.refl c, rfl, hname, hrule⟩

/-- **A claim that is not concluded** leaves nothing behind. -/
theorem halts_proving {claim : Fact} {rule : String} {body : Goal → ProofM Unit}
    (hbody : ∀ g, Stops Context.Inside (fun _ y c => Judged g y c) (body g)) :
    Halts Context.Unchanged (proving claim rule false body) := by
  rw [proving_eq]
  refine Stops.bind (stops_scope (stops_refutation hbody)) (fun r => ?_) fun r y c h hy => ?_
  · obtain ⟨layer, verdict⟩ := r
    unfold judging
    simp only
    split
    · exact still_fail_bind.halts
    · exact (still_pure ()).halts
  · obtain ⟨layer, verdict⟩ := r
    obtain ⟨_, ⟨rfl, hname, rfl⟩, -⟩ := h
    rw [outcome_judging hy hname]
    exact ⟨.refl c, layer.depth, rfl⟩

/-- A claim is established by a single query. -/
theorem stops_hints {hints : HintsT Id} (hhints : ∀ ws, Builds (hints ws)) (g : Goal) :
    Stops Context.Inside (fun _ y c => Judged g y c)
      (hints g.witnesses >>= fun hs => discharge g hs >>= fun _ => pure ()) :=
  (hhints g.witnesses).halts.bind fun hs => stops_discharge g hs

theorem halts_prove {claim : Fact} {rule : String} {hints : HintsT Id}
    (hhints : ∀ ws, Builds (hints ws)) : Halts Context.Unchanged (prove claim rule hints false) :=
  halts_proving (stops_hints hhints)

end Rules

/-! ### All or nothing -/

/-- **A proof is all or nothing.**  If it returns, all its queries were refuted, and exactly one
fact was concluded or none.  If it fails, everything is as it was, and either all its queries were
refuted, or all but the last one, with which it failed. -/
def AllOrNothing (p : ProofM α) (concluded : α → Option Fact) (c : Context) : Prop :=
  ∃ xs, c.Heard (outcome p c).2 xs ∧
    match outcome p c with
    | (.ok a, c') => (∀ x ∈ xs, x.Refuted) ∧ c.Concluded c' (concluded a)
    | (.error e, c') => c.Unchanged c' ∧
        ((∀ x ∈ xs, x.Refuted) ∨ ∃ y depth, Exchange.Ends y xs ∧ e = y.failure depth)

section AllOrNothing

variable {c : Context} {concluded : β → Option Fact}

/-- If it fails, everything is as it was. -/
theorem AllOrNothing.unchanged {p : ProofM β} (h : AllOrNothing p concluded c)
    (hfails : (outcome p c).1.toOption = none) : c.Unchanged (outcome p c).2 := by
  obtain ⟨xs, -, h⟩ := h
  generalize outcome p c = r at h hfails ⊢
  obtain ⟨r, c'⟩ := r
  cases r with
  | error e => exact h.1
  | ok b => cases hfails

/-- What concludes nothing is all or nothing. -/
theorem Halts.allOrNothing {p : ProofM α} (h : Halts Context.Unchanged p) :
    AllOrNothing p (fun _ => none) c := by
  obtain ⟨xs, hheard, hunchanged, h⟩ := h c
  refine ⟨xs, hheard, ?_⟩
  generalize outcome p c = r at hunchanged h ⊢
  obtain ⟨r, c'⟩ := r
  cases r with
  | error e =>
      refine ⟨hunchanged, h.imp_right ?_⟩
      rintro ⟨y, hy, depth, rfl⟩
      exact ⟨y, depth, hy, rfl⟩
  | ok a => exact ⟨h.resolve_right fun ⟨_, _, hfalse⟩ => hfalse, hunchanged⟩

/-- **What concludes nothing may come first.** -/
theorem AllOrNothing.after {p : ProofM α} {f : α → ProofM β} (hp : Halts Context.Unchanged p)
    (hc : c.opened.length = c.session.frames.length)
    (hf : ∀ a c', c'.opened.length = c'.session.frames.length → AllOrNothing (f a) concluded c') :
    AllOrNothing (p >>= f) concluded c := by
  obtain ⟨xs, hheard, hunchanged, h⟩ := hp c
  unfold AllOrNothing
  rw [outcome_bind]
  generalize outcome p c = r at hheard hunchanged h ⊢
  obtain ⟨r, c₁⟩ := r
  cases r with
  | error e =>
      refine ⟨xs, hheard, hunchanged, h.imp_right ?_⟩
      rintro ⟨y, hy, depth, rfl⟩
      exact ⟨y, depth, hy, rfl⟩
  | ok a =>
      have href := h.resolve_right fun ⟨_, _, hfalse⟩ => hfalse
      obtain ⟨zs, hheard', h'⟩ := hf a c₁ (by rw [hunchanged.opened, hunchanged.frames, hc])
      refine ⟨xs ++ zs, hheard.trans hheard', ?_⟩
      simp only
      generalize outcome (f a) c₁ = r at h' ⊢
      obtain ⟨r, c₂⟩ := r
      cases r with
      | error e =>
          obtain ⟨hunchanged', h'⟩ := h'
          refine ⟨IsTrans.trans _ _ _ hunchanged hunchanged', ?_⟩
          rcases h' with href' | ⟨y, depth, ⟨ys, rfl, href', hy⟩, rfl⟩
          · exact .inl fun x hx => (List.mem_append.1 hx).elim (href x) (href' x)
          · refine .inr ⟨y, depth, ⟨xs ++ ys, (List.append_assoc _ _ _).symm, ?_, hy⟩, rfl⟩
            exact fun x hx => (List.mem_append.1 hx).elim (href x) (href' x)
      | ok b =>
          obtain ⟨href', hconcluded⟩ := h'
          exact ⟨fun x hx => (List.mem_append.1 hx).elim (href x) (href' x),
            hunchanged.concluded hconcluded⟩

/-- **A fact is concluded, or nothing happens.** -/
theorem allOrNothing_conclude (hc : c.opened.length = c.session.frames.length) (f : Fact) (b : β)
    (hb : concluded b = some f) : AllOrNothing (conclude f >>= fun _ => pure b) concluded c := by
  unfold AllOrNothing
  rw [outcome_bind, conclude, outcome_change]
  cases h : c.conclude f with
  | error e => exact ⟨[], .refl c, refl_of Context.Unchanged c, .inl (by simp)⟩
  | ok c' =>
      obtain ⟨hheard, hgained⟩ := Context.gained_of_conclude hc h
      refine ⟨[], hheard, by simp, ?_⟩
      rw [hb]
      exact hgained

section Combinators

variable {c : Context} {claim : Fact} {rule : String} {hints : HintsT Id} {concluding : Bool}

/-- A claim that is concluded is established first and concluded then. -/
theorem prove_concluding :
    prove claim rule hints true = prove claim rule hints false >>= fun _ =>
      conclude claim >>= fun _ => pure () := by
  rw [prove, prove, proving_eq, proving_eq, bind_assoc]
  refine congrArg (_ >>= ·) (funext fun ⟨layer, verdict⟩ => ?_)
  unfold judging
  cases hrefuted : verdict.refuted <;> simp [hrefuted]

/-- **A claim** is concluded, if it is to be, or nothing happens. -/
theorem allOrNothing_prove (hc : c.opened.length = c.session.frames.length)
    (hhints : ∀ ws, Builds (hints ws)) :
    AllOrNothing (prove claim rule hints concluding)
      (fun _ => if concluding then some claim else none) c := by
  cases concluding with
  | false => exact (halts_prove hhints).allOrNothing
  | true =>
      rw [prove_concluding]
      exact .after (halts_prove hhints) hc fun _ c hc => allOrNothing_conclude hc claim () rfl

theorem halts_requireGuard {R : Context → Context → Prop} [Std.Refl R] [IsTrans Context R]
    (shape : Fact) : Halts R (Induction.requireGuard shape) :=
  (still_require _).halts.bind fun _ => (still_pure ()).halts

/-- **Two-step induction** concludes what it is for, or nothing happens. -/
theorem allOrNothing_twoStep {name : String} {claims : AnyTerm → ProofM Fact} {lower : AnyTerm}
    {baseHints : HintsT Id} {stepHints : Induction.StepHintsT Id} {trigger : Option Trigger}
    (hc : c.opened.length = c.session.frames.length) (hclaims : ∀ t, Still (claims t))
    (hbase : ∀ ws, Builds (baseHints ws))
    (hstep : ∀ step hypothesis ws, Builds (stepHints step hypothesis ws)) :
    AllOrNothing (Induction.twoStep name claims lower baseHints stepHints trigger) some c := by
  refine .after (hclaims lower).halts hc fun base c hc => .after (halts_prove hbase) hc
    fun _ c hc => .after (halts_scope fun _ => ?_) hc fun _ c hc =>
    .after (hclaims _).halts hc fun shape c hc => .after (halts_requireGuard shape) hc
    fun _ c hc => .after (still_require _).halts hc fun conclusion c hc =>
    allOrNothing_conclude hc conclusion conclusion rfl
  -- the layer of the successor step
  refine Halts.bind ?_ fun step => Halts.bind ?_ fun _ => (hclaims step.k).halts.bind
    fun hypothesis => (builds_assumeFact _).halts.bind fun _ =>
    (hclaims step.next).halts.bind fun successor => (halts_prove (hstep step _)).inside
  · exact ((builds_declare _ _).bind fun k => (builds_declare _ _).bind fun next =>
      (still_look _).builds.bind fun layer => (still_pure _).builds).halts
  · exact ((builds_assume _ _).bind fun _ => builds_assume _ _).halts

/-- **Well-founded induction** concludes what it is for, or nothing happens. -/
theorem allOrNothing_wellFounded {name : String} {claims : Pair → ProofM Fact}
    {stepHints : Induction.PairHintsT Id} {baseHints : Option (HintsT Id)}
    (hc : c.opened.length = c.session.frames.length) (hclaims : ∀ p, Still (claims p))
    (hbase : ∀ hints ∈ baseHints, ∀ ws, Builds (hints ws))
    (hstep : ∀ v hypothesis ws, Builds (stepHints v hypothesis ws)) :
    AllOrNothing (Induction.wellFounded name claims stepHints baseHints) some c := by
  have hpart (c : Context) (hc : c.opened.length = c.session.frames.length) :
      AllOrNothing (Induction.wellFounded name claims stepHints none) some c := by
    unfold Induction.wellFounded
    dsimp only
    refine .after (halts_scope fun _ => ?_) hc fun _ c hc => .after (hclaims _).halts hc
      fun shape c hc => .after (halts_requireGuard shape) hc fun _ c hc =>
      allOrNothing_conclude hc _ _ rfl
    -- the layer of the pair
    refine (builds_declare _ _).halts.bind fun v1 => (builds_declare _ _).halts.bind fun v2 => ?_
    refine (builds_assume _ _).halts.bind fun _ => (hclaims _).halts.bind fun smaller => ?_
    refine (halts_requireGuard smaller).bind fun _ => (builds_assumeFact _).halts.bind fun _ => ?_
    exact (hclaims _).halts.bind fun step => (halts_prove (hstep _ _)).inside
  cases baseHints with
  | none => exact hpart c hc
  | some hints =>
      unfold Induction.wellFounded at hpart ⊢
      dsimp only at hpart ⊢
      exact .after (hclaims _).halts hc fun base c hc =>
        .after (halts_prove (hbase hints rfl)) hc fun _ c hc => hpart c hc

/-- **Claims and both inductions are all or nothing**, in whatever state a run is, at whatever depth
and whatever the solver replies: their hints may declare constants, assume formulas and fail, and
what they conclude is committed if no layer is open and assumed in the innermost layer otherwise. -/
theorem combinators_all_or_nothing (hc : c.Reachable) (hhints : ∀ ws, Builds (hints ws))
    {name : String} {claims : AnyTerm → ProofM Fact} {lower : AnyTerm} {baseHints : HintsT Id}
    {stepHints : Induction.StepHintsT Id} {trigger : Option Trigger}
    (hclaims : ∀ t, Still (claims t)) (hbase : ∀ ws, Builds (baseHints ws))
    (hstep : ∀ step hypothesis ws, Builds (stepHints step hypothesis ws))
    {pairClaims : Pair → ProofM Fact} {pairHints : Induction.PairHintsT Id}
    {pairBase : Option (HintsT Id)} (hpairClaims : ∀ p, Still (pairClaims p))
    (hpairBase : ∀ hints ∈ pairBase, ∀ ws, Builds (hints ws))
    (hpair : ∀ v hypothesis ws, Builds (pairHints v hypothesis ws)) :
    AllOrNothing (prove claim rule hints concluding)
        (fun _ => if concluding then some claim else none) c ∧
      AllOrNothing (Induction.twoStep name claims lower baseHints stepHints trigger) some c ∧
      AllOrNothing (Induction.wellFounded name pairClaims pairHints pairBase) some c :=
  have hdepth := hc.orderly.depth
  ⟨allOrNothing_prove hdepth hhints, allOrNothing_twoStep hdepth hclaims hbase hstep,
    allOrNothing_wellFounded hdepth hpairClaims hpairBase hpair⟩

/-- Hints that declare a constant and assume that it is positive. -/
def positiveHints : HintsT Id := fun _ => do
  let p ← declare "p" .int
  assume (.atLeast (.int p.name) 1) "p >= 1"
  return []

theorem builds_positiveHints (ws : List Symbol) : Builds (positiveHints ws) :=
  (builds_declare _ _).bind fun _ => (builds_assume _ _).bind fun _ => (still_pure _).builds

/-- A state inside a layer, with a solver that refutes the next query and not the one after it. -/
def hesitating : Context :=
  ((Context.start (Settings.options {}) [.ok ⟨"UNSAT", none⟩, .ok ⟨"UNKNOWN", none⟩]).push "case").2

/-- There an induction by two queries fails with the second one, and everything is as it was. -/
theorem unchanged_hesitating :
    let natural : AnyTerm → ProofM Fact := fun t => pure (.plain "natural" (.atLeast t.toInt 0))
    let r := outcome (Induction.twoStep "natural" natural (.int (.num 0)) positiveHints
      (fun _ _ => positiveHints) none) hesitating
    hesitating.Reachable ∧ r.1.toOption = none ∧ hesitating.Unchanged r.2 := by
  intro natural r
  have hreachable : hesitating.Reachable := (Context.Reachable.start _ _).move (.push _ "case")
  obtain ⟨-, h, -⟩ := @combinators_all_or_nothing hesitating (.plain "true" (.lit true))
    plainRule positiveHints true hreachable builds_positiveHints "natural" natural (.int (.num 0))
    positiveHints (fun _ _ => positiveHints) none (fun _ => still_pure _) builds_positiveHints
    (fun _ _ => builds_positiveHints) (fun p => pure (.plain "natural" p.domain))
    (fun _ _ => positiveHints) none (fun _ => still_pure _) (by simp)
    (fun _ _ => builds_positiveHints)
  have hfails : r.1.toOption = none := Option.isNone_iff_eq_none.1 (by decide +kernel)
  exact ⟨hreachable, hfails, h.unchanged hfails⟩

end Combinators

end AllOrNothing

end Proof

end CandyCircle
