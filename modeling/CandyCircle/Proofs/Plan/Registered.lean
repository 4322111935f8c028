/-
**What the base holds.**

The base is meant for committed facts: what was committed is found under its name from then on, and
a step of a plan whose requirements are found while no layer is open rests on committed facts.  A
fact that is assumed while no layer is open is registered at the base, too, without being committed,
under a name that may be taken.  So the base holds the committed facts and nothing else throughout a
run exactly if whatever was assumed there had been committed.

Main definitions:

* `CandyCircle.Operation`, `CandyCircle.Operation.run` — **operations in any order**, refused or
  not, and the state that they lead to;
* `CandyCircle.Registration`, `CandyCircle.Operation.registered` — what they register at the base;
* `CandyCircle.Operation.commits`, `CandyCircle.Operation.assumed` — the facts among it that are
  committed and that are only assumed;
* `CandyCircle.Context.Accounted` — the base holds the committed facts and nothing else.

Main results:

* `CandyCircle.Operation.reachable_iff` — operations lead to the reachable states and no others;
* `CandyCircle.Operation.filed_run` — **the base holds what was registered there**;
* `CandyCircle.Operation.accounted_iff` — **the base holds the committed facts and nothing else**
  throughout a run exactly if whatever was assumed there had been committed.
-/
import CandyCircle.Proofs.Plan.Stages
import CandyCircle.Proofs.Refutation.Confined
import Mathlib.Data.List.Induction

set_option autoImplicit false

namespace CandyCircle

open Logic

/-! ### Operations -/

/-- An operation on the state of a run, which may be refused. -/
inductive Operation where
  | push (name : String)
  | pop (expected : Option Layer)
  | unwind (layer : Layer)
  | declare (stem : String) (kind : Kind)
  | assume (a : Assertion)
  | assumeFact (f : Fact)
  | commit (f : Fact)
  | conclude (f : Fact)
  | check (name rule claim : String)
  | setOutcome (layer : Layer) (v : Verdict)
  | log (level : LogLevel) (source : LogSource) (message : String)

/-- A fact that is registered at the base. -/
structure Registration where
  fact : Fact
  /-- Whether it is committed there, and not only assumed. -/
  committed : Bool

namespace Operation

/-- The state after an operation, unless it is refused. -/
def attempt (c : Context) : Operation → Except Failure Context
  | push name => .ok (c.push name).2
  | pop expected => (c.pop expected).map Prod.snd
  | unwind layer => .ok (c.unwind layer)
  | declare stem kind => .ok (c.declare stem kind).2
  | assume a => c.assume a
  | assumeFact f => c.assumeFact f
  | commit f => c.commit f
  | conclude f => c.conclude f
  | check name rule claim => .ok (c.checkRefuted name rule claim).2
  | setOutcome layer v => .ok (c.setOutcome layer v)
  | log level source message => .ok (c.logged level source message)

/-- The state after an operation: if it is refused, the state stays. -/
def after (c : Context) (op : Operation) : Context :=
  match op.attempt c with
  | .ok c' => c'
  | .error _ => c

/-- What an operation that is not refused registers at the base. -/
def intended (c : Context) : Operation → List Registration
  | commit f => [⟨f, true⟩]
  | assumeFact f => if c.depth = 0 then [⟨f, false⟩] else []
  | conclude f => if c.depth = 0 then [⟨f, true⟩] else []
  | _ => []

/-- What an operation registers at the base. -/
def registers (c : Context) (op : Operation) : List Registration :=
  match op.attempt c with
  | .ok _ => op.intended c
  | .error _ => []

/-- The state after operations, one after another. -/
def run (c : Context) (ops : List Operation) : Context :=
  ops.foldl after c

/-- What operations register at the base, one after another. -/
def registered (c : Context) : List Operation → List Registration
  | [] => []
  | op :: ops => op.registers c ++ registered (op.after c) ops

/-- The facts among registrations that are committed. -/
def committedAmong (rs : List Registration) : List Fact :=
  (rs.filter Registration.committed).map Registration.fact

/-- The facts that operations commit. -/
def commits (c : Context) (ops : List Operation) : List Fact :=
  committedAmong (registered c ops)

/-- The facts that operations assume at the base. -/
def assumed (c : Context) (ops : List Operation) : List Fact :=
  ((registered c ops).filter fun r => !r.committed).map Registration.fact

section Operations

variable {c c' : Context} {op : Operation} {ops : List Operation}

theorem run_concat (c : Context) (ops : List Operation) (op : Operation) :
    run c (ops ++ [op]) = op.after (run c ops) := by
  simp [run]

theorem registered_append (ops more : List Operation) : ∀ c : Context,
    registered c (ops ++ more) = registered c ops ++ registered (run c ops) more := by
  induction ops with
  | nil => exact fun c => rfl
  | cons first rest ih =>
      intro c
      rw [List.cons_append, registered, registered, ih, List.append_assoc]
      rfl

theorem registered_concat (c : Context) (ops : List Operation) (op : Operation) :
    registered c (ops ++ [op]) = registered c ops ++ op.registers (run c ops) := by
  rw [registered_append, registered, registered, List.append_nil]

theorem eq_of_attempt_pop {expected : Option Layer} (h : attempt c (pop expected) = .ok c') :
    c' = c.closeInnermost := by
  cases hpop : c.pop expected with
  | error e =>
      rw [attempt, hpop] at h
      cases h
  | ok r =>
      rw [attempt, hpop] at h
      cases h
      exact (Proof.eq_of_pop hpop).2

/-- An operation that is not refused is one of those that lead to reachable states. -/
theorem moves_attempt (h : op.attempt c = .ok c') : Context.Moves c c' := by
  cases op with
  | push name =>
      cases h
      exact .push c name
  | pop expected =>
      cases hpop : c.pop expected with
      | error e =>
          rw [attempt, hpop] at h
          cases h
      | ok r =>
          rw [attempt, hpop] at h
          cases h
          exact .pop hpop
  | unwind layer =>
      cases h
      exact .unwind c layer
  | declare stem kind =>
      cases h
      exact .declare c stem kind
  | assume a => exact .assume h
  | assumeFact f => exact .assumeFact h
  | commit f => exact .commit h
  | conclude f =>
      have h : c.conclude f = .ok c' := h
      unfold Context.conclude at h
      split at h
      · exact .commit h
      · exact .assumeFact h
  | check name rule claim =>
      cases h
      exact .check c name rule claim
  | setOutcome layer v =>
      cases h
      exact .setOutcome c layer v
  | log level source message =>
      cases h
      exact .log c level source message

theorem exists_attempt (h : Context.Moves c c') : ∃ op : Operation, op.attempt c = .ok c' := by
  cases h with
  | push name => exact ⟨.push name, rfl⟩
  | pop hpop => exact ⟨.pop _, by rw [attempt, hpop]; rfl⟩
  | unwind layer => exact ⟨.unwind layer, rfl⟩
  | declare stem kind => exact ⟨.declare stem kind, rfl⟩
  | assume hassume => exact ⟨.assume _, hassume⟩
  | assumeFact hassume => exact ⟨.assumeFact _, hassume⟩
  | commit hcommit => exact ⟨.commit _, hcommit⟩
  | check name rule claim => exact ⟨.check name rule claim, rfl⟩
  | setOutcome layer v => exact ⟨.setOutcome layer v, rfl⟩
  | log level source message => exact ⟨.log level source message, rfl⟩

/-- A list of operations leads to what operations lead to, and to nothing else. -/
theorem leads_iff : c.Leads c' ↔ ∃ ops, c' = run c ops := by
  constructor
  · intro h
    induction h with
    | refl => exact ⟨[], rfl⟩
    | tail _ hmove ih =>
        obtain ⟨ops, rfl⟩ := ih
        obtain ⟨op, hop⟩ := exists_attempt hmove
        refine ⟨ops ++ [op], ?_⟩
        rw [run_concat, after, hop]
  · rintro ⟨ops, rfl⟩
    induction ops using List.reverseRecOn with
    | nil => exact .refl c
    | append_singleton ops op ih =>
        rw [run_concat, after]
        split
        · rename_i c' hop
          exact ih.trans (.of_moves (moves_attempt hop))
        · exact ih

/-- **Operations lead to the reachable states** and to no others. -/
theorem reachable_iff : c.Reachable ↔
    ∃ options replies ops, c = run (Context.start options replies) ops := by
  simp only [Context.reachable_iff_leads, leads_iff]

/-! ### What is registered -/

/-- The facts of the base once something more is registered there. -/
def enter (facts : List (String × Fact)) (r : Registration) : List (String × Fact) :=
  Layer.put facts r.fact

theorem map_fst_put (facts : List (String × Fact)) (f : Fact) :
    (Layer.put facts f).map Prod.fst =
      if f.name ∈ facts.map Prod.fst then facts.map Prod.fst
      else facts.map Prod.fst ++ [f.name] := by
  induction facts with
  | nil => simp [Layer.put]
  | cons entry rest ih =>
      unfold Layer.put
      by_cases hname : entry.1 = f.name
      · rw [if_pos hname]
        simp [hname]
      · rw [if_neg hname, List.map_cons, ih]
        have hne : f.name ≠ entry.1 := fun h => hname h.symm
        by_cases hmem : f.name ∈ rest.map Prod.fst
        · simp_all
        · simp_all

/-- Registering a fact again that is registered changes nothing. -/
theorem put_of_mem {facts : List (String × Fact)} {f : Fact}
    (hnodup : (facts.map Prod.fst).Nodup) (hf : (f.name, f) ∈ facts) :
    Layer.put facts f = facts := by
  induction facts with
  | nil => cases hf
  | cons entry rest ih =>
      obtain ⟨hfirst, hrest⟩ := List.nodup_cons.1 hnodup
      unfold Layer.put
      by_cases hname : entry.1 = f.name
      · rw [if_pos hname]
        rcases List.mem_cons.1 hf with rfl | hf
        · rfl
        · exact absurd (List.mem_map.2 ⟨_, hf, hname.symm⟩) hfirst
      · rw [if_neg hname]
        rcases List.mem_cons.1 hf with rfl | hf
        · exact absurd rfl hname
        · rw [ih hrest hf]

/-- An operation registers one fact at most. -/
theorem registers_of_mem {r : Registration} (hr : r ∈ op.registers c) : op.registers c = [r] := by
  unfold registers at hr ⊢
  split at hr
  · cases op <;> simp only [intended] at hr ⊢ <;> grind
  · cases hr

theorem mem_put (facts : List (String × Fact)) (f : Fact) :
    (f.name, f) ∈ Layer.put facts f := by
  induction facts with
  | nil => exact List.mem_singleton.2 rfl
  | cons entry rest ih =>
      unfold Layer.put
      split
      · exact List.mem_cons_self
      · exact List.mem_cons_of_mem _ ih

theorem mem_names_foldl {name : String} {rs : List Registration} :
    ∀ {facts : List (String × Fact)}, name ∈ (rs.foldl enter facts).map Prod.fst ↔
      name ∈ facts.map Prod.fst ∨ ∃ r ∈ rs, r.fact.name = name := by
  induction rs with
  | nil => simp
  | cons r rest ih =>
      intro facts
      have hput : name ∈ (enter facts r).map Prod.fst ↔
          name ∈ facts.map Prod.fst ∨ r.fact.name = name := by
        rw [enter, map_fst_put]
        split <;> grind
      rw [List.foldl_cons, ih, hput]
      simp [or_assoc]

/-- No fact is committed under a name under which something had been registered. -/
def Untaken (rs : List Registration) : Prop :=
  rs.Pairwise fun r q => q.committed = true → r.fact.name ≠ q.fact.name

/-- The base is what was registered there. -/
structure Filed (c : Context) (rs : List Registration) : Prop where
  facts : c.base.facts = rs.foldl enter []
  committed : c.committed = (committedAmong rs).map Fact.name
  untaken : Untaken rs

theorem Filed.same {rs : List Registration} (h : Filed c rs)
    (hfacts : c'.base.facts = c.base.facts) (hcommitted : c'.committed = c.committed) :
    Filed c' (rs ++ []) := by
  rw [List.append_nil]
  exact ⟨hfacts.trans h.facts, hcommitted.trans h.committed, h.untaken⟩

theorem Filed.assumed {rs : List Registration} (h : Filed c rs) {f : Fact}
    (hfacts : c'.base.facts = Layer.put c.base.facts f) (hcommitted : c'.committed = c.committed) :
    Filed c' (rs ++ [⟨f, false⟩]) where
  facts := by rw [hfacts, h.facts, List.foldl_append]; rfl
  committed := by simp [hcommitted, h.committed, committedAmong]
  untaken := List.pairwise_append.2
    ⟨h.untaken, List.pairwise_singleton _ _, fun r _ q hq hcommitted => by
      rw [List.mem_singleton.1 hq] at hcommitted
      cases hcommitted⟩

theorem Filed.commit {rs : List Registration} (h : Filed c rs) {f : Fact}
    (hcommit : c.commit f = .ok c') : Filed c' (rs ++ [⟨f, true⟩]) := by
  obtain ⟨-, hnew, -, rfl⟩ := Proof.inv_of_commit hcommit
  refine ⟨?_, ?_, List.pairwise_append.2 ⟨h.untaken, List.pairwise_singleton _ _, ?_⟩⟩
  · change Layer.put c.base.facts f = _
    rw [h.facts, List.foldl_append]
    rfl
  · change c.committed ++ [f.name] = _
    simp [h.committed, committedAmong]
  · -- the name is new at the base
    intro r hr q hq _ hname
    rw [List.mem_singleton.1 hq] at hname
    have hmem : f.name ∈ c.base.facts.map Prod.fst := by
      rw [h.facts]
      exact mem_names_foldl.2 (.inr ⟨r, hr, hname⟩)
    obtain ⟨entry, hentry, hf⟩ := List.mem_map.1 hmem
    have hnone := List.find?_eq_none.1 (Option.map_eq_none_iff.1 hnew) entry hentry
    exact hnone (by simpa using hf)

theorem committed_of_assumeFact {f : Fact} (h : c.assumeFact f = .ok c') :
    c'.committed = c.committed := by
  rw [Proof.eq_of_assumeFact h, Context.committed_updateCurrent, Context.assertInside,
    Context.committed_updateCurrent]

theorem Filed.assumeFact {rs : List Registration} (h : Filed c rs) {f : Fact}
    (hassume : c.assumeFact f = .ok c') :
    Filed c' (rs ++ if c.depth = 0 then [⟨f, false⟩] else []) := by
  have heq := Proof.eq_of_assumeFact hassume
  have hcommitted := committed_of_assumeFact hassume
  by_cases hdepth : c.depth = 0
  · have hopened : c.opened = [] := List.length_eq_zero_iff.1 hdepth
    rw [if_pos hdepth]
    refine h.assumed ?_ hcommitted
    simp [heq, Context.assertInside, Context.updateCurrent, hopened, Layer.register]
  · have hopened : c.opened ≠ [] := fun hnil => hdepth (by simp [Context.depth, hnil])
    rw [if_neg hdepth]
    refine h.same ?_ hcommitted
    have hinside : (c.assertInside f.assertion).opened ≠ [] := by
      obtain ⟨l, outer, hcons⟩ := List.exists_cons_of_ne_nil hopened
      simp [Context.assertInside, Context.updateCurrent, hcons]
    rw [heq, Context.base_updateCurrent _ _ hinside, Context.assertInside,
      Context.base_updateCurrent _ _ (by exact hopened)]

/-- **One operation** registers at the base what it says. -/
theorem Filed.after {rs : List Registration} (h : Filed c rs) (op : Operation) :
    Filed (op.after c) (rs ++ op.registers c) := by
  unfold Operation.after registers
  cases hop : op.attempt c with
  | error e => exact h.same rfl rfl
  | ok c' =>
      simp only
      cases op with
      | push name =>
          cases hop
          exact h.same rfl rfl
      | pop expected =>
          rw [eq_of_attempt_pop hop]
          have hbase := Proof.sameBase_closeInnermost c
          exact h.same hbase.facts hbase.committed
      | unwind layer =>
          cases hop
          have hbase := (Proof.heard_unwind c layer).2
          exact h.same hbase.facts hbase.committed
      | declare stem kind =>
          cases hop
          exact h.same (Context.facts_updateCurrent _ _ fun _ => rfl)
            (Context.committed_updateCurrent _ _)
      | assume a =>
          rw [Proof.eq_of_assume hop]
          exact h.same (Context.facts_updateCurrent _ _ fun _ => rfl)
            (Context.committed_updateCurrent _ _)
      | assumeFact f => exact h.assumeFact hop
      | commit f => exact h.commit hop
      | conclude f =>
          have hop : c.conclude f = .ok c' := hop
          unfold Context.conclude at hop
          split at hop
          · rename_i hdepth
            rw [intended, if_pos hdepth]
            exact h.commit hop
          · rename_i hdepth
            have hassumed := h.assumeFact hop
            rw [if_neg hdepth] at hassumed
            rwa [intended, if_neg hdepth]
      | check name rule claim =>
          cases hop
          obtain ⟨session, ledger, log, hsame, -⟩ := c.checkRefuted_eq name rule claim
          rw [hsame]
          exact h.same rfl rfl
      | setOutcome layer v =>
          cases hop
          exact h.same rfl rfl
      | log level source message =>
          cases hop
          exact h.same rfl rfl

/-- **The base holds what was registered there.** -/
theorem filed_run (ops : List Operation) : ∀ {c : Context} {rs : List Registration}, Filed c rs →
    Filed (run c ops) (rs ++ registered c ops) := by
  induction ops with
  | nil =>
      intro c rs h
      exact h.same rfl rfl
  | cons op rest ih =>
      intro c rs h
      rw [registered, ← List.append_assoc]
      exact ih (h.after op)

theorem filed_of_start (options : Settings.Options) (replies : List Prepared)
    (ops : List Operation) : Filed (run (.start options replies) ops)
      (registered (.start options replies) ops) :=
  have hnothing : Filed (.start options replies) [] := ⟨rfl, rfl, .nil⟩
  filed_run ops hnothing

theorem committedAmong_append (rs qs : List Registration) :
    committedAmong (rs ++ qs) = committedAmong rs ++ committedAmong qs := by
  simp [committedAmong]

theorem mem_committedAmong {rs : List Registration} {f : Fact} :
    f ∈ committedAmong rs ↔ ∃ q ∈ rs, q.committed = true ∧ q.fact = f := by
  simp [committedAmong, and_assoc]

/-- If whatever was assumed had been committed, then what is registered is what was committed. -/
theorem foldl_enter_of_untaken {rs : List Registration} (hrs : Untaken rs)
    (hassumed : ∀ r ∈ rs, r.committed = false → r.fact ∈ committedAmong rs) :
    rs.foldl enter [] = (committedAmong rs).map (fun f => (f.name, f)) ∧
      ((committedAmong rs).map Fact.name).Nodup := by
  induction rs using List.reverseRecOn with
  | nil => exact ⟨rfl, List.nodup_nil⟩
  | append_singleton rs r ih =>
      obtain ⟨hrs, -, hlast⟩ := List.pairwise_append.1 hrs
      -- what was assumed before was committed before: later its name was taken
      have hbefore : ∀ q ∈ rs, q.committed = false → q.fact ∈ committedAmong rs := by
        intro q hq hcommitted
        have hmem := hassumed q (List.mem_append_left _ hq) hcommitted
        rw [committedAmong_append] at hmem
        rcases List.mem_append.1 hmem with hmem | hmem
        · exact hmem
        · obtain ⟨p, hp, hpcommitted, hpq⟩ := mem_committedAmong.1 hmem
          exact absurd (congrArg Fact.name hpq.symm) (hlast q hq p hp hpcommitted)
      obtain ⟨hfold, hnodup⟩ := ih hrs hbefore
      rw [List.foldl_append, List.foldl_cons, List.foldl_nil, hfold, committedAmong_append]
      have hnames : ((committedAmong rs).map fun f => (f.name, f)).map Prod.fst =
          (committedAmong rs).map Fact.name := by
        simp
      cases hcommitted : r.committed with
      | false =>
          have hmem := hassumed r (List.mem_append_right _ (List.mem_singleton.2 rfl)) hcommitted
          have hnone : committedAmong [r] = [] := by simp [committedAmong, hcommitted]
          rw [committedAmong_append, hnone, List.append_nil] at hmem
          rw [hnone, List.append_nil, enter, put_of_mem (hnames ▸ hnodup)]
          · exact ⟨rfl, hnodup⟩
          · exact List.mem_map.2 ⟨_, hmem, rfl⟩
      | true =>
          have hone : committedAmong [r] = [r.fact] := by simp [committedAmong, hcommitted]
          have hnew : r.fact.name ∉ (committedAmong rs).map Fact.name := by
            intro hmem
            obtain ⟨f, hf, hname⟩ := List.mem_map.1 hmem
            obtain ⟨q, hq, -, rfl⟩ := mem_committedAmong.1 hf
            exact hlast q hq r (List.mem_singleton.2 rfl) hcommitted hname
          rw [hone, List.map_append, List.map_append, enter, Proof.put_of_find?_eq_none]
          · refine ⟨rfl, List.nodup_append.2 ⟨hnodup, List.nodup_singleton _, ?_⟩⟩
            intro name hname name' hname' heq
            rw [List.mem_singleton.1 hname'] at heq
            exact hnew (heq ▸ hname)
          · refine List.find?_eq_none.2 fun entry hentry hname => hnew ?_
            obtain ⟨f, hf, rfl⟩ := List.mem_map.1 hentry
            exact List.mem_map.2 ⟨f, hf, by simpa using hname⟩

end Operations

end Operation

/-! ### The base and the committed facts -/

/-- The base holds given facts and nothing else, and they were committed.  So while no layer is open
they are found, and a step of a plan stops at once unless what it requires was committed. -/
structure Context.Accounted (c : Context) (fs : List Fact) : Prop where
  facts : c.base.facts = fs.map fun f => (f.name, f)
  committed : c.committed = fs.map Fact.name
  found : c.depth = 0 → ∀ f ∈ fs, c.fact f.name = .ok f
  gated : c.depth = 0 → ∀ (v : Vocabulary) (count index : Nat) (step : LemmaStep),
    (∃ name ∈ step.requires, name ∉ c.committed) →
      Proof.outcome (Plan.runStep v count index step) c =
        (.error (.scope (.missingRequirements step.name
          (step.requires.filter fun name => !c.committed.contains name))), c)

namespace Context

variable {c : Context} {fs : List Fact}

theorem fact?_of_depth (h : c.depth = 0) (name : String) : c.fact? name = c.base.find? name := by
  have hopened : c.opened = [] := List.length_eq_zero_iff.1 h
  simp [fact?, layers, hopened]

theorem find?_base (hfacts : c.base.facts = fs.map fun f => (f.name, f))
    (hnodup : (fs.map Fact.name).Nodup) : ∀ f ∈ fs, c.base.find? f.name = some f := by
  intro f hf
  have hknown := (View.has_ofFacts hnodup (fun g hg => (List.mem_singleton.1 hg) ▸ hf) 0 f
    (List.mem_singleton_self f)).1
  rw [Layer.find?, hfacts]
  exact hknown

theorem hasFact_iff (hfacts : c.base.facts = fs.map fun f => (f.name, f)) (h : c.depth = 0)
    (name : String) : c.hasFact name = true ↔ name ∈ fs.map Fact.name := by
  rw [hasFact, fact?_of_depth h, Layer.find?, hfacts]
  simp

theorem accounted_of_facts (hfacts : c.base.facts = fs.map fun f => (f.name, f))
    (hcommitted : c.committed = fs.map Fact.name) (hnodup : (fs.map Fact.name).Nodup) :
    c.Accounted fs where
  facts := hfacts
  committed := hcommitted
  found := by
    intro hdepth f hf
    rw [fact, fact?_of_depth hdepth, find?_base hfacts hnodup f hf]
  gated := by
    rintro hdepth v count index step ⟨name, hname, hmissing⟩
    have hfilter : Plan.missing c step =
        step.requires.filter fun name => !c.committed.contains name := by
      refine List.filter_congr fun name _ => congrArg _ ?_
      rw [Bool.eq_iff_iff, hasFact_iff hfacts hdepth, List.contains_iff_mem, hcommitted]
    have hmem : name ∈ step.requires.filter fun name => !c.committed.contains name :=
      List.mem_filter.2 ⟨hname, by simpa using hmissing⟩
    obtain ⟨first, others, hcons⟩ := List.exists_cons_of_ne_nil (List.ne_nil_of_mem hmem)
    rw [hcons, Plan.runStep, Proof.outcome_bind, Proof.look, Proof.outcome_change]
    simp only [hfilter, hcons]
    rfl

end Context

namespace Operation

/-- **The base holds the committed facts and nothing else** throughout a run exactly if whatever was
assumed there had been committed. -/
theorem accounted_iff (options : Settings.Options) (replies : List Prepared)
    (ops : List Operation) :
    let c := Context.start options replies
    (∀ earlier, earlier <+: ops → (run c earlier).Accounted (commits c earlier)) ↔
      ∀ f ∈ assumed c ops, f ∈ commits c ops := by
  intro c
  constructor
  · intro haccounted
    induction ops using List.reverseRecOn with
    | nil => exact fun f hf => absurd hf List.not_mem_nil
    | append_singleton ops op ih =>
        have hprefix : ops <+: ops ++ [op] := List.prefix_append _ _
        have ih := ih fun earlier hearlier => haccounted earlier (hearlier.trans hprefix)
        intro f hf
        obtain ⟨r, hr, rfl⟩ := List.mem_map.1 hf
        obtain ⟨hr, hassumed⟩ := List.mem_filter.1 hr
        rw [registered_concat] at hr
        rw [commits, registered_concat, committedAmong_append]
        rcases List.mem_append.1 hr with hr | hr
        · have hmem : r.fact ∈ assumed c ops :=
            List.mem_map.2 ⟨r, List.mem_filter.2 ⟨hr, hassumed⟩, rfl⟩
          exact List.mem_append_left _ (ih _ hmem)
        · -- it is registered now, among what was committed
          rw [← committedAmong_append, ← registered_concat]
          have hfacts := (haccounted (ops ++ [op]) (List.prefix_refl _)).facts
          rw [(filed_of_start options replies (ops ++ [op])).facts, registered_concat,
            registers_of_mem hr, List.foldl_append] at hfacts
          have hmem := mem_put (List.foldl enter [] (registered c ops)) r.fact
          rw [show Layer.put _ r.fact = _ from hfacts] at hmem
          obtain ⟨g, hg, heq⟩ := List.mem_map.1 hmem
          rw [← (Prod.mk.inj heq).2]
          exact hg
  · rintro hassumed earlier ⟨later, rfl⟩
    have hfiled := filed_of_start options replies earlier
    have huntaken := (filed_of_start options replies (earlier ++ later)).untaken
    rw [registered_append] at huntaken
    obtain ⟨-, -, hlater⟩ := List.pairwise_append.1 huntaken
    have hcommitted : ∀ r ∈ registered c earlier, r.committed = false →
        r.fact ∈ committedAmong (registered c earlier) := by
      intro r hr hcommitted
      have hmem : r.fact ∈ commits c (earlier ++ later) := by
        refine hassumed _ (List.mem_map.2 ⟨r, List.mem_filter.2 ⟨?_, by simp [hcommitted]⟩, rfl⟩)
        rw [registered_append]
        exact List.mem_append_left _ hr
      rw [commits, registered_append, committedAmong_append] at hmem
      rcases List.mem_append.1 hmem with hmem | hmem
      · exact hmem
      · -- later on its name was taken
        obtain ⟨q, hq, hqcommitted, hqr⟩ := mem_committedAmong.1 hmem
        exact absurd (congrArg Fact.name hqr.symm) (hlater r hr q hq hqcommitted)
    obtain ⟨hfold, hnodup⟩ := foldl_enter_of_untaken hfiled.untaken hcommitted
    exact Context.accounted_of_facts (hfiled.facts.trans hfold) hfiled.committed hnodup

/-- A fact about a function, which is at least a number everywhere. -/
def boundedBelow (bound : Int) : Fact :=
  .about "f-bounded" ["i"] (.lit true)
    (.atLeast (Term.apply .int "f" [.int "i"]) bound) none

/-- The state after a fact was committed and another one assumed under its name. -/
def overruled : Context :=
  run (.start (Settings.options {}) [])
    [.commit (boundedBelow 0), .assumeFact (boundedBelow 1)]

/-- **What is only assumed at the base takes the place** of what was committed. -/
theorem not_accounted_overruled :
    overruled.depth = 0 ∧ overruled.committed = ["f-bounded"] ∧
      (overruled.fact "f-bounded").toOption.map Fact.display = some "ForAll(i). f(i) >= 1" ∧
      ¬ overruled.Accounted [boundedBelow 0] := by
  have hdisplay : (overruled.fact "f-bounded").toOption.map Fact.display =
      some "ForAll(i). f(i) >= 1" := by decide +kernel
  refine ⟨by decide +kernel, by decide +kernel, hdisplay, fun h => ?_⟩
  have hfound : overruled.fact "f-bounded" = .ok (boundedBelow 0) :=
    h.found (by decide +kernel) _ (List.mem_singleton.2 rfl)
  rw [hfound] at hdisplay
  exact absurd hdisplay (by decide +kernel)

end Operation

end CandyCircle
