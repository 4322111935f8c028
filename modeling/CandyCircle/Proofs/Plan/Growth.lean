/-
**The base only grows.**

What is committed stays committed, and what is asserted at the base stays asserted, whatever is done
to the state of a run: layers are opened and closed, proofs fail and unwind several layers at once,
and operations are refused, but none of it takes back or rearranges what is persistent.

Main definitions:

* `CandyCircle.Context.Grows` — what is persistent only grows from one state to another.

Main results:

* `CandyCircle.Context.Moves.grows`, `CandyCircle.Context.Leads.grows` — one operation, and any
  number of them;
* `CandyCircle.Operation.sublist_asserted` — the base asserts the committed facts in their order;
* `CandyCircle.Operation.base_only_grows` — **the base only grows**.
-/
import CandyCircle.Proofs.Plan.Registered

set_option autoImplicit false

namespace CandyCircle

open Logic

/-! ### What operations leave at the base -/

/-- An assertion is added to those of the base, or to none of them. -/
theorem Session.base_prefix_add (s : Session) (a : Assertion) : s.base <+: (s.add a).base := by
  unfold Session.add
  split
  · exact List.prefix_append _ _
  · exact List.prefix_rfl

namespace Context

/-- What is persistent only grows from one state to another. -/
structure Grows (c c' : Context) : Prop where
  /-- What was committed stays committed, in its order. -/
  committed : c.committed <+: c'.committed
  /-- What was asserted at the base stays asserted, in its order. -/
  asserted : c.session.base <+: c'.session.base

theorem Grows.refl (c : Context) : c.Grows c :=
  ⟨List.prefix_rfl, List.prefix_rfl⟩

theorem Grows.trans {c c' c'' : Context} (h : c.Grows c') (h' : c'.Grows c'') : c.Grows c'' :=
  ⟨h.committed.trans h'.committed, h.asserted.trans h'.asserted⟩

theorem Grows.of_eq {c c' : Context} (hcommitted : c'.committed = c.committed)
    (hbase : c'.session.base = c.session.base) : c.Grows c' :=
  ⟨hcommitted ▸ List.prefix_rfl, hbase ▸ List.prefix_rfl⟩

theorem grows_updateCurrent (c : Context) (f : Layer → Layer) : c.Grows (c.updateCurrent f) :=
  .of_eq (committed_updateCurrent c f) (congrArg Session.base (session_updateCurrent c f))

theorem grows_assertInside (c : Context) (a : Assertion) : c.Grows (c.assertInside a) :=
  have hadd : c.Grows { c with session := c.session.add a } :=
    ⟨List.prefix_rfl, c.session.base_prefix_add a⟩
  hadd.trans (grows_updateCurrent _ _)

/-- **One operation** lets what is persistent grow at most. -/
theorem Moves.grows {c c' : Context} (h : Moves c c') : c.Grows c' := by
  cases h with
  | push name => exact .of_eq rfl rfl
  | pop hpop =>
      rw [(Proof.eq_of_pop hpop).2]
      have hbase := Proof.sameBase_closeInnermost c
      exact .of_eq hbase.committed hbase.asserted
  | unwind layer =>
      have hbase := (Proof.heard_unwind c layer).2
      exact .of_eq hbase.committed hbase.asserted
  | declare stem kind =>
      have hnamed := c.grows_updateCurrent fun l =>
        { l with symbols := l.symbols ++ [freshName stem c.issued.length] }
      exact ⟨hnamed.committed, hnamed.asserted⟩
  | assume hassume =>
      rw [Proof.eq_of_assume hassume]
      exact c.grows_assertInside _
  | assumeFact hassume =>
      rw [Proof.eq_of_assumeFact hassume]
      exact (c.grows_assertInside _).trans (grows_updateCurrent _ _)
  | commit hcommit =>
      obtain ⟨-, -, -, rfl⟩ := Proof.inv_of_commit hcommit
      exact ⟨List.prefix_append _ _, c.session.base_prefix_add _⟩
  | check name rule claim =>
      obtain ⟨session, ledger, log, hsame, hbase, -⟩ := c.checkRefuted_eq name rule claim
      rw [hsame]
      exact .of_eq rfl hbase
  | setOutcome layer v => exact .of_eq rfl rfl
  | log level source message => exact .of_eq rfl rfl

/-- **Any number of operations** lets what is persistent grow at most. -/
theorem Leads.grows {c c' : Context} (h : c.Leads c') : c.Grows c' := by
  induction h with
  | refl => exact .refl c
  | tail _ hmove ih => exact ih.trans hmove.grows

end Context

namespace Operation

section Growth

variable {c c' : Context}

theorem reachable_run (options : Settings.Options) (replies : List Prepared)
    (ops : List Operation) : (run (.start options replies) ops).Reachable :=
  reachable_iff.2 ⟨options, replies, ops, rfl⟩

/-! ### What is committed -/

/-- No two facts are committed under one name. -/
theorem nodup_committedAmong {rs : List Registration} (h : Untaken rs) :
    ((committedAmong rs).map Fact.name).Nodup := by
  have hcommitted : (rs.filter Registration.committed).Pairwise fun r q =>
      r.fact.name ≠ q.fact.name :=
    (h.filter _).imp_of_mem fun _ hq hrq => hrq (List.mem_filter.1 hq).2
  rw [committedAmong, List.map_map]
  exact List.pairwise_map.2 hcommitted

/-- **An operation commits one fact or none**, as it registers at the base. -/
theorem after_cases (c : Context) (op : Operation) :
    (∃ f, c.commit f = .ok (op.after c) ∧ committedAmong (op.registers c) = [f]) ∨
      committedAmong (op.registers c) = [] ∧ c.Grows (op.after c) ∧
        (op.after c).committed = c.committed := by
  cases hop : op.attempt c with
  | error e =>
      have hafter : op.after c = c := by rw [after, hop]
      rw [hafter]
      exact .inr ⟨by simp [registers, hop, committedAmong], .refl c, rfl⟩
  | ok c' =>
      have hafter : op.after c = c' := by rw [after, hop]
      have hregisters : op.registers c = op.intended c := by rw [registers, hop]
      have hgrows := (moves_attempt hop).grows
      rw [hafter, hregisters]
      cases op with
      | commit f => exact .inl ⟨f, hop, rfl⟩
      | conclude f =>
          have hop : c.conclude f = .ok c' := hop
          unfold Context.conclude at hop
          split at hop
          · rename_i hdepth
            exact .inl ⟨f, hop, by rw [intended, if_pos hdepth]; rfl⟩
          · rename_i hdepth
            refine .inr ⟨by rw [intended, if_neg hdepth]; rfl, hgrows, ?_⟩
            exact committed_of_assumeFact hop
      | assumeFact f =>
          refine .inr ⟨?_, hgrows, committed_of_assumeFact hop⟩
          rw [intended]
          split <;> rfl
      | pop expected =>
          rw [eq_of_attempt_pop hop] at hgrows ⊢
          exact .inr ⟨rfl, hgrows, (Proof.sameBase_closeInnermost c).committed⟩
      | unwind layer =>
          cases hop
          exact .inr ⟨rfl, hgrows, (Proof.heard_unwind c layer).2.committed⟩
      | declare stem kind =>
          cases hop
          exact .inr ⟨rfl, hgrows, Context.committed_updateCurrent _ _⟩
      | assume a =>
          rw [Proof.eq_of_assume hop] at hgrows ⊢
          exact .inr ⟨rfl, hgrows, Context.committed_updateCurrent _ _⟩
      | check name rule claim =>
          cases hop
          obtain ⟨session, ledger, log, hsame, -⟩ := c.checkRefuted_eq name rule claim
          exact .inr ⟨rfl, hgrows, by rw [hsame]⟩
      | push | setOutcome | log =>
          cases hop
          exact .inr ⟨rfl, hgrows, rfl⟩

/-- **What is committed by operations** comes after what was committed before them. -/
theorem committed_run (ops : List Operation) : ∀ c : Context,
    (run c ops).committed = c.committed ++ (commits c ops).map Fact.name := by
  induction ops with
  | nil => exact fun c => (List.append_nil _).symm
  | cons op rest ih =>
      intro c
      have hrun : run c (op :: rest) = run (op.after c) rest := rfl
      have hcommits : commits c (op :: rest) =
          committedAmong (op.registers c) ++ commits (op.after c) rest :=
        committedAmong_append _ _
      rw [hrun, hcommits, ih, List.map_append, ← List.append_assoc]
      refine congrArg (· ++ _) ?_
      rcases after_cases c op with ⟨f, hcommit, hone⟩ | ⟨hnone, -, hsame⟩
      · obtain ⟨-, -, -, hafter⟩ := Proof.inv_of_commit hcommit
        rw [hafter, hone]
        rfl
      · rw [hsame, hnone]
        exact (List.append_nil _).symm

/-- A fact that an operation commits is asserted at the base, and it comes last there. -/
theorem sublist_after {as : List Assertion} (hc : c.Orderly) (has : as.Sublist c.session.base)
    (op : Operation) :
    (as ++ (committedAmong (op.registers c)).map Fact.assertion).Sublist
      (op.after c).session.base := by
  rcases after_cases c op with ⟨f, hcommit, hone⟩ | ⟨hnone, hgrows, -⟩
  · obtain ⟨hopened, -, -, hafter⟩ := Proof.inv_of_commit hcommit
    have hframes : c.session.frames = [] :=
      List.length_eq_zero_iff.1 (by rw [← hc.depth, hopened]; rfl)
    have hbase : (op.after c).session.base = c.session.base ++ [f.assertion] := by
      simp [hafter, Context.logged, Session.add, hframes]
    rw [hone, hbase]
    exact has.append_right _
  · rw [hnone, List.map_nil, List.append_nil]
    exact has.trans hgrows.asserted.sublist

/-- **The base asserts the committed facts**, in the order in which they were committed. -/
theorem sublist_asserted (options : Settings.Options) (replies : List Prepared)
    (ops : List Operation) :
    ((commits (.start options replies) ops).map Fact.assertion).Sublist
      (run (.start options replies) ops).session.base := by
  induction ops using List.reverseRecOn with
  | nil => exact List.nil_sublist _
  | append_singleton ops op ih =>
      rw [commits, registered_concat, committedAmong_append, List.map_append, run_concat]
      exact sublist_after (reachable_run options replies ops).orderly ih op

/-- **The base only grows.**  In whatever state a run is, and whatever is done then, what was
committed and what was asserted at the base stays there in its order; what is committed bears
different names and is asserted at the base; and nothing is committed while a layer is open.  A
proof is no exception, however it goes on and wherever it fails, since it goes by operations. -/
theorem base_only_grows (options : Settings.Options) (replies : List Prepared)
    (earlier later : List Operation) :
    let start := Context.start options replies
    let c := run start earlier
    let c' := run c later
    c.Grows c' ∧
      c'.committed = (commits start (earlier ++ later)).map Fact.name ∧
      c'.committed.Nodup ∧
      ((commits start (earlier ++ later)).map Fact.assertion).Sublist c'.session.base ∧
      (c'.depth ≠ 0 → ∀ f, c'.commit f =
        .error (.scope (.commitInside f.name c'.depth c'.current.name))) ∧
      ∀ (α : Type) (p : ProofM α), Proof.Operates p → c'.Grows (Proof.outcome p c').2 := by
  intro start c c'
  have hrun : run start (earlier ++ later) = c' := List.foldl_append
  have hfiled := filed_of_start options replies (earlier ++ later)
  rw [hrun] at hfiled
  refine ⟨(leads_iff.2 ⟨later, rfl⟩).grows, hfiled.committed, ?_, ?_, ?_, ?_⟩
  · rw [hfiled.committed]
    exact nodup_committedAmong hfiled.untaken
  · rw [← hrun]
    exact sublist_asserted options replies (earlier ++ later)
  · intro hdepth f
    rw [Context.commit, if_pos hdepth]
    rfl
  · exact fun α p hp => (hp c').grows

end Growth

end Operation

end CandyCircle
