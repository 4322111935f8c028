/-
**Layers are released.**

A part of a proof runs inside a layer of its own.  If it fails, layers are closed one by one until
that layer is closed, so that whatever was left open inside it is closed as well, and the failure
goes on unchanged.  If it returns, only the innermost layer may be closed: a layer that was left
open inside keeps everything open, and asserted, as it was at that moment.

Main definitions:

* `CandyCircle.Context.Unwinds` — **closing layers one by one** while a layer is open;
* `CandyCircle.Context.Released` — nothing is left of a layer but retired constants.

Main results:

* `CandyCircle.Context.unwinds_unwind` — the layers are closed one by one, and that comes to an end;
* `CandyCircle.Proof.scope_fails` — **a layer is released if the part of a proof inside it fails**,
  whatever it left open;
* `CandyCircle.Proof.scope_returns` — if it returns, the layer is released just if it is innermost.
-/
import CandyCircle.Proofs.Refutation.Layering

set_option autoImplicit false

namespace CandyCircle

open Logic

namespace Context

variable {c c' d d' : Context} {layer : Layer}

/-! ### Closing layers one by one -/

/-- **Layers are closed one by one while a layer is open**, in so many rounds. -/
inductive Unwinds (layer : Layer) : Nat → Context → Context → Prop where
  | done {c : Context} (h : ¬ c.IsOpen layer) : Unwinds layer 0 c c
  | round {c c' d : Context} {l : Layer} {n : Nat} (h : c.IsOpen layer)
      (hpop : c.pop none = .ok (l, c')) (hrest : Unwinds layer n c' d) : Unwinds layer (n + 1) c d

/-- The rounds lead to one state only. -/
theorem Unwinds.unique {n m : Nat} (h : Unwinds layer n c d) (h' : Unwinds layer m c d') :
    n = m ∧ d = d' := by
  induction h generalizing m with
  | done hclosed =>
      cases h' with
      | done => exact ⟨rfl, rfl⟩
      | round hopen _ _ => exact absurd hopen hclosed
  | round hopen hpop _ ih =>
      cases h' with
      | done hclosed => exact absurd hopen hclosed
      | round _ hpop' hrest' =>
          obtain ⟨-, rfl⟩ := Prod.mk.inj (Except.ok.inj (hpop.symm.trans hpop'))
          obtain ⟨rfl, rfl⟩ := ih hrest'
          exact ⟨rfl, rfl⟩

/-- As many rounds as there are layers up to an open one. -/
theorem unwinds_closeMany {own : Layer} {outer : List Layer} (hown : own.serial = layer.serial)
    (houter : ∀ l ∈ outer, l.serial ≠ layer.serial) (inner : List Layer) :
    ∀ c : Context, c.opened = inner ++ own :: outer →
      Unwinds layer (inner.length + 1) c (closeMany (inner.length + 1) c) := by
  induction inner with
  | nil =>
      intro c hopened
      have hrest : c.closeInnermost.opened = outer := by rw [opened_closeInnermost, hopened]; rfl
      refine .round (l := own) ⟨own, by simp [hopened], hown⟩ (by rw [pop, hopened]; rfl) (.done ?_)
      rintro ⟨l, hl, hserial⟩
      exact houter l (hrest ▸ hl) hserial
  | cons first inner ih =>
      intro c hopened
      refine .round (l := first) ⟨own, by simp [hopened], hown⟩ (by rw [pop, hopened]; rfl)
        (ih c.closeInnermost ?_)
      rw [opened_closeInnermost, hopened]
      rfl

/-- Layers are closed up to the open one. -/
theorem unwind_eq {inner outer : List Layer} {own : Layer}
    (hopened : c.opened = inner ++ own :: outer) (hown : own.serial = layer.serial)
    (hinner : ∀ l ∈ inner, l.serial ≠ layer.serial) :
    c.unwind layer = closeMany (inner.length + 1) c := by
  have hfound : c.opened.findIdx? (fun l => l.serial == layer.serial) = some inner.length := by
    rw [hopened, List.findIdx?_append, List.findIdx?_eq_none_iff.2 fun l hl => by
      simpa using hinner l hl]
    simp [List.findIdx?_cons, hown]
  rw [unwind, hfound]

/-- **The layers are closed one by one, and that comes to an end.** -/
theorem unwinds_unwind (hc : c.Counted) (layer : Layer) :
    ∃ n, Unwinds layer n c (c.unwind layer) := by
  by_cases hopen : c.IsOpen layer
  · obtain ⟨own, hmem, hown⟩ := hopen
    obtain ⟨inner, outer, hopened⟩ := List.append_of_mem hmem
    obtain ⟨hinner, houter⟩ := hc.apart hopened
    rw [hown] at hinner houter
    rw [unwind_eq hopened hown hinner]
    exact ⟨_, unwinds_closeMany hown houter inner c hopened⟩
  · have hnone : c.opened.findIdx? (fun l => l.serial == layer.serial) = none :=
      List.findIdx?_eq_none_iff.2 fun l hl => by
        simpa using fun hserial => hopen ⟨l, hl, hserial⟩
    rw [unwind, hnone]
    exact ⟨0, .done hopen⟩

/-! ### What is left of a layer -/

/-- Between two states nothing is left of the layers that were opened: nothing changed, and what was
declared meanwhile is retired. -/
structure Released (c c' : Context) : Prop extends c.Unchanged c' where
  retired : ∃ names, c'.given = c.given ++ names ∧ c'.retired.Perm (c.retired ++ names)

/-- **Nothing is left of a layer** once it and the layers inside it were closed. -/
theorem Nested.released {inner : List Layer} {own : Layer} (h : c.Nested c' inner own)
    (hc : c.Orderly) (hc' : c'.Orderly) : c.Released (Context.closeMany (inner.length + 1) c') := by
  obtain ⟨frames, hframes, hlength⟩ := h.exists_frames hc hc'
  have hopened : c'.opened = (inner ++ [own]) ++ c.opened := by
    rw [h.opened, List.append_assoc]
    rfl
  have hinner : (inner ++ [own]).length = inner.length + 1 := List.length_append
  have hheard := Proof.heard_closeMany (inner.length + 1) c'
  obtain ⟨names, gone, hgiven, hretired, hnames⟩ := h.declared
  refine ⟨⟨?_, (base_closeMany _ c').1.trans h.base, hheard.2.asserted.trans h.asserted, ?_,
    hheard.2.committed.trans h.committed⟩, names, ?_, ?_⟩
  · rw [opened_closeMany, hopened, ← hinner, List.drop_left]
  · rw [frames_closeMany _ hc', hframes, ← hlength, List.drop_left]
  · rw [given_closeMany, hgiven]
  · rw [retired_closeMany, hopened, ← hinner, List.take_left, hretired, List.append_assoc]
    exact hnames.symm.append_left _

end Context

namespace Proof

variable {α : Type} {c c₁ : Context} {name : String} {body : Layer → ProofM α}

/-! ### Parts of proofs inside a layer -/

/-- If the part of a proof inside a layer fails, the layer is unwound and the failure goes on; if it
returns, the layer has to be the innermost one. -/
theorem outcome_scope_eq (name : String) (body : Layer → ProofM α) (c : Context) :
    outcome (scope name body) c =
      match outcome (body (c.push name).1) (c.push name).2 with
      | (.error e, c₁) => (.error e, c₁.unwind (c.push name).1)
      | (.ok a, c₁) =>
          match c₁.pop (some (c.push name).1) with
          | .ok (_, c') => (.ok a, c')
          | .error e => (.error e, c₁) := by
  have hpush : outcome (push name : ProofM Layer) c = (.ok (c.push name).1, (c.push name).2) := by
    rw [push, outcome_change]
  rw [scope, outcome_bind, hpush]
  simp only [outcome_bind, outcome_tryCatch]
  rcases outcome (body (c.push name).1) (c.push name).2 with ⟨r, c₁⟩
  cases r with
  | error e => rfl
  | ok a =>
      simp only [pop, outcome_change]
      cases c₁.pop (some (c.push name).1) <;> rfl

/-- If a part of a proof returns while a layer inside its own one is open, nothing is closed. -/
theorem outcome_scope_of_stray {a : α} {stray : Layer} {rest : List Layer}
    (hbody : outcome (body (c.push name).1) (c.push name).2 = (.ok a, c₁))
    (hopened : c₁.opened = stray :: rest) (hstray : (c.push name).1.serial ≠ stray.serial) :
    outcome (scope name body) c = (.error (.scope (.notInnermost name stray.name)), c₁) := by
  have hpop : c₁.pop (some (c.push name).1) =
      .error (.scope (.notInnermost name stray.name)) := by
    rw [Context.pop, hopened]
    exact if_neg hstray
  rw [outcome_scope_eq, hbody]
  simp only [hpop]

/-- **A layer is released if the part of a proof inside it fails.**  Whatever it opened, declared,
assumed and asked, if it did not close the layer itself: the failure goes on unchanged, layers are
closed one by one, exactly those that were opened since, and what they declared is retired. -/
theorem scope_fails {e : Failure} (hc : c.Reachable) (body : Layer → ProofM α)
    (hbody : outcome (body (c.push name).1) (c.push name).2 = (.error e, c₁))
    (hinside : Context.LeadsInside (c.push name).1 (c.push name).2 c₁) :
    ∃ c' discarded, outcome (scope name body) c = (.error e, c') ∧
      c₁.opened = discarded ++ c.opened ∧
      (∀ n d, Context.Unwinds (c.push name).1 n c₁ d ↔ n = discarded.length ∧ d = c') ∧
      c.Released c' ∧ ∀ l ∈ discarded, ∀ s ∈ l.symbols, s ∈ c'.retired := by
  have hc₁ := (hc.move (.push c name)).leads hinside.leads
  obtain ⟨inner, own, hnested, hown, -⟩ := hinside.nested hc
  have hserial : own.serial = (c.push name).1.serial := hown
  obtain ⟨hinner, houter⟩ := hc₁.counted.apart hnested.opened
  rw [hserial] at hinner houter
  have hopened : c₁.opened = (inner ++ [own]) ++ c.opened := by
    rw [hnested.opened, List.append_assoc]
    rfl
  have hrounds := Context.unwinds_closeMany hserial houter inner c₁ hnested.opened
  refine ⟨Context.closeMany (inner.length + 1) c₁, inner ++ [own], ?_, hopened, fun n d => ?_,
    hnested.released hc.orderly hc₁.orderly, fun l hl s hs => ?_⟩
  · rw [outcome_scope_eq, hbody, ← Context.unwind_eq hnested.opened hserial hinner]
  · rw [List.length_append]
    constructor
    · exact fun h => h.unique hrounds
    · rintro ⟨rfl, rfl⟩
      exact hrounds
  · -- what was closed are exactly these layers
    rw [Context.retired_closeMany, hopened, ← List.length_singleton (a := own),
      ← List.length_append, List.take_left]
    exact List.mem_append_right _ (List.mem_flatMap.2 ⟨l, hl, hs⟩)

/-- A part of a proof that leaves a layer open inside its own one, declares constants in both, and
gives up. -/
def givingUp : ProofM Unit := do
  let _ ← declare "w" .int
  let _ ← push "stray"
  let _ ← declare "v" .int
  fail (.aborted "boom")

/-- It goes by operations that leave its own layer open. -/
theorem leadsInside_givingUp (c : Context) (name : String) :
    Context.LeadsInside (c.push name).1 (c.push name).2 (outcome givingUp (c.push name).2).2 := by
  refine .tail (.tail (.tail .refl ⟨.declare _ "w" .int, ?_⟩) ⟨.push _ "stray", ?_⟩)
    ⟨.declare _ "v" .int, ?_⟩
  · exact ⟨_, List.mem_cons_self, rfl⟩
  · exact ⟨_, List.mem_cons_of_mem _ List.mem_cons_self, rfl⟩
  · exact ⟨_, List.mem_cons_of_mem _ List.mem_cons_self, rfl⟩

/-- When it gives up, both layers are closed, the inner one first. -/
theorem released_givingUp :
    let c := Context.start (Settings.options {}) []
    c.Reachable ∧ ∃ c',
      outcome (scope "outer" fun _ => givingUp) c = (.error (.aborted "boom"), c') ∧
        c.Released c' ∧ c'.retired = ["v!1", "w!0"] := by
  intro c
  have hc : c.Reachable := .start _ _
  obtain ⟨c', discarded, hout, -, -, hreleased, -⟩ :=
    scope_fails hc (fun _ => givingUp) rfl (leadsInside_givingUp c "outer")
  have hretired : (outcome (scope "outer" fun _ => givingUp) c).2.retired = ["v!1", "w!0"] := by
    decide +kernel
  rw [hout] at hretired
  exact ⟨hc, c', hout, hreleased, hretired⟩

/-- **If the part of a proof inside a layer returns**, the layer is released just if it is the
innermost one then.  If a layer inside it was left open, the scope fails, nothing is closed, and
what was assumed since stays asserted. -/
theorem scope_returns {a : α} (hc : c.Reachable) (body : Layer → ProofM α)
    (hbody : outcome (body (c.push name).1) (c.push name).2 = (.ok a, c₁))
    (hinside : Context.LeadsInside (c.push name).1 (c.push name).2 c₁) :
    ∃ inner own, c₁.opened = inner ++ own :: c.opened ∧ own.serial = (c.push name).1.serial ∧
      match inner with
      | [] => ∃ c', outcome (scope name body) c = (.ok a, c') ∧ c.Released c'
      | stray :: _ =>
          outcome (scope name body) c = (.error (.scope (.notInnermost name stray.name)), c₁) ∧
            ¬ c.Released c₁ := by
  have hc₁ := (hc.move (.push c name)).leads hinside.leads
  obtain ⟨inner, own, hnested, hserial, -⟩ := hinside.nested hc
  refine ⟨inner, own, hnested.opened, hserial, ?_⟩
  cases inner with
  | nil =>
      refine ⟨c₁.closeInnermost, outcome_scope hbody ?_,
        hnested.released hc.orderly hc₁.orderly⟩
      simp [Context.stance, hnested.opened, hserial]
  | cons stray rest =>
      have hstray := (hc₁.counted.apart hnested.opened).1 stray List.mem_cons_self
      refine ⟨outcome_scope_of_stray hbody hnested.opened fun h => hstray ?_, fun h => ?_⟩
      · exact h.symm.trans hserial.symm
      · have hlength := congrArg List.length (hnested.opened.symm.trans h.opened)
        simp at hlength
        omega

/-- A part of a proof that assumes that a constant is positive, and may leave a layer open. -/
def straying (stray : Bool) : ProofM Unit := do
  let w ← declare "w" .int
  assume (.atLeast (.int w.name) 1) "w >= 1"
  if stray then
    let _ ← push "stray"

theorem outcome_declare (stem : String) (kind : Kind) (d : Context) :
    outcome (declare stem kind) d = (.ok (d.declare stem kind).1, (d.declare stem kind).2) := by
  rw [declare, outcome_change]

theorem outcome_assume_of_ok {f : Formula} {label : String} {d d' : Context}
    (h : d.assume { formula := f, label } = .ok d') :
    outcome (assume f label) d = (.ok (), d') := by
  rw [assume, outcome_change, h]
  rfl

/-- It returns if no constants are retired, and leaves its own layer open. -/
theorem leadsInside_straying (stray : Bool) (hc : c.retired = []) (name : String) :
    ∃ c₁, outcome (straying stray) (c.push name).2 = (.ok (), c₁) ∧
      Context.LeadsInside (c.push name).1 (c.push name).2 c₁ := by
  let d := ((c.push name).2.declare "w" .int).2
  let a : Assertion :=
    { formula := .atLeast (.int ((c.push name).2.declare "w" .int).1.name) 1, label := "w >= 1" }
  have hassume : d.assume a = .ok (d.assertInside a) :=
    Context.assume_of_admits fun s _ => show s.name ∉ c.retired by simp [hc]
  have hinside : Context.LeadsInside (c.push name).1 (c.push name).2 (d.assertInside a) :=
    .tail (.tail .refl ⟨.declare _ "w" .int, _, List.mem_cons_self, rfl⟩)
      ⟨.assume hassume, _, List.mem_cons_self, rfl⟩
  have hout : outcome (straying stray) (c.push name).2 =
      outcome (if stray then (do let _ ← push "stray") else pure ()) (d.assertInside a) := by
    rw [straying, outcome_bind, outcome_declare]
    dsimp only
    rw [outcome_bind, outcome_assume_of_ok hassume]
  rw [hout]
  cases stray with
  | false => exact ⟨_, rfl, hinside⟩
  | true =>
      refine ⟨_, rfl, hinside.tail ⟨.push _ "stray", ?_⟩⟩
      exact ⟨_, List.mem_cons_of_mem _ List.mem_cons_self, rfl⟩

/-- If it leaves no layer open, its own layer is released. -/
theorem released_straying :
    let c := Context.start (Settings.options {}) []
    c.Reachable ∧ ∃ c', outcome (scope "outer" fun _ => straying false) c = (.ok (), c') ∧
      c.Released c' := by
  intro c
  have hc : c.Reachable := .start _ _
  obtain ⟨c₁, hbody, hinside⟩ := leadsInside_straying false (c := c) rfl "outer"
  obtain ⟨inner, own, hopened, -, h⟩ :=
    scope_returns hc (fun _ => straying false) hbody hinside
  cases inner with
  | nil => exact ⟨hc, h⟩
  | cons stray rest =>
      have hdepth : (outcome (scope "outer" fun _ => straying false) c).2.depth = 0 := by
        decide +kernel
      rw [h.1] at hdepth
      exact absurd hdepth (by simp [Context.depth, hopened])

/-- If it leaves a layer open, both layers stay open, its assumption stays asserted, and its
constant is not retired. -/
theorem not_released_straying :
    let c := Context.start (Settings.options {}) []
    let r := outcome (scope "outer" fun _ => straying true) c
    c.Reachable ∧
      (∃ c₁, outcome (straying true) (c.push "outer").2 = (.ok (), c₁) ∧
        Context.LeadsInside (c.push "outer").1 (c.push "outer").2 c₁) ∧
      r.2.depth = 2 ∧ r.2.session.active.length = 1 ∧ r.2.retired = [] ∧ ¬ c.Released r.2 := by
  intro c r
  have hdepth : r.2.depth = 2 := by decide +kernel
  refine ⟨.start _ _, leadsInside_straying true rfl "outer", hdepth, by decide +kernel,
    by decide +kernel, fun h => ?_⟩
  rw [Context.depth, h.opened] at hdepth
  cases hdepth

end Proof

end CandyCircle
