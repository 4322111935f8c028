/-
**What is done inside a layer.**

Layers carry numbers, further inside the greater ones, so that a layer that is open is found among
the open layers just once.  Whatever is done while a layer is open is done on top of it: layers are
opened and closed further inside, the innermost one is altered, and everything outside stays as it
was.  What is declared meanwhile belongs to one of the layers that are still open, or is retired.

Main definitions:

* `CandyCircle.Context.Counted` — the numbers of layers;
* `CandyCircle.Context.Alters` — nothing changed but the innermost layer;
* `CandyCircle.Context.LeadsInside` — **operations that do not close a layer**;
* `CandyCircle.Context.Nested` — what a state inside a layer has in common with the one from before.

Main results:

* `CandyCircle.Context.Moves.cases` — **what an operation can do** to layers: open one, close some,
  or alter the innermost one;
* `CandyCircle.Context.Reachable.counted` — the numbers of layers in reachable states;
* `CandyCircle.Context.LeadsInside.nested` — **nothing outside of a layer changes** while it is
  open.
-/
import CandyCircle.Proofs.Refutation.AllOrNothing
import CandyCircle.Proofs.Refutation.Careful

set_option autoImplicit false

namespace CandyCircle

open Logic

namespace Context

variable {c c' c'' : Context}

/-! ### What an operation can do to layers -/

/-- Between two states nothing changed but the innermost layer. -/
structure Alters (c c' : Context) : Prop where
  openings : c'.openings = c.openings
  retired : c'.retired = c.retired
  ground : c'.base.serial = c.base.serial
  serials : c'.opened.map Layer.serial = c.opened.map Layer.serial
  /-- If a layer is open, then nothing changed outside of the innermost one. -/
  inside : c.opened ≠ [] → c.Inside c'
  /-- What was declared belongs to the innermost layer. -/
  declared : ∀ l outer, c.opened = l :: outer → ∃ l' names, c'.opened = l' :: outer ∧
    l'.name = l.name ∧ l'.symbols = l.symbols ++ names ∧ c'.given = c.given ++ names

/-- The layers are the same. -/
theorem Alters.of_eq (hopenings : c'.openings = c.openings) (hretired : c'.retired = c.retired)
    (hissued : c'.issued = c.issued) (hunchanged : c.Unchanged c') : c.Alters c' where
  openings := hopenings
  retired := hretired
  ground := by rw [hunchanged.base]
  serials := by rw [hunchanged.opened]
  inside _ := hunchanged.inside
  declared l outer hl := ⟨l, [], hunchanged.opened.trans hl, rfl, (List.append_nil _).symm, by
    rw [given, given, hissued, List.append_nil]⟩

theorem Alters.trans (h : c.Alters c') (h' : c'.Alters c'') : c.Alters c'' where
  openings := h'.openings.trans h.openings
  retired := h'.retired.trans h.retired
  ground := h'.ground.trans h.ground
  serials := h'.serials.trans h.serials
  inside hne := by
    have hne' : c'.opened ≠ [] := fun hnil => hne (by simpa [hnil] using h.serials.symm)
    exact IsTrans.trans _ _ _ (h.inside hne) (h'.inside hne')
  declared l outer hl := by
    obtain ⟨l', names, hl', hname, hsymbols, hgiven⟩ := h.declared l outer hl
    obtain ⟨l'', names', hl'', hname', hsymbols', hgiven'⟩ := h'.declared l' outer hl'
    refine ⟨l'', names ++ names', hl'', hname'.trans hname, ?_, ?_⟩
    · rw [hsymbols', hsymbols, List.append_assoc]
    · rw [hgiven', hgiven, List.append_assoc]

/-- A change of the innermost layer that declares nothing. -/
theorem alters_updateCurrent (c : Context) {f : Layer → Layer}
    (hserial : ∀ l, (f l).serial = l.serial) (hname : ∀ l, (f l).name = l.name)
    (hsymbols : ∀ l, (f l).symbols = l.symbols) : c.Alters (c.updateCurrent f) where
  openings := by unfold updateCurrent; split <;> rfl
  retired := by unfold updateCurrent; split <;> rfl
  ground := by unfold updateCurrent; split <;> simp [hserial]
  serials := by unfold updateCurrent; split <;> simp_all
  inside _ := inside_updateCurrent c hserial
  declared l outer hl := by
    refine ⟨f l, [], by simp [updateCurrent, hl], hname l, by simp [hsymbols], ?_⟩
    rw [given, issued_updateCurrent, List.append_nil]
    rfl

theorem alters_assertInside (c : Context) (a : Assertion) : c.Alters (c.assertInside a) := by
  have hupdated := (show Context from { c with session := c.session.add a }).alters_updateCurrent
    (f := fun l => { l with assumptions := l.assumptions + 1 }) (fun _ => rfl) (fun _ => rfl)
    fun _ => rfl
  exact ⟨hupdated.openings, hupdated.retired, hupdated.ground, hupdated.serials,
    fun _ => c.inside_assertInside a, hupdated.declared⟩

theorem alters_declare (c : Context) (stem : String) (kind : Kind) :
    c.Alters (c.declare stem kind).2 where
  openings := by unfold declare updateCurrent; split <;> rfl
  retired := by unfold declare updateCurrent; split <;> rfl
  ground := by unfold declare updateCurrent; split <;> rfl
  serials := by unfold declare updateCurrent; split <;> simp_all
  inside _ := (Adds.declare c stem kind).quiet.2
  declared l outer hl := by
    refine ⟨{ l with symbols := l.symbols ++ [freshName stem c.issued.length] },
      [freshName stem c.issued.length], ?_, rfl, rfl, ?_⟩
    · simp [declare, updateCurrent, hl]
    · simp [declare, given]

theorem exists_unwind_eq (c : Context) (layer : Layer) : ∃ n, c.unwind layer = closeMany n c := by
  unfold Context.unwind
  split
  · exact ⟨0, rfl⟩
  · exact ⟨_, rfl⟩

/-- **What an operation can do** to layers: it opens one, it closes some, or it alters the innermost
one. -/
theorem Moves.cases (h : Moves c c') :
    (∃ name, c' = (c.push name).2) ∨ (∃ n, c' = closeMany n c) ∨ c.Alters c' := by
  cases h with
  | push name => exact .inl ⟨name, rfl⟩
  | pop hpop => exact .inr (.inl ⟨1, (Proof.eq_of_pop hpop).2⟩)
  | unwind layer => exact .inr (.inl (c.exists_unwind_eq layer))
  | declare stem kind => exact .inr (.inr (c.alters_declare stem kind))
  | assume hassume =>
      rw [Proof.eq_of_assume hassume]
      exact .inr (.inr (c.alters_assertInside _))
  | assumeFact hassume =>
      rw [Proof.eq_of_assumeFact hassume]
      exact .inr (.inr ((c.alters_assertInside _).trans
        (alters_updateCurrent _ (fun _ => rfl) (fun _ => rfl) fun _ => rfl)))
  | commit hcommit =>
      obtain ⟨hopened, -, -, rfl⟩ := Proof.inv_of_commit hcommit
      refine .inr (.inr ⟨rfl, rfl, rfl, rfl, fun hne => absurd hopened hne, fun l outer hl => ?_⟩)
      rw [hopened] at hl
      cases hl
  | check name rule claim =>
      obtain ⟨session, ledger, log, hsame, hbase, hframes⟩ := c.checkRefuted_eq name rule claim
      rw [hsame]
      exact .inr (.inr (.of_eq rfl rfl rfl ⟨rfl, rfl, hbase, hframes, rfl⟩))
  | setOutcome layer v => exact .inr (.inr (.of_eq rfl rfl rfl ⟨rfl, rfl, rfl, rfl, rfl⟩))
  | log level source message => exact .inr (.inr (.of_eq rfl rfl rfl ⟨rfl, rfl, rfl, rfl, rfl⟩))

/-! ### Closing layers -/

theorem opened_closeInnermost (c : Context) : c.closeInnermost.opened = c.opened.tail := by
  unfold closeInnermost
  split <;> simp_all [logged]

theorem retired_closeInnermost (c : Context) :
    c.closeInnermost.retired = c.retired ++ (c.opened.take 1).flatMap Layer.symbols := by
  unfold closeInnermost
  split <;> simp_all [logged]

theorem base_closeInnermost (c : Context) :
    c.closeInnermost.base = c.base ∧ c.closeInnermost.openings = c.openings := by
  unfold closeInnermost
  split <;> exact ⟨rfl, rfl⟩

/-- Closing layers takes them off the open ones, from the innermost one on. -/
theorem opened_closeMany (n : Nat) : ∀ c : Context, (closeMany n c).opened = c.opened.drop n := by
  induction n with
  | zero => exact fun _ => rfl
  | succ n ih =>
      intro c
      rw [closeMany, ih, opened_closeInnermost, List.drop_tail]

/-- What the closed layers declared is retired. -/
theorem retired_closeMany (n : Nat) : ∀ c : Context,
    (closeMany n c).retired = c.retired ++ (c.opened.take n).flatMap Layer.symbols := by
  induction n with
  | zero => simp [closeMany]
  | succ n ih =>
      intro c
      rw [closeMany, ih, retired_closeInnermost, opened_closeInnermost, List.append_assoc,
        ← List.flatMap_append]
      cases c.opened with
      | nil => simp
      | cons l outer => simp

theorem base_closeMany (n : Nat) : ∀ c : Context,
    (closeMany n c).base = c.base ∧ (closeMany n c).openings = c.openings := by
  induction n with
  | zero => exact fun _ => ⟨rfl, rfl⟩
  | succ n ih =>
      intro c
      obtain ⟨hbase, hopenings⟩ := ih c.closeInnermost
      exact ⟨hbase.trans c.base_closeInnermost.1, hopenings.trans c.base_closeInnermost.2⟩

/-- The frames of the closed layers are gone. -/
theorem frames_closeMany (n : Nat) : ∀ {c : Context}, c.Orderly →
    (closeMany n c).session.frames = c.session.frames.drop n := by
  induction n with
  | zero => exact fun _ => rfl
  | succ n ih =>
      intro c hc
      have hframes : c.closeInnermost.session.frames = c.session.frames.tail := by
        have hdepth := hc.depth
        unfold closeInnermost
        split
        · rename_i hopened
          rw [hopened] at hdepth
          rw [List.length_eq_zero_iff.1 hdepth.symm]
          rfl
        · rfl
      rw [closeMany, ih hc.closeInnermost, hframes, List.drop_tail]

theorem given_closeMany (n : Nat) (c : Context) : (closeMany n c).given = c.given :=
  congrArg (List.map Prod.snd) (issued_closeMany n c)

/-! ### The numbers of layers -/

/-- Layers carry different numbers, further inside the greater ones, all of which were given out. -/
structure Counted (c : Context) : Prop where
  ground : c.base.serial = 0
  sorted : (c.opened.map Layer.serial).Pairwise (· > ·)
  positive : ∀ l ∈ c.opened, 0 < l.serial
  bounded : ∀ l ∈ c.opened, l.serial ≤ c.openings

/-- No other open layer has the number of an open layer. -/
theorem Counted.apart (hc : c.Counted) {inner outer : List Layer} {own : Layer}
    (hopened : c.opened = inner ++ own :: outer) :
    (∀ l ∈ inner, l.serial ≠ own.serial) ∧ ∀ l ∈ outer, l.serial ≠ own.serial := by
  have hsorted := hc.sorted
  rw [hopened, List.map_append, List.map_cons, List.pairwise_append] at hsorted
  obtain ⟨-, hrest, hinner⟩ := hsorted
  refine ⟨fun l hl => ?_, fun l hl => ?_⟩
  · have hgreater : l.serial > own.serial :=
      hinner _ (List.mem_map_of_mem hl) _ List.mem_cons_self
    exact Nat.ne_of_gt hgreater
  · have hless : own.serial > l.serial :=
      (List.pairwise_cons.1 hrest).1 _ (List.mem_map_of_mem hl)
    exact Nat.ne_of_lt hless

theorem forall_serial_iff {p : Nat → Prop} {ls : List Layer} :
    (∀ l ∈ ls, p l.serial) ↔ ∀ n ∈ ls.map Layer.serial, p n :=
  List.forall_mem_map.symm

/-- **One operation** keeps the numbers of layers in order. -/
theorem Moves.counted (h : Moves c c') (hc : c.Counted) : c'.Counted := by
  rcases h.cases with ⟨name, rfl⟩ | ⟨n, rfl⟩ | h
  · refine ⟨hc.ground, ?_, ?_, ?_⟩
    · refine List.pairwise_cons.2 ⟨List.forall_mem_map.2 fun l hl => ?_, hc.sorted⟩
      exact Nat.lt_succ_of_le (hc.bounded l hl)
    · exact List.forall_mem_cons.2 ⟨Nat.succ_pos _, hc.positive⟩
    · refine List.forall_mem_cons.2 ⟨Nat.le_refl _, fun l hl => ?_⟩
      exact Nat.le_succ_of_le (hc.bounded l hl)
  · have hdrop : ∀ l ∈ (closeMany n c).opened, l ∈ c.opened := by
      rw [opened_closeMany]
      exact fun l hl => List.mem_of_mem_drop hl
    obtain ⟨hbase, hopenings⟩ := base_closeMany n c
    refine ⟨by rw [hbase, hc.ground], ?_, fun l hl => hc.positive l (hdrop l hl), fun l hl => ?_⟩
    · rw [opened_closeMany, List.map_drop]
      exact hc.sorted.drop
    · rw [hopenings]
      exact hc.bounded l (hdrop l hl)
  · refine ⟨h.ground.trans hc.ground, h.serials ▸ hc.sorted, ?_, ?_⟩
    · rw [forall_serial_iff, h.serials, ← forall_serial_iff]
      exact hc.positive
    · rw [h.openings, forall_serial_iff (p := (· ≤ c.openings)), h.serials, ← forall_serial_iff]
      exact hc.bounded

theorem Reachable.counted (h : c.Reachable) : c.Counted := by
  induction h with
  | start options replies =>
      exact ⟨rfl, .nil, fun l hl => absurd hl List.not_mem_nil,
        fun l hl => absurd hl List.not_mem_nil⟩
  | move _ hmove ih => exact hmove.counted ih

/-! ### Inside a layer -/

/-- A layer is open. -/
def IsOpen (c : Context) (layer : Layer) : Prop :=
  ∃ l ∈ c.opened, l.serial = layer.serial

/-- **Operations lead from one state to another without closing a layer**: it is open after each of
them. -/
def LeadsInside (layer : Layer) : Context → Context → Prop :=
  Relation.ReflTransGen fun c c' => Moves c c' ∧ c'.IsOpen layer

theorem LeadsInside.leads {layer : Layer} (h : LeadsInside layer c c') : c.Leads c' :=
  Relation.ReflTransGen.mono (fun _ _ hmove => hmove.1) _ _ h

/-- A state inside a layer `own`, which was opened in a state `c`, and inside further layers.  All
else is as it was in `c`, and what was declared since belongs to these layers or is retired. -/
structure Nested (c c' : Context) (inner : List Layer) (own : Layer) : Prop where
  opened : c'.opened = inner ++ own :: c.opened
  /-- The frames from before are there as they were. -/
  frames : c.session.frames <:+ c'.session.frames
  base : c'.base = c.base
  /-- The same is asserted at the base. -/
  asserted : c'.session.base = c.session.base
  committed : c'.committed = c.committed
  declared : ∃ names gone, c'.given = c.given ++ names ∧ c'.retired = c.retired ++ gone ∧
    names.Perm (gone ++ (inner ++ [own]).flatMap Layer.symbols)

section Nested

variable {inner : List Layer} {own : Layer} {name : String}

theorem nested_push (c : Context) (name : String) :
    c.Nested (c.push name).2 [] (c.push name).1 where
  opened := rfl
  frames := List.suffix_cons _ _
  base := rfl
  asserted := rfl
  committed := rfl
  declared := ⟨[], [], (List.append_nil _).symm, (List.append_nil _).symm, .nil⟩

/-- One layer more. -/
theorem Nested.push (h : c.Nested c' inner own) (name : String) :
    c.Nested (c'.push name).2 ((c'.push name).1 :: inner) own where
  opened := congrArg (List.cons _) h.opened
  frames := h.frames.trans (List.suffix_cons _ _)
  base := h.base
  asserted := h.asserted
  committed := h.committed
  declared := h.declared

/-- There is one frame for the layer and for each layer further inside. -/
theorem Nested.exists_frames (h : c.Nested c' inner own) (hc : c.Orderly) (hc' : c'.Orderly) :
    ∃ frames, c'.session.frames = frames ++ c.session.frames ∧
      frames.length = inner.length + 1 := by
  obtain ⟨frames, hframes⟩ := h.frames
  have hdepth := hc'.depth
  rw [h.opened, ← hframes, List.length_append, List.length_append, List.length_cons,
    hc.depth] at hdepth
  exact ⟨frames, hframes.symm, by omega⟩

/-- Some layers further inside are closed. -/
theorem Nested.closeMany (h : c.Nested c' inner own) (hc : c.Orderly) (hc' : c'.Orderly) {n : Nat}
    (hn : n ≤ inner.length) : c.Nested (closeMany n c') (inner.drop n) own where
  opened := by rw [opened_closeMany, h.opened, List.drop_append_of_le_length hn]
  frames := by
    obtain ⟨frames, hframes, hlength⟩ := h.exists_frames hc hc'
    rw [frames_closeMany n hc', hframes, List.drop_append_of_le_length (by omega)]
    exact List.suffix_append _ _
  base := (base_closeMany n c').1.trans h.base
  asserted := (Proof.heard_closeMany n c').2.asserted.trans h.asserted
  committed := (Proof.heard_closeMany n c').2.committed.trans h.committed
  declared := by
    obtain ⟨names, gone, hgiven, hretired, hnames⟩ := h.declared
    refine ⟨names, gone ++ (inner.take n).flatMap Layer.symbols, ?_, ?_, ?_⟩
    · rw [given_closeMany, hgiven]
    · rw [retired_closeMany, hretired, h.opened, List.take_append_of_le_length hn,
        List.append_assoc]
    · rwa [List.append_assoc, ← List.flatMap_append, ← List.append_assoc, List.take_append_drop]

/-- The innermost layer is altered. -/
theorem Nested.alters (h : c.Nested c' inner own) (hc : c.Orderly) (hc' : c'.Orderly)
    (halters : c'.Alters c'') :
    ∃ inner' own', c.Nested c'' inner' own' ∧ own'.serial = own.serial ∧ own'.name = own.name := by
  obtain ⟨frames, hframes, hlength⟩ := h.exists_frames hc hc'
  obtain ⟨top, frames, rfl⟩ := List.exists_cons_of_length_eq_add_one hlength
  rw [List.cons_append] at hframes
  have hinside := halters.inside (by simp [h.opened])
  obtain ⟨top', hframes'⟩ := hinside.frames _ _ hframes
  have hsuffix : c.session.frames <:+ c''.session.frames := by
    rw [hframes', ← List.cons_append]
    exact List.suffix_append _ _
  have hbase := (hinside.base (by simp [h.opened])).trans h.base
  have hasserted := (hinside.asserted (by simp [hframes])).trans h.asserted
  have hcommitted := hinside.committed.trans h.committed
  have hserials := halters.serials
  obtain ⟨names, gone, hgiven, hretired, hnames⟩ := h.declared
  have hopened := h.opened
  cases inner with
  | nil =>
      -- the layer itself is the innermost one
      obtain ⟨l, new, hl, hname, hsymbols, hnew⟩ := halters.declared _ _ hopened
      refine ⟨[], l, ⟨hl, hsuffix, hbase, hasserted, hcommitted, names ++ new, gone, ?_, ?_, ?_⟩,
        ?_, hname⟩
      · rw [hnew, hgiven, List.append_assoc]
      · rw [halters.retired, hretired]
      · have hnames : names.Perm (gone ++ own.symbols) := by simpa using hnames
        simpa [hsymbols] using hnames.append_right new
      · rw [hl, hopened] at hserials
        exact (List.cons.inj hserials).1
  | cons first rest =>
      obtain ⟨l, new, hl, -, hsymbols, hnew⟩ := halters.declared _ _ hopened
      refine ⟨l :: rest, own, ⟨hl, hsuffix, hbase, hasserted, hcommitted, names ++ new, gone, ?_,
        ?_, ?_⟩, rfl, rfl⟩
      · rw [hnew, hgiven, List.append_assoc]
      · rw [halters.retired, hretired]
      · -- what was declared now comes after what the innermost layer had declared
        refine (hnames.append_right new).trans (List.perm_iff_count.2 fun name => ?_)
        simp only [List.cons_append, List.flatMap_cons, hsymbols, List.count_append]
        omega

/-- **One operation** that does not close the layer leaves everything outside of it as it is. -/
theorem Moves.nested (hmove : Moves c' c'') (hopen : c''.IsOpen own) (h : c.Nested c' inner own)
    (hc : c.Orderly) (hc' : c'.Orderly) (hcounted : c'.Counted) :
    ∃ inner' own', c.Nested c'' inner' own' ∧ own'.serial = own.serial ∧ own'.name = own.name := by
  rcases hmove.cases with ⟨name, rfl⟩ | ⟨n, rfl⟩ | halters
  · exact ⟨_, own, h.push name, rfl, rfl⟩
  · refine ⟨_, own, h.closeMany hc hc' (n := n) ?_, rfl, rfl⟩
    -- what is closed lies further inside: the layers around have other numbers
    by_contra hlt
    obtain ⟨l, hl, hserial⟩ := hopen
    rw [opened_closeMany, h.opened] at hl
    have houter : l ∈ c.opened := by
      rw [List.drop_append, List.mem_append] at hl
      rcases hl with hl | hl
      · rw [List.drop_of_length_le (by omega)] at hl
        cases hl
      · obtain ⟨k, hk⟩ : ∃ k, n - inner.length = k + 1 := ⟨n - inner.length - 1, by omega⟩
        rw [hk, List.drop_succ_cons] at hl
        exact List.mem_of_mem_drop hl
    exact (hcounted.apart h.opened).2 l houter hserial
  · exact h.alters hc hc' halters

/-- **Nothing outside of a layer changes** while it is open. -/
theorem LeadsInside.nested (hc : c.Reachable)
    (h : LeadsInside (c.push name).1 (c.push name).2 c') :
    ∃ inner own, c.Nested c' inner own ∧ own.serial = c.openings + 1 ∧ own.name = name := by
  induction h with
  | refl => exact ⟨[], (c.push name).1, c.nested_push name, rfl, rfl⟩
  | tail hleads hmove ih =>
      obtain ⟨inner, own, hnested, hserial, hname⟩ := ih
      have hc' := (hc.move (.push c name)).leads (LeadsInside.leads hleads)
      have hopen : IsOpen _ own := hmove.2.imp fun l hl => ⟨hl.1, hl.2.trans hserial.symm⟩
      obtain ⟨inner', own', hnested', hserial', hname'⟩ :=
        hmove.1.nested hopen hnested hc.orderly hc'.orderly hc'.counted
      exact ⟨inner', own', hnested', hserial'.trans hserial, hname'.trans hname⟩

end Nested

end Context

end CandyCircle
