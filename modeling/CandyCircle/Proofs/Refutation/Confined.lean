/-
**No constant leaves its layer.**

A constant is declared in a layer, and while the layer is open what is asserted in it or further
inside may mention the constant.  Once the layer is closed nothing that is active mentions it any
more, whatever was done in between and whatever failed: assertions go to the innermost frame only,
a frame goes with its layer, and formulas that mention constants of closed layers are refused.

The one thing that is asked of a run is that formulas mention no constant before it is declared.

Main definitions:

* `CandyCircle.Context.given` — the names of the constants declared so far;
* `CandyCircle.Context.Timely` — **the states that a run can reach** in which formulas mention no
  constant before it is declared;
* `CandyCircle.Context.Confined` — every constant that a frame mentions was declared in a layer that
  is open around it;
* `CandyCircle.Context.Tight` — what every single operation preserves;
* `CandyCircle.Context.Sealed` — no constant leaves its layer.

Main results:

* `CandyCircle.Context.Moves.tight`, `CandyCircle.Context.Timely.tight` — one operation, and whole
  runs;
* `CandyCircle.Context.sealed_of_timely` — **no constant leaves its layer**, in any state that such
  a run can reach.
-/
import CandyCircle.Proofs.Refutation.Faithful

set_option autoImplicit false

namespace CandyCircle

open Logic

/-- The assertions of all frames, the base frame first. -/
def Session.stack (s : Session) : List (List Assertion) :=
  s.base :: s.frames.reverse

namespace Context

/-! ### Timely runs -/

/-- The names of the constants declared so far. -/
def given (c : Context) : List String :=
  c.issued.map Prod.snd

/-- **The states that a run can reach** in which formulas mention no constant before it is declared:
whenever one is declared, nothing that is active mentions it. -/
inductive Timely : Context → Prop where
  | start (options : Settings.Options) (replies : List Prepared) : Timely (start options replies)
  | move {c c' : Context} (h : Timely c) (hmove : Moves c c')
      (hnew : ∀ name ∈ c'.given, name ∉ c.given → ∀ f ∈ c.session.active, name ∉ f.names) :
      Timely c'

theorem Timely.reachable {c : Context} (h : c.Timely) : c.Reachable := by
  induction h with
  | start options replies => exact .start options replies
  | move _ hmove _ ih => exact ih.move hmove

/-! ### What operations preserve -/

/-- Every constant that a frame mentions was declared in one of some layers. -/
def Within (given : List String) (layers : List Layer) (frame : List Assertion) : Prop :=
  ∀ a ∈ frame, ∀ name ∈ a.formula.names, name ∈ given → ∃ l ∈ layers, name ∈ l.symbols

/-- Every constant that a frame mentions was declared in its layer, or in one around it. -/
inductive Confined (given : List String) (base : Layer) (ground : List Assertion) :
    List Layer → List (List Assertion) → Prop where
  | ground (h : Within given [base] ground) : Confined given base ground [] []
  | layer {l : Layer} {outer : List Layer} {frame : List Assertion}
      {frames : List (List Assertion)} (h : Within given (l :: outer ++ [base]) frame)
      (houter : Confined given base ground outer frames) :
      Confined given base ground (l :: outer) (frame :: frames)

/-- Layers carry their depths. -/
def Stacked : List Layer → Prop
  | [] => True
  | l :: outer => l.depth = outer.length + 1 ∧ Stacked outer

/-- What every single operation preserves. -/
structure Tight (c : Context) : Prop where
  ground : c.base.depth = 0
  stacked : Stacked c.opened
  /-- Constants carry the numbers under which they were declared. -/
  numbered : ∀ (i : Nat) (name : String), c.given[i]? = some name → ∃ stem, name = freshName stem i
  /-- Every constant declared so far is one of a layer or retired, and no more than that. -/
  known : c.given.Perm c.known
  confined : Confined c.given c.base c.session.base c.opened c.session.frames

section Tight

variable {given given' : List String} {layers layers' : List Layer} {frame : List Assertion}
  {base base' : Layer} {ground : List Assertion} {opened : List Layer}
  {frames : List (List Assertion)}

theorem Within.mono (h : Within given layers frame)
    (hlayers : ∀ l ∈ layers, ∃ l' ∈ layers', l.symbols ⊆ l'.symbols) :
    Within given layers' frame := by
  intro a ha name hname hgiven
  obtain ⟨l, hl, hsymbol⟩ := h a ha name hname hgiven
  obtain ⟨l', hl', hsymbols⟩ := hlayers l hl
  exact ⟨l', hl', hsymbols hsymbol⟩

/-- A constant that is declared only now is not mentioned. -/
theorem Within.declared {new : String} (h : Within given layers frame)
    (hnew : ∀ a ∈ frame, new ∉ a.formula.names) : Within (given ++ [new]) layers frame := by
  intro a ha name hname hgiven
  rcases List.mem_append.1 hgiven with hgiven | hgiven
  · exact h a ha name hname hgiven
  · rw [List.mem_singleton.1 hgiven] at hname
    exact absurd hname (hnew a ha)

theorem Within.add {a : Assertion} (h : Within given layers frame)
    (ha : ∀ name ∈ a.formula.names, name ∈ given → ∃ l ∈ layers, name ∈ l.symbols) :
    Within given layers (frame ++ [a]) := by
  intro b hb
  rcases List.mem_append.1 hb with hb | hb
  · exact h b hb
  · rw [List.mem_singleton.1 hb]
    exact ha

theorem Confined.declared {new : String} (h : Confined given base ground opened frames)
    (hnew : ∀ a ∈ ground ++ frames.flatten, new ∉ a.formula.names) :
    Confined (given ++ [new]) base ground opened frames := by
  induction h with
  | ground h => exact .ground (h.declared fun a ha => hnew a (List.mem_append_left _ ha))
  | layer h _ ih =>
      refine .layer (h.declared fun a ha => hnew a ?_) (ih fun a ha => hnew a ?_)
      · exact List.mem_append_right _ (List.mem_append_left _ ha)
      · rcases List.mem_append.1 ha with ha | ha
        · exact List.mem_append_left _ ha
        · exact List.mem_append_right _ (List.mem_append_right _ ha)

theorem Confined.length (h : Confined given base ground opened frames) :
    frames.length = opened.length := by
  induction h with
  | ground h => rfl
  | layer h _ ih => exact congrArg (· + 1) ih

variable {c c' : Context}

/-- A change of the innermost layer that takes no constant from it. -/
theorem Confined.updateCurrent (h : Confined given c.base ground c.opened frames)
    {f : Layer → Layer} (hsymbols : ∀ l, l.symbols ⊆ (f l).symbols) :
    Confined given (c.updateCurrent f).base ground (c.updateCurrent f).opened frames := by
  unfold Context.updateCurrent
  split
  · rename_i hopened
    rw [hopened] at h
    cases h with
    | ground h =>
        simp only [hopened]
        refine .ground (h.mono fun l hl => ?_)
        rw [List.mem_singleton.1 hl]
        exact ⟨f c.base, List.mem_singleton.2 rfl, hsymbols _⟩
  · rename_i l outer hopened
    rw [hopened] at h
    cases h with
    | layer h houter =>
        refine .layer (h.mono fun l' hl' => ?_) houter
        rcases List.mem_cons.1 hl' with rfl | hl'
        · exact ⟨f l', List.mem_cons_self, hsymbols l'⟩
        · exact ⟨l', List.mem_cons_of_mem _ hl', List.Subset.refl _⟩

theorem stacked_updateCurrent {f : Layer → Layer} (hdepth : ∀ l, (f l).depth = l.depth)
    (hground : c.base.depth = 0) (h : Stacked c.opened) :
    (c.updateCurrent f).base.depth = 0 ∧ Stacked (c.updateCurrent f).opened := by
  unfold Context.updateCurrent
  split
  · exact ⟨(hdepth _).trans hground, h⟩
  · rename_i l outer hopened
    rw [hopened] at h
    exact ⟨hground, (hdepth l).trans h.1, h.2⟩

/-- A constant that was declared and not retired belongs to an open layer. -/
theorem Tight.owned (h : c.Tight) {name : String} (hgiven : name ∈ c.given)
    (hretired : name ∉ c.retired) : ∃ l ∈ c.layers, name ∈ l.symbols := by
  rcases List.mem_append.1 (h.known.mem_iff.1 hgiven) with hname | hname
  · exact absurd hname hretired
  · exact List.mem_flatMap.1 hname

/-- A change of the innermost layer that keeps its depth and its constants. -/
theorem Tight.updateCurrent (h : c.Tight) {f : Layer → Layer} (hdepth : ∀ l, (f l).depth = l.depth)
    (hsymbols : ∀ l, (f l).symbols = l.symbols) : (c.updateCurrent f).Tight := by
  have hgiven : (c.updateCurrent f).given = c.given := by rw [given, issued_updateCurrent]; rfl
  obtain ⟨hground, hstacked⟩ := stacked_updateCurrent hdepth h.ground h.stacked
  refine ⟨hground, hstacked, ?_, ?_, ?_⟩
  · rw [hgiven]
    exact h.numbered
  · rw [hgiven, known_updateCurrent hsymbols]
    exact h.known
  · rw [hgiven, session_updateCurrent]
    exact h.confined.updateCurrent fun l => by rw [hsymbols]; exact List.Subset.refl _

/-! ### Single operations -/

theorem Tight.push (h : c.Tight) (name : String) : (c.push name).2.Tight where
  ground := h.ground
  stacked := ⟨rfl, h.stacked⟩
  numbered := h.numbered
  known := h.known
  confined := .layer (fun _ ha => absurd ha List.not_mem_nil) h.confined

theorem Tight.closeInnermost (h : c.Tight) : c.closeInnermost.Tight := by
  obtain ⟨hground, hstacked, hnumbered, hknown, hconfined⟩ := h
  unfold Context.closeInnermost
  split
  · exact ⟨hground, hstacked, hnumbered, hknown, hconfined⟩
  · rename_i l outer hopened
    rw [hopened] at hstacked hconfined
    refine ⟨hground, hstacked.2, hnumbered, ?_, ?_⟩
    · -- what the layer declared is retired now
      have hsame : (c.retired ++ l.symbols) ++ (outer ++ [c.base]).flatMap Layer.symbols =
          c.known := by
        simp [Context.known, layers, hopened]
      change c.given.Perm ((c.retired ++ l.symbols) ++ (outer ++ [c.base]).flatMap Layer.symbols)
      rw [hsame]
      exact hknown
    · cases hframes : c.session.frames with
      | nil =>
          rw [hframes] at hconfined
          cases hconfined
      | cons frame frames =>
          rw [hframes] at hconfined
          cases hconfined with
          | layer _ houter =>
              change Confined c.given c.base c.session.base outer c.session.frames.tail
              rw [hframes]
              exact houter

theorem Tight.closeMany (n : Nat) : ∀ {c : Context}, c.Tight → (closeMany n c).Tight := by
  induction n with
  | zero => exact fun h => h
  | succ n ih => exact fun h => ih h.closeInnermost

theorem Tight.unwind (h : c.Tight) (layer : Layer) : (c.unwind layer).Tight := by
  unfold Context.unwind
  split
  · exact h
  · exact h.closeMany _

theorem known_declare (c : Context) (stem : String) (kind : Kind) :
    (c.declare stem kind).2.known.Perm (c.known ++ [freshName stem c.issued.length]) := by
  unfold Context.declare Context.known layers Context.updateCurrent
  cases hopened : c.opened with
  | nil => simp
  | cons l outer =>
      simp only [List.cons_append, List.flatMap_cons, List.append_assoc, List.nil_append]
      exact ((List.perm_append_singleton _ _).symm.append_left _).append_left _

/-- A constant is declared that nothing active mentions. -/
theorem Tight.declare (h : c.Tight) (stem : String) (kind : Kind)
    (hnew : ∀ f ∈ c.session.active, freshName stem c.issued.length ∉ f.names) :
    (c.declare stem kind).2.Tight := by
  let f : Layer → Layer := fun l =>
    { l with symbols := l.symbols ++ [freshName stem c.issued.length] }
  have hgiven : (c.declare stem kind).2.given = c.given ++ [freshName stem c.issued.length] := by
    simp [Context.declare, given]
  obtain ⟨hground, hstacked⟩ := stacked_updateCurrent (f := f) (fun _ => rfl) h.ground h.stacked
  refine ⟨hground, hstacked, ?_, ?_, ?_⟩
  · rw [hgiven]
    intro i name hname
    rw [List.getElem?_append] at hname
    split at hname
    · exact h.numbered i name hname
    · rename_i hi
      have hlength : c.given.length = c.issued.length := List.length_map _
      obtain ⟨hlast, rfl⟩ := List.getElem?_eq_some_iff.1 hname
      have hlast : i - c.given.length < 1 := hlast
      refine ⟨stem, ?_⟩
      rw [List.getElem_singleton, show i = c.issued.length by omega]
  · rw [hgiven]
    exact (h.known.append_right _).trans (known_declare c stem kind).symm
  · rw [hgiven]
    have hunmentioned : ∀ a ∈ c.session.base ++ c.session.frames.flatten,
        freshName stem c.issued.length ∉ a.formula.names := by
      intro a ha
      refine hnew a.formula (List.mem_map.2 ⟨a, ?_, rfl⟩)
      simp only [Session.question, List.mem_append, List.mem_flatten, List.mem_reverse] at ha ⊢
      exact ha
    have hsession : (c.declare stem kind).2.session = c.session := session_updateCurrent _ _
    rw [hsession]
    exact (h.confined.declared hunmentioned).updateCurrent (f := f)
      fun l => List.subset_append_left _ _

/-- An assertion in the innermost frame. -/
theorem Confined.add {s : Session} {a : Assertion} (h : Confined given base s.base opened s.frames)
    (ha : ∀ name ∈ a.formula.names, name ∈ given → ∃ l ∈ opened ++ [base], name ∈ l.symbols) :
    Confined given base (s.add a).base opened (s.add a).frames := by
  obtain ⟨ground, frames, replies, clock, history⟩ := s
  cases h with
  | ground h => exact .ground (h.add ha)
  | layer h houter => exact .layer (h.add ha) houter

/-- A formula without retired constants is asserted. -/
theorem Tight.add (h : c.Tight) {a : Assertion} (ha : ∀ name ∈ a.formula.names, name ∉ c.retired) :
    Tight { c with session := c.session.add a } where
  ground := h.ground
  stacked := h.stacked
  numbered := h.numbered
  known := h.known
  confined := h.confined.add fun name hname hgiven => h.owned hgiven (ha name hname)

/-- Nothing changed but what no assertion depends on. -/
theorem Tight.congr (h : c.Tight) (hbase : c'.base = c.base) (hopened : c'.opened = c.opened)
    (hretired : c'.retired = c.retired) (hissued : c'.issued = c.issued)
    (hground : c'.session.base = c.session.base)
    (hframes : c'.session.frames = c.session.frames) : c'.Tight := by
  obtain ⟨h₁, h₂, h₃, h₄, h₅⟩ := h
  constructor <;> simp_all [given, Context.known, layers]

theorem Tight.assertInside (h : c.Tight) {a : Assertion}
    (ha : ∀ name ∈ a.formula.names, name ∉ c.retired) : (c.assertInside a).Tight :=
  (h.add ha).updateCurrent (fun _ => rfl) fun _ => rfl

theorem Tight.commit (h : c.Tight) {f : Fact} (hcommit : c.commit f = .ok c') : c'.Tight := by
  obtain ⟨hopened, -, hnames, rfl⟩ := Proof.inv_of_commit hcommit
  have hadded := (h.add (a := f.assertion) hnames).updateCurrent
    (f := fun l => l.register f) (fun _ => rfl) fun _ => rfl
  refine hadded.congr ?_ ?_ ?_ ?_ ?_ ?_ <;> simp [Context.updateCurrent, hopened, logged]

/-- **One operation** keeps constants in their layers. -/
theorem Moves.tight (hmove : Moves c c') (h : c.Tight)
    (hnew : ∀ name ∈ c'.given, name ∉ c.given → ∀ f ∈ c.session.active, name ∉ f.names) :
    c'.Tight := by
  cases hmove with
  | push name => exact h.push name
  | pop hpop =>
      rw [(Proof.eq_of_pop hpop).2]
      exact h.closeInnermost
  | unwind layer => exact h.unwind layer
  | declare stem kind =>
      have hlast : (c.declare stem kind).2.given = c.given ++ [freshName stem c.issued.length] := by
        simp [Context.declare, given]
      refine h.declare stem kind (hnew _ ?_ ?_)
      · rw [hlast]
        exact List.mem_append_right _ (List.mem_singleton.2 rfl)
      · -- it carries a number that was not given out
        intro hmem
        obtain ⟨i, hi, hname⟩ := List.getElem_of_mem hmem
        obtain ⟨stem', hstem⟩ := h.numbered i _ (List.getElem?_eq_getElem hi)
        have hlength : c.given.length = c.issued.length := List.length_map _
        have := freshName_inj (hname.symm.trans hstem)
        omega
  | assume hassume =>
      obtain ⟨hnames, rfl⟩ := Proof.inv_of_assume hassume
      exact h.assertInside hnames
  | assumeFact hassume =>
      obtain ⟨hnames, rfl⟩ := Proof.inv_of_assumeFact hassume
      exact (h.assertInside hnames).updateCurrent (fun _ => rfl) fun _ => rfl
  | commit hcommit => exact h.commit hcommit
  | check name rule claim =>
      obtain ⟨session, ledger, log, hsame, hground, hframes⟩ := c.checkRefuted_eq name rule claim
      rw [hsame]
      exact h.congr rfl rfl rfl rfl hground hframes
  | setOutcome layer v => exact h.congr rfl rfl rfl rfl rfl rfl
  | log level source message => exact h.congr rfl rfl rfl rfl rfl rfl

/-- **Whole runs** do so too. -/
theorem Timely.tight (h : c.Timely) : c.Tight := by
  induction h with
  | start options replies =>
      refine ⟨rfl, trivial, fun i name hname => ?_, List.Perm.refl _, .ground ?_⟩
      · cases hname
      · exact fun a ha => absurd ha List.not_mem_nil
  | move _ hmove hnew ih => exact hmove.tight ih hnew

/-! ### No constant leaves its layer -/

theorem depth_le_of_stacked (h : Stacked opened) : ∀ l ∈ opened, l.depth ≤ opened.length := by
  induction opened with
  | nil => exact fun l hl => absurd hl List.not_mem_nil
  | cons l outer ih =>
      refine List.forall_mem_cons.2 ⟨Nat.le_of_eq h.1, fun l' hl' => ?_⟩
      exact Nat.le_trans (ih h.2 l' hl') (Nat.le_succ _)

theorem depth_of_stacked (hground : base.depth = 0) (h : Stacked opened) :
    ∀ (i : Nat) (l : Layer), (opened ++ [base]).reverse[i]? = some l → l.depth = i := by
  induction opened with
  | nil =>
      rintro (_ | i) l hl
      · cases hl
        exact hground
      · cases hl
  | cons l outer ih =>
      intro i l' hl'
      rw [List.cons_append, List.reverse_cons] at hl'
      rcases Nat.lt_or_ge i (outer ++ [base]).reverse.length with hi | hi
      · rw [List.getElem?_append_left hi] at hl'
        exact ih h.2 i l' hl'
      · rw [List.getElem?_append_right hi, List.getElem?_singleton] at hl'
        split at hl' <;> cases hl'
        rename_i hlast
        rw [h.1]
        simp only [List.length_reverse, List.length_append, List.length_singleton] at hi hlast
        omega

/-- Frames, counted from the base frame on, mention constants of layers of no greater depth. -/
theorem Confined.depth_le (h : Confined given base ground opened frames)
    (hground : base.depth = 0) (hstacked : Stacked opened) :
    ∀ (i : Nat) (frame : List Assertion), (ground :: frames.reverse)[i]? = some frame →
      ∀ a ∈ frame, ∀ name ∈ a.formula.names, name ∈ given →
        ∃ l ∈ opened ++ [base], l.depth ≤ i ∧ name ∈ l.symbols := by
  induction h with
  | ground h =>
      rintro (_ | i) frame hframe a ha name hname hgiven
      · cases hframe
        obtain ⟨l, hl, hsymbol⟩ := h a ha name hname hgiven
        refine ⟨l, hl, ?_, hsymbol⟩
        exact Nat.le_of_eq ((List.mem_singleton.1 hl).symm ▸ hground)
      · cases hframe
  | @layer l outer frame frames h houter ih =>
      intro i frame' hframe a ha name hname hgiven
      rw [List.reverse_cons, ← List.cons_append] at hframe
      rcases Nat.lt_or_ge i (ground :: frames.reverse).length with hi | hi
      · rw [List.getElem?_append_left hi] at hframe
        obtain ⟨l', hl', hle⟩ := ih hstacked.2 i frame' hframe a ha name hname hgiven
        exact ⟨l', List.mem_cons_of_mem _ hl', hle⟩
      · -- the innermost frame: all layers are around it
        rw [List.getElem?_append_right hi, List.getElem?_singleton] at hframe
        split at hframe <;> cases hframe
        obtain ⟨l', hl', hsymbol⟩ := h a ha name hname hgiven
        refine ⟨l', hl', ?_, hsymbol⟩
        have hlength := houter.length
        simp only [List.length_cons, List.length_reverse] at hi
        rcases List.mem_append.1 hl' with hl' | hl'
        · have hle := depth_le_of_stacked hstacked l' hl'
          rw [List.length_cons] at hle
          omega
        · rw [List.mem_singleton.1 hl', hground]
          exact Nat.zero_le i

theorem Tight.nodup_given (h : c.Tight) : c.given.Nodup := by
  refine List.pairwise_iff_getElem.2 fun i j hi hj hij heq => ?_
  obtain ⟨stem, hstem⟩ := h.numbered i _ (List.getElem?_eq_getElem hi)
  obtain ⟨stem', hstem'⟩ := h.numbered j _ (List.getElem?_eq_getElem hj)
  have := freshName_inj (hstem.symm.trans (heq.trans hstem'))
  omega

/-- **No constant leaves its layer.** -/
structure Sealed (c : Context) : Prop where
  /-- There is one frame for each layer. -/
  frames : c.session.stack.length = c.layers.length
  /-- Counted from the base layer on, each layer has its place for its depth. -/
  depth : ∀ (i : Nat) (l : Layer), c.layers.reverse[i]? = some l → l.depth = i
  /-- No name was given out twice. -/
  distinct : c.given.Nodup
  /-- Constants of open layers are not retired. -/
  disjoint : ∀ l ∈ c.layers, ∀ name ∈ l.symbols, name ∉ c.retired
  /-- A constant that an assertion mentions was declared in an open layer around its frame. -/
  confined : ∀ (i : Nat) (frame : List Assertion), c.session.stack[i]? = some frame →
    ∀ a ∈ frame, ∀ name ∈ a.formula.names, name ∈ c.given →
      ∃ l ∈ c.layers, l.depth ≤ i ∧ name ∈ l.symbols
  /-- Nothing active mentions a retired constant. -/
  unmentioned : ∀ f ∈ c.session.active, ∀ name ∈ f.names, name ∉ c.retired

theorem Tight.sealed (h : c.Tight) : c.Sealed := by
  have hknown : (c.retired ++ c.layers.flatMap Layer.symbols).Nodup :=
    h.known.nodup_iff.1 h.nodup_given
  have hdisjoint : ∀ l ∈ c.layers, ∀ name ∈ l.symbols, name ∉ c.retired := by
    intro l hl name hname hretired
    exact (List.nodup_append.1 hknown).2.2 name hretired name
      (List.mem_flatMap.2 ⟨l, hl, hname⟩) rfl
  have hconfined := h.confined.depth_le h.ground h.stacked
  refine ⟨?_, depth_of_stacked h.ground h.stacked, h.nodup_given, hdisjoint, hconfined, ?_⟩
  · simp [Session.stack, layers, h.confined.length]
  · intro f hf name hname hretired
    obtain ⟨a, ha, rfl⟩ := List.mem_map.1 hf
    obtain ⟨frame, hframe, ha⟩ : ∃ frame ∈ c.session.stack, a ∈ frame := by
      simpa [Session.question, Session.stack] using ha
    obtain ⟨i, hi⟩ := List.getElem?_of_mem hframe
    have hgiven : name ∈ c.given := h.known.mem_iff.2 (List.mem_append_left _ hretired)
    obtain ⟨l, hl, -, hsymbol⟩ := hconfined i frame hi a ha name hname hgiven
    exact hdisjoint l hl name hsymbol hretired

/-- **No constant leaves its layer**, in any state that a run can reach in which formulas mention no
constant before it is declared. -/
theorem sealed_of_timely (h : c.Timely) : c.Sealed :=
  h.tight.sealed

/-! ### A layer that was closed -/

/-- An operation that declares nothing is timely. -/
theorem Timely.stay (h : c.Timely) (hmove : Moves c c') (hgiven : c'.given = c.given) :
    c'.Timely :=
  h.move hmove fun _ hname hnew => absurd (hgiven ▸ hname) hnew

/-- A state inside a layer that fixes a number, after a further layer was closed that had fixed
another one. -/
def closedCase : Context :=
  let opened := ((Proof.fixedNumber.push "inner").2.declare "j" .int).2
  (opened.assertInside
    { formula := .atLeast (Term.plus (.int "j!1") (.int "k!0")) 0, label := "sum" }).closeInnermost

theorem timely_closedCase : closedCase.Timely := by
  have hstart : (Context.start (Settings.options {}) []).Timely := .start _ _
  have hcase := hstart.stay (.push _ "case") rfl
  have hk := hcase.move (.declare _ "k" .int) fun _ _ _ f hf => absurd hf List.not_mem_nil
  have hfixed : Proof.fixedNumber.Timely :=
    hk.stay (.assume (assume_of_admits fun _ _ => List.not_mem_nil)) rfl
  have hinner := hfixed.stay (.push _ "inner") rfl
  have hj := hinner.move (.declare _ "j" .int) (by decide +kernel)
  exact (hj.stay (.assume (assume_of_admits fun _ _ => List.not_mem_nil)) rfl).stay
    (.pop (show Context.pop _ none = .ok _ from rfl)) rfl

theorem sealed_closedCase :
    closedCase.Timely ∧ closedCase.retired = ["j!1"] ∧ closedCase.Sealed :=
  ⟨timely_closedCase, by decide, sealed_of_timely timely_closedCase⟩

end Tight

end Context

end CandyCircle
