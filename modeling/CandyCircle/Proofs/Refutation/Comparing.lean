/-
**Runs side by side.**

Whatever the solver replies, a proof does what it would do if every query were refuted, up to the
first query that is not.  From there on it asks nothing more, it closes the layers that it opened,
and it fails with that query.  So it is enough to know one run, that in which every query is
refuted, to know all others.

A goal is the one place where a proof goes on although a query was not refuted: its verdict is kept
until the layer of the goal is closed, and judged then.

Main definitions:

* `CandyCircle.Context.retold` — a state with other replies and with other records of its past;
* `CandyCircle.Context.Abreast` — a run is level with one in which every query is refuted;
* `CandyCircle.Context.Replied` — the answers that the replies of a state gave;
* `CandyCircle.Context.Rests` — the same layers are open;
* `CandyCircle.Proof.Tracks` — **a proof does what it does when every query is refuted**, up to the
  first query that is not;
* `CandyCircle.Proof.Follows` — the same of a proof that fails with that query.

Main results:

* `CandyCircle.Proof.Tracks.bind`, `CandyCircle.Proof.tracks_scope` — the parts of a proof, one
  after another and inside a layer;
* `CandyCircle.Proof.tracks_discharge`, `CandyCircle.Proof.follows_proving` — **goals and claims**;
* `CandyCircle.Proof.closed_follows` — stopping at the first query that is not refuted **is
  closed**: claims and inductions do so.
-/
import CandyCircle.Proofs.Refutation.Reachable
import CandyCircle.Proofs.Refutation.Returning

set_option autoImplicit false

namespace CandyCircle

open Logic

namespace Context

/-! ### Two runs -/

/-- A state with the replies and the records of another one: its options, its clock, what was asked
and logged. -/
def retold (c e : Context) : Context :=
  { c with
    options := e.options
    session :=
      { c.session with
        replies := e.session.replies
        clock := e.session.clock
        history := e.session.history }
    ledger := e.ledger
    log := e.log }

/-- A run is level with one in which every query is refuted, since no replies are left to it. -/
structure Abreast (c d : Context) : Prop where
  same : ∃ e, d = c.retold e
  /-- All replies that are left can be given. -/
  givable : ∀ r ∈ c.session.replies, ∃ reply, r = .ok reply
  unscripted : d.session.replies = []

/-- Between two states the replies gave the answers of some exchanges. -/
structure Replied (c c' : Context) (xs : List Exchange) : Prop where
  left : c'.session.replies = c.session.replies.drop xs.length
  answer : ∀ (i : Nat) (h : i < xs.length), ∃ millis,
    c.session.replies.getD i (.ok .exhausted) = .ok ⟨xs[i].answer, millis⟩

/-- The same layers are open in two states, with a frame for each of them. -/
structure Rests (c c' : Context) : Prop where
  opened : c'.opened.map Layer.serial = c.opened.map Layer.serial
  frames : c'.session.frames.length = c.session.frames.length

/-- Between two states the exchanges took place, and the layers are those from before. -/
structure Went (c c' : Context) (xs : List Exchange) : Prop where
  heard : c.Heard c' xs
  replied : c.Replied c' xs
  rests : c.Rests c'

/-- No reply was used up. -/
theorem Replied.of_eq {c c' : Context} (h : c'.session.replies = c.session.replies) :
    c.Replied c' [] :=
  ⟨h, fun _ h => absurd h (Nat.not_lt_zero _)⟩

theorem Replied.trans {c c' c'' : Context} {xs ys : List Exchange} (h : c.Replied c' xs)
    (h' : c'.Replied c'' ys) : c.Replied c'' (xs ++ ys) where
  left := by rw [h'.left, h.left, List.drop_drop, List.length_append]
  answer := by
    intro i hi
    by_cases hfirst : i < xs.length
    · rw [List.getElem_append_left hfirst]
      exact h.answer i hfirst
    · have hsecond : i - xs.length < ys.length := by
        rw [List.length_append] at hi
        omega
      obtain ⟨millis, hreply⟩ := h'.answer (i - xs.length) hsecond
      refine ⟨millis, ?_⟩
      rw [List.getElem_append_right (Nat.le_of_not_lt hfirst), ← hreply, h.left,
        List.getD_eq_getElem?_getD, List.getD_eq_getElem?_getD, List.getElem?_drop,
        Nat.add_sub_cancel' (Nat.le_of_not_lt hfirst)]

/-- What took place between two states is determined by them. -/
theorem Heard.unique {c c' : Context} {xs ys : List Exchange} (h : c.Heard c' xs)
    (h' : c.Heard c' ys) : xs = ys := by
  have hentries : xs.map Exchange.entry = ys.map Exchange.entry :=
    List.append_cancel_left (h.entries.symm.trans h'.entries)
  have hasked : xs.map (fun x => (x.question, x.answer)) = ys.map fun x => (x.question, x.answer) :=
    List.append_cancel_left (h.asked.symm.trans h'.asked)
  have hall := congrArg₂ List.zip hentries hasked
  rw [List.zip_map', List.zip_map'] at hall
  refine (List.map_inj_right fun x y hxy => ?_).1 hall
  cases x
  cases y
  simp_all

theorem Rests.refl (c : Context) : c.Rests c :=
  ⟨rfl, rfl⟩

theorem Rests.trans {c c' c'' : Context} (h : c.Rests c') (h' : c'.Rests c'') : c.Rests c'' :=
  ⟨h'.opened.trans h.opened, h'.frames.trans h.frames⟩

theorem Went.refl (c : Context) : c.Went c [] :=
  ⟨.refl c, .of_eq rfl, .refl c⟩

theorem Went.trans {c c' c'' : Context} {xs ys : List Exchange} (h : c.Went c' xs)
    (h' : c'.Went c'' ys) : c.Went c'' (xs ++ ys) :=
  ⟨h.heard.trans h'.heard, h.replied.trans h'.replied, h.rests.trans h'.rests⟩

/-- Nothing was asked and no reply was used up. -/
theorem Went.of_eq {c c' : Context} (hledger : c'.ledger = c.ledger)
    (hasked : c'.session.asked = c.session.asked)
    (hreplies : c'.session.replies = c.session.replies) (hrests : c.Rests c') : c.Went c' [] :=
  ⟨.of_eq hledger hasked, .of_eq hreplies, hrests⟩

/-! ### Operations on both sides -/

section Abreast

variable {c d : Context}

theorem Abreast.opened (h : c.Abreast d) : d.opened = c.opened := by
  obtain ⟨e, rfl⟩ := h.same
  rfl

theorem Abreast.frames (h : c.Abreast d) : d.session.frames = c.session.frames := by
  obtain ⟨e, rfl⟩ := h.same
  rfl

/-- Runs are still abreast after both went on alike. -/
theorem Abreast.of_replied {c' e' : Context} {xs : List Exchange} (h : c.Abreast d)
    (hreplied : c.Replied c' xs)
    (hreplies : e'.session.replies = d.session.replies.drop xs.length) :
    c'.Abreast (c'.retold e') where
  same := ⟨e', rfl⟩
  givable r hr := h.givable r (List.mem_of_mem_drop (hreplied.left ▸ hr))
  unscripted := by
    change e'.session.replies = []
    rw [hreplies, h.unscripted, List.drop_nil]

theorem updateCurrent_retold (c e : Context) (f : Layer → Layer) :
    (c.retold e).updateCurrent f = (c.updateCurrent f).retold e := by
  unfold updateCurrent
  cases hopened : c.opened <;> simp [retold, hopened]

theorem add_retold (c e : Context) (a : Assertion) :
    ∃ e', { c.retold e with session := (c.retold e).session.add a } =
      Context.retold { c with session := c.session.add a } e' ∧
        e'.session.replies = e.session.replies := by
  refine ⟨{ c.retold e with session := (c.retold e).session.add a }, ?_, ?_⟩
  · unfold Session.add
    cases hframes : c.session.frames <;> simp [retold, hframes, Session.note]
  · exact Session.replies_add _ _

theorem assertInside_retold (c e : Context) (a : Assertion) :
    ∃ e', (c.retold e).assertInside a = (c.assertInside a).retold e' ∧
      e'.session.replies = e.session.replies := by
  obtain ⟨e', he', hreplies⟩ := add_retold c e a
  exact ⟨e', by rw [assertInside, he', updateCurrent_retold]; rfl, hreplies⟩

theorem closeInnermost_retold (c e : Context) :
    ∃ e', (c.retold e).closeInnermost = c.closeInnermost.retold e' ∧
      e'.session.replies = e.session.replies := by
  refine ⟨(c.retold e).closeInnermost, ?_, ?_⟩
  · unfold closeInnermost
    cases hopened : c.opened <;> simp [retold, hopened, logged, Session.pop, Session.note]
  · unfold closeInnermost
    cases hopened : c.opened <;> simp [retold, hopened, logged, Session.pop, Session.note]

theorem rests_updateCurrent (c : Context) (f : Layer → Layer)
    (hf : ∀ l, (f l).serial = l.serial) : c.Rests (c.updateCurrent f) := by
  unfold updateCurrent
  split
  · exact ⟨rfl, rfl⟩
  · rename_i l outer hopened
    exact ⟨by simp [hopened, hf], rfl⟩

theorem went_updateCurrent (c : Context) (f : Layer → Layer)
    (hf : ∀ l, (f l).serial = l.serial) : c.Went (c.updateCurrent f) [] :=
  .of_eq (by simp) (by simp) (by simp) (rests_updateCurrent c f hf)

theorem went_assertInside (c : Context) (a : Assertion) : c.Went (c.assertInside a) [] := by
  have hadd : c.Went { c with session := c.session.add a } [] :=
    .of_eq rfl (by simp) (by simp) ⟨rfl, c.session.length_frames_add a⟩
  exact hadd.trans (went_updateCurrent _ _ fun _ => rfl)

end Abreast

end Context

/-! ### Following a run -/

namespace Exchange

/-- That a query was not refuted, as a failure at some depth. -/
def failure (y : Exchange) (depth : Nat) : Failure :=
  .notRefuted y.entry.lemmaName y.entry.verdict y.entry.rule depth

/-- A query ended a run: it is the last one, and the only one that was not refuted. -/
def Ends (y : Exchange) (xs : List Exchange) : Prop :=
  ∃ ys, xs = ys ++ [y] ∧ (∀ x ∈ ys, x.Refuted) ∧ ¬ y.Refuted

end Exchange

namespace Proof

variable {α β : Type}

/-- A proof failed with a query that was not refuted, or went on in spite of it. -/
def Struck (y : Exchange) (S : α → Exchange → Context → Prop) :
    Except Failure α × Context → Prop
  | (.error e, _) => ∃ depth, e = y.failure depth
  | (.ok a, c) => S a y c

/-- **A proof does what it does when every query is refuted**, up to the first query that is not.
After that one it asks nothing more, and it fails or goes on to some condition. -/
def Tracks (p : ProofM α) (S : α → Exchange → Context → Prop) : Prop :=
  ∀ c d : Context, c.Abreast d → ∃ xs, c.Went (outcome p c).2 xs ∧
    ((∀ x ∈ xs, x.Refuted) ∧ (outcome p c).1 = (outcome p d).1 ∧
        (outcome p c).2.Abreast (outcome p d).2 ∨
      ∃ y : Exchange, y.Ends xs ∧ Struck y S (outcome p c))

/-- A proof does what it does when every query is refuted, up to the first query that is not, with
which it fails. -/
def Follows (p : ProofM α) : Prop :=
  Tracks p fun _ _ _ => False

section Rules

variable {S : α → Exchange → Context → Prop} {S' : β → Exchange → Context → Prop}

theorem Struck.mono {S₁ : α → Exchange → Context → Prop} {y : Exchange}
    {r : Except Failure α × Context} (h : Struck y S r) (hS : ∀ a c, S a y c → S₁ a y c) :
    Struck y S₁ r := by
  obtain ⟨r, c⟩ := r
  cases r with
  | error e => exact h
  | ok a => exact hS a c h

theorem Tracks.mono {p : ProofM α} {S₁ : α → Exchange → Context → Prop} (h : Tracks p S)
    (hS : ∀ a y c, S a y c → S₁ a y c) : Tracks p S₁ := by
  intro c d hcd
  obtain ⟨xs, hwent, hsame | ⟨y, hy, hstruck⟩⟩ := h c d hcd
  · exact ⟨xs, hwent, Or.inl hsame⟩
  · exact ⟨xs, hwent, Or.inr ⟨y, hy, hstruck.mono fun a c => hS a y c⟩⟩

/-- **One proof after another.**  If the first one goes on after a query that was not refuted, the
second one asks nothing and fails with that query, or goes on in turn. -/
theorem Tracks.bind {p : ProofM α} {f : α → ProofM β} (hp : Tracks p S)
    (hf : ∀ a, Tracks (f a) S')
    (hS : ∀ a y c, S a y c → ¬ y.Refuted →
      c.Went (outcome (f a) c).2 [] ∧ Struck y S' (outcome (f a) c)) :
    Tracks (p >>= f) S' := by
  intro c d hcd
  obtain ⟨xs, hwent, h⟩ := hp c d hcd
  simp only [outcome_bind]
  generalize outcome p c = r at hwent h ⊢
  generalize outcome p d = r' at h ⊢
  obtain ⟨r, c₁⟩ := r
  obtain ⟨r', d₁⟩ := r'
  rcases h with ⟨href, hr, hcd₁⟩ | ⟨y, ⟨ys, rfl, href, hy⟩, hstruck⟩
  · obtain rfl : r = r' := hr
    cases r with
    | error e => exact ⟨xs, hwent, Or.inl ⟨href, rfl, hcd₁⟩⟩
    | ok a =>
        obtain ⟨zs, hwent', ⟨href', hsame⟩ | ⟨y, ⟨ys, rfl, href', hy⟩, hstruck⟩⟩ := hf a c₁ d₁ hcd₁
        · refine ⟨xs ++ zs, hwent.trans hwent', Or.inl ⟨fun x hx => ?_, hsame⟩⟩
          exact (List.mem_append.1 hx).elim (href x) (href' x)
        · refine ⟨xs ++ (ys ++ [y]), hwent.trans hwent',
            Or.inr ⟨y, ⟨xs ++ ys, ?_, ?_, hy⟩, hstruck⟩⟩
          · rw [List.append_assoc]
          · exact fun x hx => (List.mem_append.1 hx).elim (href x) (href' x)
  · cases r with
    | error e => exact ⟨_, hwent, Or.inr ⟨y, ⟨ys, rfl, href, hy⟩, hstruck⟩⟩
    | ok a =>
        obtain ⟨hwent', hstruck'⟩ := hS a y c₁ hstruck hy
        refine ⟨ys ++ [y], ?_, Or.inr ⟨y, ⟨ys, rfl, href, hy⟩, hstruck'⟩⟩
        simpa using hwent.trans hwent'

theorem Follows.tracks {p : ProofM α} (h : Follows p) : Tracks p S :=
  h.mono fun _ _ _ h => h.elim

theorem Follows.bind {p : ProofM α} {f : α → ProofM β} (hp : Follows p)
    (hf : ∀ a, Tracks (f a) S') : Tracks (p >>= f) S' :=
  Tracks.bind hp hf fun _ _ _ h => h.elim

theorem follows_pure (a : α) : Follows (pure a) :=
  fun c _ hcd => ⟨[], .refl c, Or.inl ⟨by simp, rfl, hcd⟩⟩

/-- An operation that asks nothing, and that does the same whatever the records of the state are. -/
theorem follows_change {f : Context → Except Failure (α × Context)}
    (h : ∀ c e, (∃ x, f c = .error x ∧ f (c.retold e) = .error x) ∨
      ∃ a c' e', f c = .ok (a, c') ∧ f (c.retold e) = .ok (a, c'.retold e') ∧ c.Went c' [] ∧
        e'.session.replies = e.session.replies) : Follows (change f) := by
  intro c d hcd
  obtain ⟨e, rfl⟩ := hcd.same
  rw [outcome_change, outcome_change]
  rcases h c e with ⟨x, hc, hd⟩ | ⟨a, c', e', hc, hd, hwent, hreplies⟩
  · rw [hc, hd]
    exact ⟨[], .refl c, Or.inl ⟨by simp, rfl, hcd⟩⟩
  · rw [hc, hd]
    exact ⟨[], hwent, Or.inl ⟨by simp, rfl, hcd.of_replied hwent.replied hreplies⟩⟩

/-- A change of the state asks nothing, and is the same whatever the records of the state are. -/
def Blind (f : Context → Except Failure Context) : Prop :=
  ∀ c e, (∃ x, f c = .error x ∧ f (c.retold e) = .error x) ∨
    ∃ c' e', f c = .ok c' ∧ f (c.retold e) = .ok (c'.retold e') ∧ c.Went c' [] ∧
      e'.session.replies = e.session.replies

theorem Blind.follows {f : Context → Except Failure Context} (h : Blind f) :
    Follows (change fun c => (f c).map ((), ·)) := by
  refine follows_change fun c e => ?_
  rcases h c e with ⟨x, hc, hd⟩ | ⟨c', e', hc, hd, hwent⟩
  · exact Or.inl ⟨x, by rw [hc]; rfl, by rw [hd]; rfl⟩
  · exact Or.inr ⟨(), c', e', by rw [hc]; rfl, by rw [hd]; rfl, hwent⟩

theorem follows_require (r : Except Failure α) : Follows (require r) := by
  refine follows_change fun c e => ?_
  cases r with
  | error x => exact Or.inl ⟨x, rfl, rfl⟩
  | ok a => exact Or.inr ⟨a, c, e, rfl, rfl, .refl c, rfl⟩

theorem follows_fail (x : Failure) : Follows (fail x : ProofM α) :=
  follows_require _

/-- What comes after a failure is not run. -/
theorem tracks_fail_bind {x : Failure} {f : α → ProofM β} : Tracks (fail x >>= f) S' := by
  intro c d hcd
  have hfail (c : Context) : outcome (fail x >>= f) c = (.error x, c) := by
    rw [outcome_bind, fail, require, outcome_change]
    rfl
  rw [hfail, hfail]
  exact ⟨[], .refl c, Or.inl ⟨by simp, rfl, hcd⟩⟩

/-- What is read off a state must not depend on its records. -/
theorem follows_look {f : Context → α} (h : ∀ c e, f (c.retold e) = f c) : Follows (look f) :=
  follows_change fun c e =>
    Or.inr ⟨f c, c, e, rfl, congrArg (fun a => Except.ok (a, c.retold e)) (h c e), .refl c, rfl⟩

/-- A part of a proof looks at the whole state, but not at its records. -/
theorem tracks_look_bind {p : Context → ProofM β} (hp : ∀ c, Tracks (p c) S')
    (hsame : ∀ c e, p (c.retold e) = p c) : Tracks (look id >>= p) S' := by
  intro c d hcd
  have hlook (c : Context) : outcome (look id >>= p) c = outcome (p c) c := by
    rw [outcome_bind, look, outcome_change]
    rfl
  have hd : p d = p c := by
    obtain ⟨e, rfl⟩ := hcd.same
    exact hsame c e
  rw [hlook, hlook, hd]
  exact hp c c d hcd

theorem follows_log (level : LogLevel) (source : LogSource) (message : String) :
    Follows (log level source message) :=
  follows_change fun c e => Or.inr ⟨(), _, (c.retold e).logged level source message, rfl, rfl,
    .of_eq rfl rfl rfl ⟨rfl, rfl⟩, rfl⟩

theorem follows_declare (stem : String) (kind : Kind) : Follows (declare stem kind) := by
  refine follows_change fun c e => Or.inr ⟨_, (c.declare stem kind).2, e, rfl, ?_, ?_, rfl⟩
  · cases hopened : c.opened <;>
      simp [Context.declare, Context.updateCurrent, Context.current, Context.retold, hopened]
  · have hnamed := Context.went_updateCurrent c
      (fun l => { l with symbols := l.symbols ++ [Context.freshName stem c.issued.length] })
      fun _ => rfl
    exact hnamed.trans (.of_eq rfl rfl rfl ⟨rfl, rfl⟩)

theorem blind_assume (a : Assertion) : Blind fun c => c.assume a := by
  intro c e
  unfold Context.assume
  generalize "assumption " ++ (if a.label.isEmpty then Term.display a.formula else a.label) = what
  have hsame : (c.retold e).refuseLeaks a.formula what = c.refuseLeaks a.formula what := rfl
  simp only [hsame]
  cases c.refuseLeaks a.formula what with
  | error x => exact Or.inl ⟨x, rfl, rfl⟩
  | ok u =>
      obtain ⟨e', he', hreplies⟩ := c.assertInside_retold e a
      refine Or.inr ⟨c.assertInside a, e', rfl, ?_, c.went_assertInside a, hreplies⟩
      exact congrArg Except.ok he'

theorem follows_assume (f : Formula) (label : String) : Follows (assume f label) :=
  (blind_assume _).follows

theorem follows_assumeHints (formulas : List Formula) (label : String) :
    Follows (assumeHints formulas label) := by
  induction formulas with
  | nil => exact follows_pure ()
  | cons f rest ih => exact Follows.bind (blind_assume _).follows fun _ => ih

theorem blind_assumeFact (f : Fact) : Blind fun c => c.assumeFact f := by
  intro c e
  unfold Context.assumeFact
  cases Context.formulaOf f with
  | error x => exact Or.inl ⟨x, rfl, rfl⟩
  | ok g =>
      rcases blind_assume { formula := g, label := f.name } c e with
        ⟨x, hc, hd⟩ | ⟨c', e', hc, hd, hwent, hreplies⟩
      · refine Or.inl ⟨x, ?_⟩
        simp only [Bind.bind, Except.bind, hc, hd, and_self]
      · have hregister := c'.went_updateCurrent (Layer.register · f) fun _ => rfl
        refine Or.inr ⟨c'.updateCurrent (Layer.register · f), e', ?_, ?_, hwent.trans hregister,
          hreplies⟩
        · simp only [Bind.bind, Except.bind, hc]
          rfl
        · simp only [Bind.bind, Except.bind, hd]
          exact congrArg Except.ok (Context.updateCurrent_retold _ _ _)

theorem follows_assumeFact (f : Fact) : Follows (assumeFact f) :=
  (blind_assumeFact f).follows

theorem blind_commit (f : Fact) : Blind fun c => c.commit f := by
  intro c e
  unfold Context.commit
  have hdepth : (c.retold e).depth = c.depth := rfl
  have hleaks : ∀ g what, (c.retold e).refuseLeaks g what = c.refuseLeaks g what := fun _ _ => rfl
  have hbase : (c.retold e).base = c.base := rfl
  have hcurrent : (c.retold e).current = c.current := rfl
  simp only [hdepth, hbase, hcurrent, hleaks]
  split
  · exact Or.inl ⟨_, rfl, rfl⟩
  split
  · exact Or.inl ⟨_, rfl, rfl⟩
  cases Context.formulaOf f with
  | error x => exact Or.inl ⟨x, rfl, rfl⟩
  | ok g =>
      simp only [Bind.bind, Except.bind, pure, Except.pure]
      cases c.refuseLeaks g ("fact '" ++ f.name ++ "'") with
      | error x => exact Or.inl ⟨x, rfl, rfl⟩
      | ok u =>
          let a : Assertion := { formula := g, label := f.name }
          let e' : Context := { e with session := (c.retold e).session.add a }
          refine Or.inr ⟨_, e'.logged .debug .context ("commit " ++ f.name), rfl, ?_, ?_, ?_⟩
          · unfold Session.add
            cases hframes : c.session.frames <;>
              simp [e', a, Context.retold, Context.logged, Session.add, Session.note, hframes]
          · exact .of_eq rfl (by simp [Context.logged]) (by simp [Context.logged])
              ⟨rfl, c.session.length_frames_add _⟩
          · exact Session.replies_add _ _

theorem follows_commit (f : Fact) : Follows (commit f) :=
  (blind_commit f).follows

theorem follows_conclude (f : Fact) : Follows (conclude f) := by
  refine Blind.follows fun c e => ?_
  by_cases hdepth : c.depth = 0
  · have hd : (c.retold e).depth = 0 := hdepth
    simpa only [Context.conclude, if_pos hdepth, if_pos hd] using blind_commit f c e
  · have hd : (c.retold e).depth ≠ 0 := hdepth
    simpa only [Context.conclude, if_neg hdepth, if_neg hd] using blind_assumeFact f c e

theorem follows_fact (name : String) : Follows (fact name) := by
  refine follows_change fun c e => ?_
  have hsame : (c.retold e).fact name = c.fact name := rfl
  rw [hsame]
  cases c.fact name with
  | error x => exact Or.inl ⟨x, rfl, rfl⟩
  | ok f => exact Or.inr ⟨f, c, e, rfl, rfl, .refl c, rfl⟩

/-! ### Queries -/

/-- A query that can be answered. -/
theorem went_checkRefuted {c : Context} {r : Reply} (hreply : c.session.reply = .ok r)
    (name rule claim : String) : ∃ (y : Exchange) (c' : Context),
      c.checkRefuted name rule claim = (.ok y.entry.verdict, c') ∧ c.Went c' [y] ∧
        y.entry.lemmaName = name ∧ y.entry.rule = rule ∧ y.answer = r.answer ∧
        c' = c.retold c' := by
  rw [Context.checkRefuted, Session.check, hreply]
  refine ⟨⟨c.obligation name rule claim (.ofAnswer r.answer) _, c.session.question, r.answer⟩, _,
    rfl, ⟨⟨rfl, ?_, List.forall_mem_singleton.2 rfl⟩, ⟨?_, ?_⟩, ⟨rfl, rfl⟩⟩, rfl, rfl, rfl, rfl⟩
  · simp [Context.logged, Session.answered, Session.asked, Session.note]
  · exact List.drop_one.symm
  · intro i hi
    obtain rfl : i = 0 := by simpa using hi
    refine ⟨r.millis, ?_⟩
    rw [List.getD_eq_getElem?_getD, ← List.head?_eq_getElem?, ← List.headD_eq_head?_getD]
    exact hreply

/-- A query that is not refuted is the last one, and its verdict is returned. -/
theorem tracks_checkRefuted (name rule claim : String) :
    Tracks (checkRefuted name rule claim) fun v y _ =>
      v = y.entry.verdict ∧ y.entry.lemmaName = name ∧ y.entry.rule = rule := by
  intro c d hcd
  have hreply : ∃ r, c.session.reply = .ok r := by
    unfold Session.reply
    cases hreplies : c.session.replies with
    | nil => exact ⟨.exhausted, rfl⟩
    | cons r rest => exact hcd.givable r (by rw [hreplies]; exact List.mem_cons_self)
  obtain ⟨r, hr⟩ := hreply
  have hr' : d.session.reply = .ok .exhausted := by
    rw [Session.reply, hcd.unscripted]
    rfl
  obtain ⟨y, c', hc, hwent, hname, hrule, -, hsame⟩ := went_checkRefuted hr name rule claim
  obtain ⟨y', d', hd, hwent', -, -, hanswer, hsame'⟩ := went_checkRefuted hr' name rule claim
  have houtcome (c : Context) :
      outcome (checkRefuted name rule claim) c = c.checkRefuted name rule claim := rfl
  rw [houtcome, houtcome, hc, hd]
  refine ⟨[y], hwent, ?_⟩
  by_cases hy : y.Refuted
  · refine Or.inl ⟨List.forall_mem_singleton.2 hy, ?_, ?_⟩
    · have hy' : y'.entry.verdict = .unsat := by
        rw [hwent'.heard.verdict y' List.mem_cons_self, hanswer]
        rfl
      exact congrArg Except.ok (Eq.trans hy hy'.symm)
    · obtain ⟨e, rfl⟩ := hcd.same
      have hretold : d' = c'.retold d' := by
        rw [hsame', hsame]
        rfl
      rw [hretold]
      exact hcd.of_replied hwent.replied hwent'.replied.left
  · exact Or.inr ⟨y, ⟨[], rfl, by simp, hy⟩, rfl, hname, hrule⟩

/-! ### Layers -/

theorem rests_closeInnermost {c c₁ : Context} {name : String} (h : (c.push name).2.Rests c₁) :
    c.Rests c₁.closeInnermost := by
  obtain ⟨hopened, hframes⟩ := h
  have hopened : c₁.opened.map Layer.serial = (c.openings + 1) :: c.opened.map Layer.serial :=
    hopened
  have hframes : c₁.session.frames.length = c.session.frames.length + 1 := hframes
  unfold Context.closeInnermost
  split
  · rename_i hnil
    simp [hnil] at hopened
  · rename_i l outer hcons
    rw [hcons] at hopened
    refine ⟨(List.cons.inj hopened).2, ?_⟩
    change c₁.session.frames.tail.length = c.session.frames.length
    rw [List.length_tail, hframes, Nat.add_sub_cancel]

/-- **A layer is closed in any case**: what is done in it leaves the layers as they were. -/
theorem outcome_scope_of_rests {name : String} {body : Layer → ProofM α} {c : Context}
    (h : (c.push name).2.Rests (outcome (body (c.push name).1) (c.push name).2).2) :
    outcome (scope name body) c =
      ((outcome (body (c.push name).1) (c.push name).2).1,
        (outcome (body (c.push name).1) (c.push name).2).2.closeInnermost) := by
  cases hbody : outcome (body (c.push name).1) (c.push name).2 with
  | mk r c₁ =>
      rw [hbody] at h
      have hopened : c₁.opened.map Layer.serial = (c.openings + 1) :: c.opened.map Layer.serial :=
        h.opened
      obtain ⟨l, outer, hcons⟩ : ∃ l outer, c₁.opened = l :: outer :=
        List.exists_cons_of_ne_nil fun hnil => by simp [hnil] at hopened
      have hserial : l.serial = c.openings + 1 := by
        rw [hcons] at hopened
        exact (List.cons.inj hopened).1
      cases r with
      | ok a => exact outcome_scope hbody (by simp [Context.stance, hcons, hserial])
      | error e =>
          -- the layer is the innermost one, so that nothing else is closed with it
          have hunwind : c₁.unwind (c.push name).1 = c₁.closeInnermost := by
            have hfound : c₁.opened.findIdx? (fun l => l.serial == (c.push name).1.serial) =
                some 0 := by
              rw [hcons, List.findIdx?_cons, if_pos]
              exact beq_iff_eq.2 hserial
            rw [Context.unwind, hfound]
            rfl
          have hpushed : outcome (push name : ProofM Layer) c =
              (.ok (c.push name).1, (c.push name).2) := by
            rw [push, outcome_change]
          rw [scope, outcome_bind, hpushed]
          simp only [outcome_bind, outcome_tryCatch, hbody, unwind, outcome_change, hunwind]
          rfl

theorem replied_closeInnermost (c : Context) : c.Replied c.closeInnermost [] := by
  refine .of_eq ?_
  unfold Context.closeInnermost
  split <;> rfl

theorem closed_abreast {c₁ d₁ : Context} (h : c₁.Abreast d₁) :
    c₁.closeInnermost.Abreast d₁.closeInnermost := by
  obtain ⟨e₁, rfl⟩ := h.same
  obtain ⟨e', he', hreplies⟩ := c₁.closeInnermost_retold e₁
  rw [he']
  exact h.of_replied (replied_closeInnermost c₁) hreplies

/-- **A part of a proof inside a layer** does what it does on its own. -/
theorem tracks_scope {name : String} {body : Layer → ProofM α}
    (hbody : ∀ layer, Tracks (body layer) S) :
    Tracks (scope name body) fun a y c => ∃ c', S a y c' ∧ c = c'.closeInnermost := by
  intro c d hcd
  have hpushed : (c.push name).2.Abreast (d.push name).2 := by
    obtain ⟨e, rfl⟩ := hcd.same
    have hquiet : c.Replied (c.push name).2 [] := .of_eq rfl
    have hreplies : ((c.retold e).push name).2.session.replies =
        (c.retold e).session.replies.drop ([] : List Exchange).length := rfl
    exact hcd.of_replied hquiet hreplies
  have hlayer : (d.push name).1 = (c.push name).1 := by
    obtain ⟨e, rfl⟩ := hcd.same
    rfl
  obtain ⟨xs, hwent, h⟩ := hbody (c.push name).1 _ _ hpushed
  -- what the body went through, and the layer opened before it and closed after it
  have hscope : c.Went (outcome (body (c.push name).1) (c.push name).2).2.closeInnermost xs := by
    have hheard := ((heard_push c name).trans hwent.heard).trans (heard_closeInnermost _)
    have hopening : c.Replied (c.push name).2 [] := .of_eq rfl
    have hreplied := (hopening.trans hwent.replied).trans (replied_closeInnermost _)
    rw [List.nil_append, List.append_nil] at hheard hreplied
    exact ⟨hheard, hreplied, rests_closeInnermost hwent.rests⟩
  rw [outcome_scope_of_rests hwent.rests]
  refine ⟨xs, hscope, ?_⟩
  rcases h with ⟨href, hr, habreast⟩ | ⟨y, hy, hstruck⟩
  · have hrests : (d.push name).2.Rests (outcome (body (c.push name).1) (d.push name).2).2 := by
      refine ⟨?_, ?_⟩
      · rw [habreast.opened, hpushed.opened, hwent.rests.opened]
      · rw [habreast.frames, hpushed.frames, hwent.rests.frames]
    rw [← hlayer] at hrests hr habreast ⊢
    rw [outcome_scope_of_rests hrests]
    exact Or.inl ⟨href, hr, closed_abreast habreast⟩
  · refine Or.inr ⟨y, hy, ?_⟩
    generalize outcome (body (c.push name).1) (c.push name).2 = r at hstruck ⊢
    obtain ⟨r, c₁⟩ := r
    cases r with
    | error e => exact hstruck
    | ok a => exact ⟨c₁, hstruck, rfl⟩

/-! ### Goals and claims -/

/-- A goal was judged: the latest verdict in its layer is that of the query, which is about it. -/
def Judged (g : Goal) (y : Exchange) (c : Context) : Prop :=
  c.outcome? g.layer = some y.entry.verdict ∧ y.entry.lemmaName = g.claim.name ∧
    y.entry.rule = g.rule

/-- **A goal is judged by its query**, whatever the verdict is. -/
theorem tracks_discharge (g : Goal) (hints : List Formula) :
    Tracks (discharge g hints >>= fun _ => pure ()) fun _ y c => Judged g y c := by
  unfold discharge
  simp only [bind_assoc]
  refine Follows.bind (follows_look fun _ _ => rfl) fun current => ?_
  split
  · -- the layer of the goal is not the innermost one
    simp only [bind_assoc]
    exact tracks_fail_bind
  simp only [bind_assoc, pure_bind]
  refine Follows.bind (follows_require _) fun body =>
    Follows.bind (follows_require _) fun fails => ?_
  refine Follows.bind (follows_assume _ _) fun _ =>
    Follows.bind (follows_assumeHints _ _) fun _ => ?_
  refine Follows.bind (follows_require _) fun claim => ?_
  refine Tracks.bind (tracks_checkRefuted _ _ _) (fun verdict => ?_) fun verdict y c h _ => ?_
  · refine Follows.bind (follows_change fun c e => ?_) fun _ => (follows_pure ()).tracks
    exact Or.inr ⟨(), c.setOutcome g.layer verdict, e, rfl, rfl, .of_eq rfl rfl rfl ⟨rfl, rfl⟩, rfl⟩
  · obtain ⟨rfl, hname, hrule⟩ := h
    refine ⟨.of_eq rfl rfl rfl ⟨rfl, rfl⟩, ?_, hname, hrule⟩
    simp [Context.setOutcome, Context.outcome?]

theorem follows_declares (vars : List Symbol) :
    Follows (vars.mapM fun s => declare s.name s.kind) := by
  induction vars with
  | nil => exact follows_pure []
  | cons s rest ih =>
      rw [List.mapM_cons]
      exact Follows.bind (follows_declare _ _) fun w => Follows.bind ih fun ws => follows_pure _

theorem follows_assumeGuard (claim : Fact) (ws : List Symbol) :
    Follows (assumeGuard claim ws) := by
  unfold assumeGuard
  split
  · exact follows_pure ()
  · exact Follows.bind (follows_require _) fun guard => follows_assume _ _

section Claims

variable {claim : Fact} {rule : String} {concluding : Bool}

/-- In its layer a claim is judged by its query. -/
theorem tracks_refutation {body : Goal → ProofM Unit}
    (hbody : ∀ g, Tracks (body g) fun _ y c => Judged g y c) (layer : Layer) :
    Tracks (refutation claim rule body layer) fun r y _ =>
      r.2 = y.entry.verdict ∧ y.entry.lemmaName = claim.name ∧ y.entry.rule = rule := by
  refine Follows.bind (follows_declares _) fun ws => Follows.bind (follows_assumeGuard claim ws)
    fun _ => Tracks.bind (hbody _) (fun _ => ?_) fun _ y c h _ => ?_
  · refine Follows.bind (follows_look fun _ _ => rfl) fun verdict => ?_
    split
    · exact (follows_fail _).tracks
    · exact (follows_pure _).tracks
  · obtain ⟨hverdict, hname, hrule⟩ := h
    have hverdict : c.outcome? layer = some y.entry.verdict := hverdict
    rw [outcome_bind, look, outcome_change]
    simp only [hverdict]
    exact ⟨.refl c, rfl, hname, hrule⟩

/-- A claim whose query was not refuted fails with it. -/
theorem outcome_judging {y : Exchange} (hy : ¬ y.Refuted) (hname : y.entry.lemmaName = claim.name)
    (layer : Layer) (c : Context) :
    outcome (judging claim y.entry.rule concluding (layer, y.entry.verdict)) c =
      (.error (y.failure layer.depth), c) := by
  have hrefuted : y.entry.verdict.refuted = false := by
    cases hverdict : y.entry.verdict with
    | unsat => exact absurd hverdict hy
    | sat | unknown => rfl
  unfold judging Exchange.failure
  simp only [hrefuted, hname]
  rfl

/-- **A claim is judged once its layer is closed**, and not concluded unless it was refuted. -/
theorem follows_proving {body : Goal → ProofM Unit}
    (hbody : ∀ g, Tracks (body g) fun _ y c => Judged g y c) :
    Follows (proving claim rule concluding body) := by
  rw [proving_eq]
  refine Tracks.bind (tracks_scope (tracks_refutation hbody)) (fun r => ?_) fun r y c h hy => ?_
  · obtain ⟨layer, verdict⟩ := r
    unfold judging
    simp only
    split
    · exact tracks_fail_bind
    · split
      · exact follows_conclude claim
      · exact follows_pure ()
  · obtain ⟨layer, verdict⟩ := r
    obtain ⟨_, ⟨rfl, hname, rfl⟩, -⟩ := h
    rw [outcome_judging hy hname]
    exact ⟨.refl c, layer.depth, rfl⟩

end Claims

/-- A part of a proof inside a layer that fails with a query that is not refuted. -/
theorem follows_scope {name : String} {body : Layer → ProofM α}
    (hbody : ∀ layer, Follows (body layer)) : Follows (scope name body) :=
  (tracks_scope hbody).mono fun _ _ _ ⟨_, h, _⟩ => h

/-- **Stopping at the first query that is not refuted is closed**, since goals are judged by their
queries. -/
theorem closed_follows : Closed Follows fun g p => Tracks p fun _ y c => Judged g y c where
  pure := follows_pure
  bind hp hf := Follows.bind hp hf
  require := follows_require
  layer := follows_look fun _ _ => rfl
  fact := follows_fact
  declare := follows_declare
  assume := follows_assume
  assumeFact := follows_assumeFact
  conclude := follows_conclude
  scope := follows_scope
  prepare hp hf := Follows.bind hp hf
  discharge := tracks_discharge
  proving := follows_proving

end Rules

end Proof

end CandyCircle
