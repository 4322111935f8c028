/-
**What matters of a state.**

What a proof does to the state of a run is determined by little of that state: the facts and
assertions of the base, the assertions of the open layers, and how many constants were declared.
Between two states queries may have been asked, each of them entered into the ledger with the
verdict that its answer stands for.

Main definitions:

* `CandyCircle.Proof.outcome` — what a proof returns, and the state after it;
* `CandyCircle.Query`, `CandyCircle.Exchange` — a query by the name of its claim, and a query with
  its entry in the ledger and its answer;
* `CandyCircle.Context.Heard` — exactly these exchanges took place between two states;
* `CandyCircle.Context.Honest` — the solver found no model only where there is none;
* `CandyCircle.View`, `CandyCircle.Context.Shows` — what matters of a state.

Main results:

* `CandyCircle.Proof.outcome_bind` — what a proof followed by another one does;
* `CandyCircle.Context.Heard.asked_of_start` — what a run has asked since the start.
-/
import CandyCircle.Proofs.Fact
import CandyCircle.Refutation.Proof

set_option autoImplicit false

namespace CandyCircle

open Logic

/-! ### Outcomes -/

namespace Proof

variable {α β : Type}

/-- What a proof returns, and the state after it. -/
def outcome (p : ProofM α) (c : Context) : Except Failure α × Context :=
  Id.run (StateT.run (ExceptT.run p) c)

@[simp] theorem outcome_pure (a : α) (c : Context) : outcome (pure a) c = (.ok a, c) := rfl

theorem outcome_bind (p : ProofM α) (f : α → ProofM β) (c : Context) :
    outcome (p >>= f) c =
      match outcome p c with
      | (.ok a, c') => outcome (f a) c'
      | (.error e, c') => (.error e, c') := by
  unfold outcome ExceptT.run StateT.run Id.run
  simp only [Bind.bind, ExceptT.bind, ExceptT.mk, StateT.bind, ExceptT.bindCont]
  cases p c with
  | mk r c' => cases r <;> rfl

theorem outcome_tryCatch (p : ProofM α) (handler : Failure → ProofM α) (c : Context) :
    outcome (ExceptT.tryCatch p handler) c =
      match outcome p c with
      | (.ok a, c') => (.ok a, c')
      | (.error e, c') => outcome (handler e) c' := by
  unfold outcome ExceptT.run StateT.run Id.run
  simp only [ExceptT.tryCatch, ExceptT.mk, Bind.bind, StateT.bind]
  cases p c with
  | mk r c' => cases r <;> rfl

theorem outcome_change (f : Context → Except Failure (α × Context)) (c : Context) :
    outcome (change f) c =
      match f c with
      | .ok (a, c') => (.ok a, c')
      | .error e => (.error e, c) := by
  unfold outcome change ExceptT.run StateT.run Id.run
  simp only [ExceptT.mk]
  cases f c <;> rfl

end Proof

/-! ### What operations leave alone -/

namespace Session

variable (s : Session)

@[simp] theorem asked_push : s.push.asked = s.asked := by
  simp [push, asked, note]

@[simp] theorem asked_pop : s.pop.asked = s.asked := by
  simp [pop, asked, note]

@[simp] theorem asked_add (a : Assertion) : (s.add a).asked = s.asked := by
  unfold add
  split <;> simp [asked, note]

theorem base_add {a : Assertion} (h : s.frames ≠ []) : (s.add a).base = s.base := by
  unfold add
  split
  · contradiction
  · rfl

end Session

namespace Context

section UpdateCurrent

variable (c : Context) (f : Layer → Layer)

@[simp] theorem session_updateCurrent : (c.updateCurrent f).session = c.session := by
  unfold updateCurrent
  split <;> rfl

@[simp] theorem ledger_updateCurrent : (c.updateCurrent f).ledger = c.ledger := by
  unfold updateCurrent
  split <;> rfl

@[simp] theorem committed_updateCurrent : (c.updateCurrent f).committed = c.committed := by
  unfold updateCurrent
  split <;> rfl

@[simp] theorem issued_updateCurrent : (c.updateCurrent f).issued = c.issued := by
  unfold updateCurrent
  split <;> rfl

@[simp] theorem length_opened_updateCurrent :
    (c.updateCurrent f).opened.length = c.opened.length := by
  unfold updateCurrent
  split <;> simp_all

/-- A change of the innermost layer that registers nothing keeps the facts of the base. -/
theorem facts_updateCurrent (h : ∀ l, (f l).facts = l.facts) :
    (c.updateCurrent f).base.facts = c.base.facts := by
  unfold updateCurrent
  split
  · exact h c.base
  · rfl

/-- A change of the innermost layer keeps the base while a layer is open. -/
theorem base_updateCurrent (h : c.opened ≠ []) : (c.updateCurrent f).base = c.base := by
  unfold updateCurrent
  split
  · contradiction
  · rfl

end UpdateCurrent

end Context

/-! ### Queries and exchanges -/

/-- A query: the name of its claim, and what is asked. -/
abbrev Query := String × Question

/-- A query that was asked: its entry in the ledger, the question and the answer. -/
structure Exchange where
  /-- The entry in the ledger. -/
  entry : Obligation
  question : Question
  answer : String

namespace Exchange

/-- The query of an exchange. -/
def query (x : Exchange) : Query :=
  (x.entry.lemmaName, x.question)

/-- The query was refuted. -/
def Refuted (x : Exchange) : Prop :=
  x.entry.verdict = .unsat

end Exchange

namespace Context

/-- Between two states exactly the given exchanges took place. -/
structure Heard (c c' : Context) (xs : List Exchange) : Prop where
  /-- They are what was entered into the ledger. -/
  entries : c'.ledger.entries = c.ledger.entries ++ xs.map Exchange.entry
  /-- They are what the solver was asked. -/
  asked : c'.session.asked = c.session.asked ++ xs.map fun x => (x.question, x.answer)
  /-- The verdicts are those that the answers stand for. -/
  verdict : ∀ x ∈ xs, x.entry.verdict = Verdict.ofAnswer x.answer

/-- The solver found no model only where there is none. -/
def Honest (c : Context) : Prop :=
  ∀ p ∈ c.session.asked, Verdict.ofAnswer p.2 = .unsat → Unsatisfiable p.1.formulas

/-- Two states have the same base. -/
structure SameBase (c c' : Context) : Prop where
  /-- They have the same facts. -/
  facts : c'.base.facts = c.base.facts
  /-- They have committed the same facts. -/
  committed : c'.committed = c.committed
  /-- They have the same assertions. -/
  asserted : c'.session.base = c.session.base

theorem Heard.refl (c : Context) : c.Heard c [] :=
  ⟨by simp, by simp, by simp⟩

/-- Nothing was asked if neither the ledger nor the questions changed. -/
theorem Heard.of_eq {c c' : Context} (hledger : c'.ledger = c.ledger)
    (hasked : c'.session.asked = c.session.asked) : c.Heard c' [] :=
  ⟨by simp [hledger], by simp [hasked], by simp⟩

theorem Heard.trans {c c' c'' : Context} {xs ys : List Exchange} (h : c.Heard c' xs)
    (h' : c'.Heard c'' ys) : c.Heard c'' (xs ++ ys) where
  entries := by rw [h'.entries, h.entries, List.map_append, List.append_assoc]
  asked := by rw [h'.asked, h.asked, List.map_append, List.append_assoc]
  verdict := by
    intro x hx
    rcases List.mem_append.1 hx with hx | hx
    · exact h.verdict x hx
    · exact h'.verdict x hx

/-- A query that was refuted since has no model if the solver is honest. -/
theorem Heard.unsatisfiable {c c' : Context} {xs : List Exchange} (h : c.Heard c' xs)
    (hhonest : c'.Honest) {x : Exchange} (hx : x ∈ xs) (href : x.Refuted) :
    Unsatisfiable x.question.formulas := by
  refine hhonest (x.question, x.answer) ?_ ((h.verdict x hx).symm.trans href)
  rw [h.asked]
  exact List.mem_append_right _ (List.mem_map.2 ⟨x, hx, rfl⟩)

/-- If all queries since were refuted, none of them has a model. -/
theorem Heard.unsatisfiable_queries {c c' : Context} {xs : List Exchange} (h : c.Heard c' xs)
    (hhonest : c'.Honest) (href : ∀ x ∈ xs, x.Refuted) :
    ∀ q ∈ xs.map Exchange.query, Unsatisfiable q.2.formulas :=
  List.forall_mem_map.2 fun x hx => h.unsatisfiable hhonest hx (href x hx)

section Start

variable {options : Settings.Options} {replies : List Prepared} {c : Context} {xs : List Exchange}

/-- Since the start nothing but the exchanges was entered into the ledger. -/
theorem Heard.entries_of_start (h : (start options replies).Heard c xs) :
    c.ledger.entries = xs.map Exchange.entry :=
  h.entries

/-- Since the start the solver was asked nothing but the exchanges. -/
theorem Heard.asked_of_start (h : (start options replies).Heard c xs) :
    c.session.asked = xs.map fun x => (x.question, x.answer) :=
  h.asked

end Start

theorem SameBase.refl (c : Context) : c.SameBase c :=
  ⟨rfl, rfl, rfl⟩

theorem SameBase.trans {c c' c'' : Context} (h : c.SameBase c') (h' : c'.SameBase c'') :
    c.SameBase c'' :=
  ⟨h'.facts.trans h.facts, h'.committed.trans h.committed, h'.asserted.trans h.asserted⟩

end Context

/-! ### Views -/

/-- What of the state of a proof run matters to what is asked and concluded. -/
structure View where
  /-- The facts of the base. -/
  facts : List (String × Fact)
  /-- The names of the committed facts. -/
  committed : List String
  base : List Assertion
  /-- The assertions of the open layers, the innermost first. -/
  frames : List (List Assertion)
  /-- How many constants were declared. -/
  issued : Nat

/-- A state shows a view. -/
structure Context.Shows (c : Context) (V : View) : Prop where
  facts : c.base.facts = V.facts
  committed : c.committed = V.committed
  /-- It has the assertions of the base. -/
  base : c.session.base = V.base
  /-- It has the assertions of the open layers. -/
  frames : c.session.frames = V.frames
  /-- As many layers are open as there are frames. -/
  depth : c.opened.length = V.frames.length
  /-- So many constants were declared. -/
  issued : c.issued.length = V.issued

/-- The assertion that a fact is made by. -/
def Fact.assertion (f : Fact) : Assertion :=
  { formula := f.formula, label := f.name }

namespace View

/-- The view with one layer more. -/
def push (V : View) : View :=
  { V with frames := [] :: V.frames }

/-- The view without its innermost layer. -/
def pop (V : View) : View :=
  { V with frames := V.frames.tail }

/-- The view with assertions made in the innermost layer. -/
def add (V : View) (as : List Assertion) : View :=
  match V.frames with
  | [] => V
  | top :: outer => { V with frames := (top ++ as) :: outer }

/-- The view with some constants more. -/
def declare (V : View) (n : Nat) : View :=
  { V with issued := V.issued + n }

/-- The view with a fact committed. -/
def commit (V : View) (f : Fact) : View :=
  { V with
    facts := V.facts ++ [(f.name, f)]
    committed := V.committed ++ [f.name]
    base := V.base ++ [f.assertion] }

/-- The view with a fact concluded: committed if no layer is open, and assumed otherwise. -/
def conclude (V : View) (f : Fact) : View :=
  match V.frames with
  | [] => V.commit f
  | _ :: _ => V.add [f.assertion]

/-- The fact of a name. -/
def find? (V : View) (name : String) : Option Fact :=
  (V.facts.find? fun entry => entry.1 == name).map Prod.snd

/-- The question whether all assertions have a model together with some more. -/
def question (V : View) (as : List Assertion) : Question :=
  ⟨V.base, V.frames.reverse.flatten ++ as⟩

/-- Two views have the same base. -/
def SameBase (V V' : View) : Prop :=
  V'.facts = V.facts ∧ V'.committed = V.committed ∧ V'.base = V.base

theorem SameBase.refl (V : View) : V.SameBase V := ⟨rfl, rfl, rfl⟩

end View

/-- States that show views of the same base have the same base. -/
theorem Context.Shows.sameBase {c c' : Context} {V V' : View} (h : c.Shows V) (h' : c'.Shows V')
    (hV : V.SameBase V') : c.SameBase c' where
  facts := by rw [h.facts, h'.facts, hV.1]
  committed := by rw [h.committed, h'.committed, hV.2.1]
  asserted := by rw [h.base, h'.base, hV.2.2]

end CandyCircle
