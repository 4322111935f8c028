/-
**Sessions with a solver.**

A session holds a stack of frames of assertions and asks whether the assertions in all of them have
a model.  The solver itself is not part of it: its replies are given in advance, each with the time
that it takes, and a question for which none is left is answered `UNSAT` at once.  A reply whose
time is no time at all is used up by a question that then fails.

Main definitions:

* `CandyCircle.Reply`, `CandyCircle.Reply.ofData` — a reply of the solver, and the reply that data
  stands for;
* `CandyCircle.Assertion`, `CandyCircle.Question` — what is asserted, and what is asked;
* `CandyCircle.Question.cut` — a question without its hints and without most of the base;
* `CandyCircle.Event` — what is said to the solver;
* `CandyCircle.Session` — frames, replies that are left, clock and history;
* `CandyCircle.Session.push`, `CandyCircle.Session.pop`, `CandyCircle.Session.add`,
  `CandyCircle.Session.check` — the operations;
* `CandyCircle.Session.question`, `CandyCircle.Session.active` — the assertions in all frames;
* `CandyCircle.Session.asked` — the questions so far, each with its answer.

Main results:

* `CandyCircle.Session.active_push`, `CandyCircle.Session.active_add`,
  `CandyCircle.Session.active_check` — what the operations do to the active assertions;
* `CandyCircle.Session.pop_push_frames` — closing a frame undoes opening it.
-/
import CandyCircle.Data.Number
import CandyCircle.Logic.Structure

set_option autoImplicit false

namespace CandyCircle

open Logic

/-- A reply of the solver: an answer, and the milliseconds that it takes. -/
structure Reply where
  answer : String
  /-- How long it takes; without it no time passes. -/
  millis : Option Float

/-- A reply as it is given in advance: one whose time is no time cannot be given. -/
abbrev Prepared := Except KindFault Reply

/-- The milliseconds that data stands for, if it says anything. -/
def Reply.millisOf (ms : Data) : Except KindFault (Option Float) :=
  match ms, Number.ofData? ms with
  | .null, _ => .ok none
  | _, some x => x.toFloat.map some
  | d, none => .error (.operands "/" d.kindName (Data.kindName (.float 0.0)))

/-- The reply that data stands for: an answer, or an answer with the milliseconds that it takes. -/
def Reply.ofData : Data → Prepared
  | .list [answer, ms] => (millisOf ms).map fun ms => ⟨answer.toString, ms⟩
  | answer => .ok ⟨answer.toString, none⟩

/-- The reply when none is left. -/
def Reply.exhausted : Reply :=
  ⟨"UNSAT", none⟩

/-! ### Assertions and questions -/

/-- A formula that is asserted, and what it is known as. -/
structure Assertion where
  formula : Formula
  /-- What it is known as. -/
  label : String
  /-- Whether it only points the solver at an instance of something else. -/
  hint : Bool := false

/-- What the solver is asked: whether assertions have a model together. -/
structure Question where
  /-- The assertions of the base frame. -/
  base : List Assertion
  /-- The assertions of the other frames. -/
  inner : List Assertion

namespace Question

/-- The formulas of a question, in the order in which they were asserted. -/
def formulas (q : Question) : List Formula :=
  (q.base ++ q.inner).map Assertion.formula

/-- A question without its hints, and with only those assertions of the base frame that are known
by given names. -/
def cut (names : List String) (q : Question) : Question :=
  { base := q.base.filter fun a => names.contains a.label
    inner := q.inner.filter fun a => !a.hint }

end Question

/-! ### Events -/

/-- What is said to the solver. -/
inductive Event where
  /-- The time for one question is limited. -/
  | setTimeout (limit : Data)
  /-- A frame is opened. -/
  | push
  /-- The innermost frame is closed. -/
  | pop
  /-- A formula is asserted in the innermost frame. -/
  | add (assertion : Assertion)
  /-- It is asked whether the active assertions have a model. -/
  | check (question : Question) (answer : String)

/-- An event on one line. -/
def Event.display : Event → String
  | setTimeout limit => "set timeout " ++ limit.toString
  | push => "push"
  | pop => "pop"
  | add assertion => "add " ++ Term.sexpr assertion.formula
  | check _ answer => "check " ++ answer

/-- The state of a session. -/
structure Session where
  /-- The assertions of the base frame. -/
  base : List Assertion
  /-- The assertions of the other frames, the innermost frame first. -/
  frames : List (List Assertion)
  /-- The replies that are left. -/
  replies : List Prepared
  /-- The time. -/
  clock : Float
  history : List Event

namespace Session

/-- A session in which nothing is asserted. -/
def start (timeout : Data) (replies : List Prepared) : Session :=
  { base := [], frames := [], replies, clock := 0.0, history := [.setTimeout timeout] }

/-- The session with one event more in its history. -/
def note (s : Session) (e : Event) : Session :=
  { s with history := s.history ++ [e] }

/-- Opens a frame. -/
def push (s : Session) : Session :=
  { s.note .push with frames := [] :: s.frames }

/-- Closes the innermost frame. -/
def pop (s : Session) : Session :=
  { s.note .pop with frames := s.frames.tail }

/-- Asserts a formula in the innermost frame. -/
def add (s : Session) (a : Assertion) : Session :=
  match s.frames with
  | [] => { s.note (.add a) with base := s.base ++ [a] }
  | frame :: outer => { s.note (.add a) with frames := (frame ++ [a]) :: outer }

/-- The question whether the assertions in all frames have a model. -/
def question (s : Session) : Question :=
  ⟨s.base, s.frames.reverse.flatten⟩

/-- The formulas in all frames, in the order in which they were asserted. -/
def active (s : Session) : List Formula :=
  s.question.formulas

/-- The next reply. -/
def reply (s : Session) : Prepared :=
  s.replies.headD (.ok .exhausted)

/-- The session after a reply. -/
def answered (s : Session) (r : Reply) : Session :=
  { s.note (.check s.question r.answer) with
    replies := s.replies.tail
    clock := match r.millis with
      | some ms => s.clock + ms / 1000.0
      | none => s.clock }

/-- Asks whether the active assertions have a model; the answer comes with the milliseconds that
passed. -/
def check (s : Session) : Except KindFault (String × Float) × Session :=
  match s.reply with
  | .ok r => (.ok (r.answer, ((s.answered r).clock - s.clock) * 1000.0), s.answered r)
  | .error fault => (.error fault, { s with replies := s.replies.tail })

/-- The questions so far, each with its answer. -/
def asked (s : Session) : List (Question × String) :=
  s.history.filterMap fun
    | .check question answer => some (question, answer)
    | _ => none

/-! ### Active assertions -/

@[simp] theorem active_note (s : Session) (e : Event) : (s.note e).active = s.active := rfl

/-- Opening a frame asserts nothing. -/
@[simp] theorem active_push (s : Session) : s.push.active = s.active := by
  simp [push, active, question, note]

/-- An assertion comes after the active ones. -/
@[simp] theorem active_add (s : Session) (a : Assertion) :
    (s.add a).active = s.active ++ [a.formula] := by
  unfold add
  split <;> simp_all [active, question, Question.formulas, note]

/-- A question asserts nothing. -/
@[simp] theorem active_check (s : Session) : s.check.2.active = s.active := by
  unfold check
  split <;> rfl

/-- Closing a frame undoes opening it. -/
@[simp] theorem pop_push_frames (s : Session) : s.push.pop.frames = s.frames := rfl

end Session

end CandyCircle
