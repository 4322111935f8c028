/-
**The candy process.**

Children sit in a circle and hold candies.  In one step every child passes half of its candies to
the left, so that it ends up with half of its own and half of its right neighbour's, and a child
that would hold an odd number is given one candy more.

Main definitions:

* `CandyCircle.Dynamics.nextValue` — what a child holds after a step;
* `CandyCircle.Dynamics.nextBy`, `CandyCircle.Dynamics.afterBy` — the counts after one step and
  after several by any rule, child 1 first;
* `CandyCircle.Dynamics.next`, `CandyCircle.Dynamics.after` — the same by the rule of the process;
* `CandyCircle.Dynamics.isUniform` — every child holds the same;
* `CandyCircle.Dynamics.runFor` — the states up to the first uniform one, within a number of steps;
* `CandyCircle.Dynamics.histogram` — how many children hold each count;
* `CandyCircle.Dynamics.leavesClause` — fewer children hold a count that some child leaves and none
  enters.

Main results:

* `CandyCircle.Dynamics.length_next` — a step keeps the number of children;
* `CandyCircle.Dynamics.nextValue_even` — what a child holds after a step is even.
-/

set_option autoImplicit false

namespace CandyCircle.Dynamics

/-! ### One step -/

/-- The even number that a half is topped up to. -/
def topUp (half : Int) : Int :=
  if half % 2 = 0 then half else half + 1

/-- What a child holds after a step, from its own candies and its right neighbour's. -/
def nextValue (own neighbour : Int) : Int :=
  topUp ((own + neighbour) / 2)

/-- What a child holds after a step is even. -/
theorem nextValue_even (own neighbour : Int) : nextValue own neighbour % 2 = 0 := by
  unfold nextValue topUp
  split <;> omega

/-- The counts of the right neighbours: those of child 2, child 3 and so on, and child 1 last. -/
def rightNeighbours : List Int → List Int
  | [] => []
  | first :: others => others ++ [first]

@[simp] theorem length_rightNeighbours (counts : List Int) :
    (rightNeighbours counts).length = counts.length := by
  cases counts <;> simp [rightNeighbours]

/-- The counts after a step by a rule, which says what a child holds next from what it and its right
neighbour hold. -/
def nextBy (rule : Int → Int → Int) (counts : List Int) : List Int :=
  List.zipWith rule counts (rightNeighbours counts)

/-- A step keeps the number of children. -/
@[simp] theorem length_nextBy (rule : Int → Int → Int) (counts : List Int) :
    (nextBy rule counts).length = counts.length := by
  simp [nextBy]

/-- The counts after a number of steps by a rule. -/
def afterBy (rule : Int → Int → Int) (counts : List Int) : Nat → List Int
  | 0 => counts
  | k + 1 => nextBy rule (afterBy rule counts k)

/-- The counts after a step. -/
def next (counts : List Int) : List Int :=
  nextBy nextValue counts

/-- A step keeps the number of children. -/
@[simp] theorem length_next (counts : List Int) : (next counts).length = counts.length :=
  length_nextBy nextValue counts

/-- The counts after a number of steps. -/
def after (counts : List Int) (k : Nat) : List Int :=
  afterBy nextValue counts k

/-! ### Runs -/

/-- The least count and the greatest count are the same. -/
def isUniform (counts : List Int) : Bool :=
  counts.min? == counts.max?

/-- The states from the given one to the first uniform one; `none` if that takes more than the
given number of steps. -/
def runFor : Nat → List Int → Option (List (List Int))
  | fuel, state =>
      if isUniform state then some [state]
      else
        match fuel with
        | 0 => none
        | fuel + 1 => (runFor fuel (next state)).map (state :: ·)

/-! ### Histograms -/

/-- The number of children that hold a count. -/
def holders (counts : List Int) (value : Int) : Nat :=
  counts.count value

/-- The counts that occur, in ascending order, each with the number of children that hold it. -/
def histogram (counts : List Int) : List (Int × Nat) :=
  (counts.eraseDups.mergeSort (· ≤ ·)).map fun value => (value, holders counts value)

/-- Whether some child leaves a count. -/
def someLeaves (before after : List Int) (value : Int) : Bool :=
  (before.zip after).any fun p => p.1 == value && p.2 != value

/-- Whether some child enters a count. -/
def someEnters (before after : List Int) (value : Int) : Bool :=
  (before.zip after).any fun p => p.1 != value && p.2 == value

/-- If some child leaves a count and none enters it, fewer children hold it afterwards. -/
def leavesClause (before after : List Int) (value : Int) : Bool :=
  !someLeaves before after value || someEnters before after value ||
    decide (holders after value < holders before value)

end CandyCircle.Dynamics
