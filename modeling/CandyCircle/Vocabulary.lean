/-
**The vocabulary of the process.**

The symbolic account of the process: a parameter `N` for the number of children, `m(i, k)` for what
child `i` holds at step `k`, its right neighbour, a child that holds the most and one that holds the
least at a step, and the number of children that hold a count.  The vocabulary supplies builders for
derived quantities and the axioms that fix the meaning of the symbols.

There is no axiom about all transitions; a proof assumes the dynamics of the one step that it
reasons about.  Facts about a step and its successor quantify over both.  The number of children
that hold a count has no defining equation: it is not negative, and it decreases at a count that
some child leaves and none enters.

Main definitions:

* `CandyCircle.Rule`, `CandyCircle.Vocabulary` — rules of a process; the size of the circle, if it
  is fixed, and the rule of the process;
* `CandyCircle.Vocabulary.isChild`, `CandyCircle.Vocabulary.max2`, `CandyCircle.Vocabulary.min2`,
  `CandyCircle.Vocabulary.variant`, `CandyCircle.Vocabulary.converged` — derived notions;
* `CandyCircle.Vocabulary.axioms` — the base facts;
* `CandyCircle.Vocabulary.transition`, `CandyCircle.Vocabulary.initialCounts` — the dynamics of a
  step, and a concrete start.
-/
import CandyCircle.Failure

set_option autoImplicit false

namespace CandyCircle

open Logic

/-- A number of children: at least one. -/
abbrev CircleSize := { n : Nat // 0 < n }

/-- The rule of a process: what a child holds next, from what it and its right neighbour hold.  A
rule may fail to build a term. -/
abbrev Rule := AnyTerm → AnyTerm → Except Failure AnyTerm

/-- Half of both, topped up to an even number. -/
def halfToppedUp (own neighbour : IntTerm) : IntTerm :=
  let half : IntTerm := .arith .div (own.plus neighbour) (.num 2)
  .ite .int (.eq .int (.arith .mod half (.num 2)) (.num 0)) half (Term.succ half)

/-- The rule that every child comes to hold half of both, topped up to an even number. -/
def candyRule : Rule := fun own neighbour =>
  .ok (.int (halfToppedUp own.toInt neighbour.toInt))

/-- The size of the circle, if it is fixed, and the rule of the process. -/
structure Vocabulary where
  /-- What fixes the number of children, if anything does. -/
  children : Option Formula
  /-- The rule of the process. -/
  nextValue : Rule

namespace Vocabulary

/-- The vocabulary for circles of all sizes. -/
def standard : Vocabulary :=
  ⟨none, candyRule⟩

/-- The size that a number of children stands for, if it is positive. -/
def circleSize? (n : Int) : Option CircleSize :=
  if h : 0 < n then some ⟨n.toNat, by omega⟩ else none

/-! ### Symbols -/

/-- The number of children. -/
def N : IntTerm :=
  Term.int "N"

/-- What child `i` holds at step `k`. -/
def m (i k : IntTerm) : IntTerm :=
  Term.apply .int "m" [i, k]

/-- The right neighbour of a child. -/
def right (i : IntTerm) : IntTerm :=
  Term.apply .int "right" [i]

/-- A child that holds the most at a step. -/
def maxChild (k : IntTerm) : IntTerm :=
  Term.apply .int "max_child" [k]

/-- A child that holds the least at a step. -/
def minChild (k : IntTerm) : IntTerm :=
  Term.apply .int "min_child" [k]

/-- The number of children that hold a count at a step. -/
def num (n k : IntTerm) : IntTerm :=
  Term.apply .int "num" [n, k]

/-! ### Derived notions -/

/-- There are so many children. -/
def hasChildren (n : CircleSize) : Formula :=
  .eq .int N (.num n.val)

/-- A number is a child's. -/
def isChild (i : IntTerm) : Formula :=
  .all [.atLeast i 1, .order .le i N]

/-- A number is not negative. -/
def isNat (k : IntTerm) : Formula :=
  .atLeast k 0

/-- The greatest count at a step. -/
def max2 (k : IntTerm) : IntTerm :=
  m (maxChild k) k

/-- The least count at a step. -/
def min2 (k : IntTerm) : IntTerm :=
  m (minChild k) k

/-- What a child holds at a step is even and not negative. -/
def stateOk (i k : IntTerm) : Formula :=
  .all [.atLeast (m i k) 0, .eq .int (.arith .mod (m i k) (.num 2)) (.num 0)]

/-- The loop variants: the distance from the least to the greatest count, and the number of
children that hold the least. -/
def variant (k : IntTerm) : IntTerm × IntTerm :=
  ((max2 k).minus (min2 k), num (min2 k) k)

/-- The least and the greatest count are the same. -/
def converged (k : IntTerm) : Formula :=
  .eq .int (min2 k) (max2 k)

/-- A step is the successor of another. -/
def isSuccessor (k2 k : IntTerm) : Formula :=
  .eq .int k2 (Term.succ k)

/-- Every child that does not hold `n` at step `k` does not hold it at step `k2`. -/
def noEntryFact (n k k2 : IntTerm) (name : String) : Fact :=
  let j := Term.int "j"
  .about name ["j"] (.all [isChild j, .differ (m j k) n]) (.differ (m j k2) n)
    (some (.ofInts (m j k2) []))

/-- No child enters the count `n` between steps `k` and `k2`. -/
def noEntry (n k k2 : IntTerm) : Formula :=
  (noEntryFact n k k2 "no-entry").formula

/-- The process ever converges. -/
def eventuallyConverged : Formula :=
  let t := Term.int "t"
  .thereIs [.int "t"] (.all [isNat t, converged t]) [.int (minChild t)]

/-- What child `i` holds after a step follows the rule. -/
def trans (v : Vocabulary) (i : IntTerm) (step : Step) : Except Failure Formula := do
  let held (j : IntTerm) : AnyTerm := .int (m j step.k.toInt)
  let next ← v.nextValue (held i) (held (right i))
  return .equate (m i step.next.toInt) next.toInt

/-! ### Axioms -/

/-- There is a child. -/
def childrenExist : Fact :=
  .plain "children-exist" (.atLeast N 1)

/-- What fixes the number of children. -/
def childrenCount (fixed : Formula) : Fact :=
  .plain "children-count" fixed

/-- The right neighbour of the last child is the first one. -/
def rightNeighbor : Fact :=
  let i := Term.int "i"
  .about "right-neighbor" ["i"] (isChild i)
    (.eq .int (right i) (.ite .int (.order .lt i N) (Term.succ i) (.num 1)))
    (some (.ofInts (right i) []))

/-- At the start every child holds an even, non-negative number. -/
def initialState : Fact :=
  let i := Term.int "i"
  .about "initial-state" ["i"] (isChild i) (stateOk i (.num 0))
    (some (.ofInts (m i (.num 0)) []))

/-- The child that holds the most is a child. -/
def maxChildExists : Fact :=
  let k := Term.int "k"
  .about "max-child-exists" ["k"] (isNat k) (isChild (maxChild k))
    (some (.ofInts (maxChild k) []))

/-- The child that holds the least is a child. -/
def minChildExists : Fact :=
  let k := Term.int "k"
  .about "min-child-exists" ["k"] (isNat k) (isChild (minChild k))
    (some (.ofInts (minChild k) []))

/-- No child holds more than the greatest count. -/
def maxDominates : Fact :=
  let k := Term.int "k"
  let i := Term.int "i"
  .about "max-dominates" ["k", "i"] (.all [isNat k, isChild i]) (.order .le (m i k) (max2 k))
    (some (.ofInts (m i k) []))

/-- No child holds less than the least count. -/
def minDominated : Fact :=
  let k := Term.int "k"
  let i := Term.int "i"
  .about "min-dominated" ["k", "i"] (.all [isNat k, isChild i]) (.order .le (min2 k) (m i k))
    (some (.ofInts (m i k) []))

/-- A number of children is not negative. -/
def histogramNonneg : Fact :=
  let k := Term.int "k"
  let n := Term.int "n"
  .about "histogram-nonneg" ["k", "n"] (isNat k) (.atLeast (num n k) 0)
    (some (.ofInts (num n k) []))

/-- Fewer children hold a count that some child leaves and none enters. -/
def histogramLeaves : Fact :=
  let k := Term.int "k"
  let k2 := Term.int "k2"
  let n := Term.int "n"
  let i := Term.int "i"
  .about "histogram-leaves" ["k", "k2", "n", "i"]
    (.all [isNat k, isSuccessor k2 k, isChild i, .eq .int (m i k) n, .ne .int (m i k2) n,
      noEntry n k k2])
    (.order .lt (num n k2) (num n k))
    (some (.ofInts (num n k2) [num n k, m i k]))

/-- The base facts, in the order in which they are asserted. -/
def axioms (v : Vocabulary) : List Fact :=
  [childrenExist] ++ (v.children.map childrenCount).toList ++
    [rightNeighbor, initialState, maxChildExists, minChildExists, maxDominates, minDominated,
      histogramNonneg, histogramLeaves]

/-- The dynamics of one step. -/
def transition (v : Vocabulary) (step : Step) : Except Failure Fact := do
  let i := Term.int "i"
  return {
    name := "transition[" ++ step.display ++ "]"
    vars := [.int "i"]
    guard := isChild i
    body := ← v.trans i step
    trigger := some (.ofInts (m i step.next.toInt) [])
    step := some step }

/-- A concrete start, child 1 first. -/
def initialCounts (counts : List Int) : Fact :=
  .plain "initial-counts"
    (.all ((List.range counts.length).zip counts |>.map fun p =>
      .eq .int (m (.num (p.1 + 1)) (.num 0)) (.num p.2)))

end Vocabulary

end CandyCircle
