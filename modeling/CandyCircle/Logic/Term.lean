/-
**Terms over the integers.**

Terms of two sorts, integers and truth values, with uninterpreted constants and functions and with
quantifiers over either sort.  A term is well sorted by its type.  Constants have names; a bound
variable is the number of variables that are bound between it and its binder, the last variable of
the innermost quantifier being number 0.

Terms, lists of terms and instantiation patterns make up one family of syntax, so that one
recursion runs through all of them.

Main definitions:

* `CandyCircle.Logic.Kind`, `CandyCircle.Logic.Symbol` — sorts, and named constants of a sort;
* `CandyCircle.Logic.Expr` — the family of syntax;
* `CandyCircle.Logic.Term`, `CandyCircle.Logic.IntTerm`, `CandyCircle.Logic.Formula` — its terms;
* `CandyCircle.Logic.Term.apply`, `CandyCircle.Logic.Formula.all`, `CandyCircle.Logic.Formula.any` —
  applications, conjunctions and disjunctions of lists;
* `CandyCircle.Logic.Formula.compare`, `CandyCircle.Logic.Formula.equate`,
  `CandyCircle.Logic.Formula.differ` — comparisons that are written with a numeral first.
-/

set_option autoImplicit false

namespace CandyCircle.Logic

/-- The sort of a term. -/
inductive Kind where
  /-- Integers. -/
  | int
  /-- Truth values. -/
  | bool
  deriving DecidableEq, Repr

/-- A named constant of a sort. -/
structure Symbol where
  name : String
  /-- Its sort. -/
  kind : Kind
  deriving DecidableEq, Repr

/-- The integer constant of a name. -/
def Symbol.int (name : String) : Symbol :=
  ⟨name, .int⟩

/-- The part of a spelling before its first null character. -/
def Symbol.uncut (spelling : String) : String :=
  String.ofList (spelling.toList.takeWhile fun c => c != '\x00')

/-- The name of a symbol that is spelled so.  A null character ends the spelling, and a symbol that
is spelled by nothing at all is known as `<null>`. -/
def Symbol.known (spelling : String) : String :=
  if (uncut spelling).isEmpty then "<null>" else uncut spelling

/-- A part of syntax. -/
inductive Shape where
  /-- A term of a sort. -/
  | one (kind : Kind)
  /-- A list of terms of a sort. -/
  | many (kind : Kind)
  /-- An instantiation pattern: terms of either sort. -/
  | pattern
  deriving DecidableEq, Repr

/-- A binary operation on integers. -/
inductive Arith where
  /-- Sum. -/
  | add
  /-- Difference. -/
  | sub
  /-- Product. -/
  | mul
  /-- Quotient. -/
  | div
  /-- Remainder. -/
  | mod
  deriving DecidableEq, Repr

/-- An order relation on integers. -/
inductive Order where
  /-- At most. -/
  | le
  /-- Less. -/
  | lt
  /-- At least. -/
  | ge
  /-- Greater. -/
  | gt
  deriving DecidableEq, Repr

/-- The relation with its sides exchanged. -/
def Order.converse : Order → Order
  | le => ge
  | lt => gt
  | ge => le
  | gt => lt

/-- A quantifier. -/
inductive Quantifier where
  /-- For all. -/
  | all
  /-- There is. -/
  | some
  deriving DecidableEq, Repr

/-- Syntax: terms, lists of terms, and patterns. -/
inductive Expr : Shape → Type where
  /-- A numeral. -/
  | num (n : Int) : Expr (.one .int)
  /-- A truth value. -/
  | lit (b : Bool) : Expr (.one .bool)
  /-- An uninterpreted constant. -/
  | const (kind : Kind) (name : String) : Expr (.one kind)
  /-- A bound variable. -/
  | bound (kind : Kind) (index : Nat) : Expr (.one kind)
  /-- A binary operation. -/
  | arith (op : Arith) (a b : Expr (.one .int)) : Expr (.one .int)
  /-- The negative of an integer. -/
  | neg (a : Expr (.one .int)) : Expr (.one .int)
  /-- An order relation. -/
  | order (op : Order) (a b : Expr (.one .int)) : Expr (.one .bool)
  /-- An integer is a fraction. -/
  | ratio (a : Expr (.one .int)) (numerator : Int) (denominator : Nat) : Expr (.one .bool)
  /-- An integer that stands where a formula is expected. -/
  | standing (a : Expr (.one .int)) : Expr (.one .bool)
  /-- An equation. -/
  | eq (kind : Kind) (a b : Expr (.one kind)) : Expr (.one .bool)
  /-- A disequation. -/
  | ne (kind : Kind) (a b : Expr (.one kind)) : Expr (.one .bool)
  /-- Negation. -/
  | not (a : Expr (.one .bool)) : Expr (.one .bool)
  /-- Conjunction. -/
  | and (as : Expr (.many .bool)) : Expr (.one .bool)
  /-- Disjunction. -/
  | or (as : Expr (.many .bool)) : Expr (.one .bool)
  /-- Implication. -/
  | imp (a b : Expr (.one .bool)) : Expr (.one .bool)
  /-- Choice by a condition. -/
  | ite (kind : Kind) (c : Expr (.one .bool)) (a b : Expr (.one kind)) : Expr (.one kind)
  /-- An uninterpreted function applied to integers. -/
  | app (kind : Kind) (name : String) (args : Expr (.many .int)) : Expr (.one kind)
  /-- A quantifier over variables, with an optional name and a pattern. -/
  | quant (q : Quantifier) (vars : List Symbol) (body : Expr (.one .bool)) (id : Option String)
      (pattern : Expr .pattern) : Expr (.one .bool)
  /-- No terms. -/
  | nil (kind : Kind) : Expr (.many kind)
  /-- One term more. -/
  | cons (kind : Kind) (a : Expr (.one kind)) (rest : Expr (.many kind)) : Expr (.many kind)
  /-- The empty pattern, which stands for none at all. -/
  | noPattern : Expr .pattern
  /-- One term more in a pattern. -/
  | pat (kind : Kind) (a : Expr (.one kind)) (rest : Expr .pattern) : Expr .pattern
  deriving DecidableEq

/-- Terms of a sort. -/
abbrev Term (kind : Kind) := Expr (.one kind)

/-- Terms for integers. -/
abbrev IntTerm := Term .int

/-- Terms for truth values. -/
abbrev Formula := Term .bool

/-- A term of either sort. -/
structure AnyTerm where
  /-- Its sort. -/
  kind : Kind
  term : Term kind
  deriving DecidableEq

/-- The constant that a symbol names. -/
def Symbol.term (s : Symbol) : Term s.kind :=
  .const s.kind s.name

/-- The constant that a symbol names, its sort apart. -/
def Symbol.any (s : Symbol) : AnyTerm :=
  ⟨s.kind, s.term⟩

/-- A term for an integer, its sort apart. -/
def AnyTerm.int (t : IntTerm) : AnyTerm :=
  ⟨.int, t⟩

/-- The integer term that a term is, if it is one. -/
def AnyTerm.int? : AnyTerm → Option IntTerm
  | ⟨.int, t⟩ => some t
  | ⟨.bool, _⟩ => none

/-- The formula that a term is, if it is one. -/
def AnyTerm.formula? : AnyTerm → Option Formula
  | ⟨.bool, t⟩ => some t
  | ⟨.int, _⟩ => none

/-- The integer that a term stands for: a formula stands for one if it holds and for zero
otherwise. -/
def AnyTerm.toInt : AnyTerm → IntTerm
  | ⟨.int, t⟩ => t
  | ⟨.bool, t⟩ => .ite .int t (.num 1) (.num 0)

/-- Two terms are the same: formulas as formulas, and integers otherwise. -/
def AnyTerm.eq : AnyTerm → AnyTerm → Formula
  | ⟨.bool, p⟩, ⟨.bool, q⟩ => .eq .bool p q
  | a, b => .eq .int a.toInt b.toInt

/-- Two terms differ: formulas as formulas, and integers otherwise. -/
def AnyTerm.ne : AnyTerm → AnyTerm → Formula
  | ⟨.bool, p⟩, ⟨.bool, q⟩ => .ne .bool p q
  | a, b => .ne .int a.toInt b.toInt

/-- One of two terms by a condition: a formula if both are, and an integer otherwise. -/
def AnyTerm.ite (c : Formula) : AnyTerm → AnyTerm → AnyTerm
  | ⟨.bool, p⟩, ⟨.bool, q⟩ => ⟨.bool, .ite .bool c p q⟩
  | a, b => ⟨.int, .ite .int c a.toInt b.toInt⟩

/-! ### Lists and patterns -/

/-- A list of terms as syntax. -/
def Expr.ofList {kind : Kind} : List (Term kind) → Expr (.many kind)
  | [] => .nil kind
  | a :: rest => .cons kind a (ofList rest)

/-- A list of terms as a pattern. -/
def Expr.ofTerms : List AnyTerm → Expr .pattern
  | [] => .noPattern
  | a :: rest => .pat a.kind a.term (ofTerms rest)

/-! ### Terms -/

/-- The integer constant of a name. -/
def Term.int (name : String) : IntTerm :=
  .const .int name

/-- A function applied to integers; without arguments it is a constant. -/
def Term.apply (kind : Kind) (name : String) : List IntTerm → Term kind
  | [] => .const kind name
  | args => .app kind name (.ofList args)

/-- Whether a term is a numeral. -/
def Term.isNumeral : IntTerm → Bool
  | .num _ => true
  | _ => false

/-- The sum of two terms. -/
def Term.plus (a b : IntTerm) : IntTerm :=
  .arith .add a b

/-- The difference of two terms. -/
def Term.minus (a b : IntTerm) : IntTerm :=
  .arith .sub a b

/-- The successor of a term. -/
def Term.succ (a : IntTerm) : IntTerm :=
  a.plus (.num 1)

namespace Formula

/-- The conjunction of a list. -/
def all (as : List Formula) : Formula :=
  .and (.ofList as)

/-- The disjunction of a list. -/
def any (as : List Formula) : Formula :=
  .or (.ofList as)

/-- Whether a formula is the truth value true. -/
def isTrue : Formula → Bool
  | .lit true => true
  | _ => false

/-- A term is at least a number. -/
def atLeast (a : IntTerm) (n : Int) : Formula :=
  .order .ge a (.num n)

/-- Whether a comparison of terms exchanges its sides, which it does to put a numeral first. -/
def exchanges (a b : IntTerm) : Bool :=
  b.isNumeral && !a.isNumeral

/-- An order relation between terms, written with a numeral first. -/
def compare (op : Order) (a b : IntTerm) : Formula :=
  if exchanges a b then .order op.converse b a else .order op a b

/-- An equation between terms, written with a numeral first. -/
def equate (a b : IntTerm) : Formula :=
  if exchanges a b then .eq .int b a else .eq .int a b

/-- A disequation between terms, written with a numeral first. -/
def differ (a b : IntTerm) : Formula :=
  if exchanges a b then .ne .int b a else .ne .int a b

end Formula

end CandyCircle.Logic
