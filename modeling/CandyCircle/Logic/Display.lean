/-
**Terms on one line for reading.**

Arithmetic and comparisons are written between their arguments, with as few parentheses as the
operators need; everything else is written as a function with its arguments in parentheses.  Bound
variables are written by the names that their quantifiers gave them.

Main definitions:

* `CandyCircle.Logic.Operator`, `CandyCircle.Logic.Operator.strength` — what is written between
  arguments, and how loosely it binds;
* `CandyCircle.Logic.Printed` — a printed term together with what its surroundings need to know;
* `CandyCircle.Logic.Expr.printed` — the printed form;
* `CandyCircle.Logic.Term.display` — the text of a term.
-/
import CandyCircle.Decimal.Digits
import CandyCircle.Logic.Term
import CandyCircle.Text.Layout

set_option autoImplicit false

namespace CandyCircle.Logic

/-- An operator that is written between its arguments. -/
inductive Operator where
  /-- An operation on integers. -/
  | arith (op : Arith)
  /-- An order relation. -/
  | order (op : Order)
  /-- Equality. -/
  | eq
  /-- Difference. -/
  | ne
  deriving DecidableEq, Repr

/-- The sign of an operator with its surrounding blanks; products, quotients and remainders are
written without. -/
def Operator.infixed : Operator → String
  | .arith .add => " + "
  | .arith .sub => " - "
  | .arith .mul => "*"
  | .arith .div => "/"
  | .arith .mod => "%"
  | .order .le => " <= "
  | .order .lt => " < "
  | .order .ge => " >= "
  | .order .gt => " > "
  | .eq => " == "
  | .ne => " != "

/-- How loosely an operator binds; the unary minus has strength 1. -/
def Operator.strength : Operator → Nat
  | .arith .mul => 2
  | .arith .div => 2
  | .arith .mod => 2
  | .arith .add => 3
  | .arith .sub => 3
  | .order _ => 8
  | .eq => 8
  | .ne => 8

/-- What a printed term is at its outside. -/
inductive Head where
  /-- An operator between arguments. -/
  | operator (op : Operator)
  /-- A unary minus. -/
  | minus
  /-- A quantifier. -/
  | quantifier
  /-- Anything that needs no parentheses anywhere. -/
  | closed
  deriving DecidableEq, Repr

/-- A printed term: what it is at its outside, and its text.  A term with an operator outside is
kept as the texts of its arguments, so that an argument with the same operator can be taken up into
them. -/
structure Printed where
  /-- What the term is at its outside. -/
  head : Head
  /-- The texts of the arguments of an operator, otherwise the text itself. -/
  parts : List String

/-- The text of a printed term. -/
def Printed.text (p : Printed) : String :=
  match p.head with
  | .operator op => String.intercalate op.infixed p.parts
  | _ => String.join p.parts

/-- A printed term that needs no parentheses. -/
def Printed.ofText (s : String) : Printed :=
  ⟨.closed, [s]⟩

/-- A text between parentheses. -/
def enclosed (s : String) : String :=
  "(" ++ s ++ ")"

/-- Whether an argument with the same operator gives up its own arguments: those of sums and
products do, and of differences the first one. -/
def Operator.takesUp (op : Operator) (isFirst : Bool) : Bool :=
  match op with
  | .arith .add => true
  | .arith .mul => true
  | .arith .sub => isFirst
  | _ => false

/-- Whether an argument with operator `inner` stands bare under `op`. -/
def Operator.leavesBare (op : Operator) (isFirst : Bool) (inner : Operator) : Bool :=
  op == .ne || inner == .ne || inner.strength < op.strength ||
    (op == .arith .add && inner == .arith .sub) ||
    (op == .arith .sub && isFirst && inner == .arith .add)

/-- The texts that an argument brings to an operator. -/
def Operator.argument (op : Operator) (isFirst : Bool) (a : Printed) : List String :=
  match a.head with
  | .operator inner =>
      if inner = op && op.takesUp isFirst then a.parts
      else if op.leavesBare isFirst inner then [a.text]
      else [enclosed a.text]
  | .quantifier => [enclosed a.text]
  | _ => [a.text]

/-- Two arguments with an operator between them. -/
def Operator.between (op : Operator) (a b : Printed) : Printed :=
  ⟨.operator op, op.argument true a ++ op.argument false b⟩

/-- A unary minus before its argument. -/
def Printed.negated (a : Printed) : Printed :=
  match a.head with
  | .operator _ => ⟨.minus, ["-" ++ enclosed a.text]⟩
  | _ => ⟨.minus, ["-" ++ a.text]⟩

/-- A function with its arguments; without arguments it is just its name. -/
def Printed.call (name : String) (args : List Printed) : Printed :=
  if args.isEmpty then .ofText name
  else .ofText (name ++ enclosed (Text.commaSeparated (args.map Printed.text)))

/-- The printed form of a part of syntax: one for a term, one for each member of a list. -/
abbrev Shape.Printed : Shape → Type
  | .one _ => Logic.Printed
  | .many _ => List Logic.Printed
  | .pattern => Unit

/-- The word for a quantifier in readable text. -/
def Quantifier.display : Quantifier → String
  | all => "ForAll"
  | some => "Exists"

/-- Names in square brackets, or a single name without. -/
def bracketedNames : List String → String
  | [name] => name
  | names => "[" ++ Text.commaSeparated names ++ "]"

/-- A fraction; one that is whole is written without its denominator. -/
def fraction (numerator : Int) (denominator : Nat) : String :=
  if denominator = 1 then Decimal.ofInt numerator
  else Decimal.ofInt numerator ++ "/" ++ Decimal.ofNat denominator

/-- The printed form of a part of syntax under binders, whose names are given innermost first. -/
def Expr.printed {s : Shape} (binders : List String) : Expr s → s.Printed
  | .num n => .ofText (Decimal.ofInt n)
  | .lit b => .ofText (if b then "True" else "False")
  | .const _ name => .ofText name
  | .bound _ index => .ofText (binders.getD index ("Var" ++ enclosed (Decimal.ofNat index)))
  | .arith op a b => (Operator.arith op).between (a.printed binders) (b.printed binders)
  | .neg a => (a.printed binders).negated
  | .order op a b => (Operator.order op).between (a.printed binders) (b.printed binders)
  | .ratio a n d =>
      Operator.eq.between (.call "ToReal" [a.printed binders]) (.ofText (fraction n d))
  | .standing a => show Logic.Printed from a.printed binders
  | .eq _ a b => Operator.eq.between (a.printed binders) (b.printed binders)
  | .ne _ a b => Operator.ne.between (a.printed binders) (b.printed binders)
  | .not a => .call "Not" [a.printed binders]
  | .and as => .call "And" (as.printed binders)
  | .or as => .call "Or" (as.printed binders)
  | .imp a b => .call "Implies" [a.printed binders, b.printed binders]
  | .ite _ c a b => .call "If" [c.printed binders, a.printed binders, b.printed binders]
  | .app _ name args => .call name (args.printed binders)
  | .quant q vars body _ _ =>
      let names := vars.map Symbol.name
      let inner := body.printed (names.reverse ++ binders)
      ⟨.quantifier, [q.display ++ enclosed (bracketedNames names ++ ", " ++ inner.text)]⟩
  | .nil _ => []
  | .cons _ a rest => a.printed binders :: rest.printed binders
  | .noPattern => ()
  | .pat _ _ _ => ()

/-- The text of a term for reading. -/
def Term.display {kind : Kind} (t : Term kind) : String :=
  (t.printed []).text

end CandyCircle.Logic
