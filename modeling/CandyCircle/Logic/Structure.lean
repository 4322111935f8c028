/-
**The structure of terms as text.**

A term is written with every operator in front of its arguments and with parentheses around both, so
that the text shows the structure and nothing else.  Bound variables are written by number.

Main definitions:

* `CandyCircle.Logic.Expr.structural` — the text of a term, or the texts of a list;
* `CandyCircle.Logic.Term.sexpr` — the text of a term;
* `CandyCircle.Logic.assertions` — formulas as the assertions of a query, one on each line.
-/
import CandyCircle.Decimal.Digits
import CandyCircle.Logic.Term

set_option autoImplicit false

namespace CandyCircle.Logic

/-- The text of a part of syntax: one for a term, one for each member of a list. -/
abbrev Shape.Text : Shape → Type
  | .one _ => String
  | .many _ => List String
  | .pattern => List String

/-- The sign of an operation. -/
def Arith.sign : Arith → String
  | add => "+"
  | sub => "-"
  | mul => "*"
  | div => "div"
  | mod => "mod"

/-- The sign of an order relation. -/
def Order.sign : Order → String
  | le => "<="
  | lt => "<"
  | ge => ">="
  | gt => ">"

/-- The word for a quantifier. -/
def Quantifier.word : Quantifier → String
  | all => "forall"
  | some => "exists"

/-- The name of a sort. -/
def Kind.name : Kind → String
  | int => "Int"
  | bool => "Bool"

/-- Words between parentheses. -/
def parenthesized (words : List String) : String :=
  "(" ++ String.intercalate " " words ++ ")"

/-- The text of a part of syntax by its structure. -/
def Expr.structural {s : Shape} : Expr s → s.Text
  | .num n => Decimal.ofInt n
  | .lit b => if b then "true" else "false"
  | .const _ name => name
  | .bound _ index => "#" ++ Decimal.ofNat index
  | .arith op a b => parenthesized [op.sign, a.structural, b.structural]
  | .neg a => parenthesized ["neg", a.structural]
  | .order op a b => parenthesized [op.sign, a.structural, b.structural]
  | .ratio a _ _ => parenthesized ["=", parenthesized ["to_real", a.structural], "Real"]
  | .standing a => a.structural
  | .eq _ a b => parenthesized ["=", a.structural, b.structural]
  | .ne _ a b => parenthesized ["!=", a.structural, b.structural]
  | .not a => parenthesized ["not", a.structural]
  | .and as => parenthesized ("and" :: as.structural)
  | .or as => parenthesized ("or" :: as.structural)
  | .imp a b => parenthesized ["=>", a.structural, b.structural]
  | .ite _ c a b => parenthesized ["ite", c.structural, a.structural, b.structural]
  | .app _ name args => parenthesized (name :: args.structural)
  | .quant q vars body id pattern =>
      let binders := vars.map fun v => parenthesized [v.name, v.kind.name]
      let label := match id with
        | none => []
        | some name => [":qid", name]
      let trigger := match pattern.structural with
        | [] => []
        | terms => [":pattern", parenthesized terms]
      parenthesized ([q.word, parenthesized binders, body.structural] ++ label ++ trigger)
  | .nil _ => []
  | .cons _ a rest => a.structural :: rest.structural
  | .noPattern => []
  | .pat _ a rest => a.structural :: rest.structural

/-- The text of a term by its structure. -/
def Term.sexpr {kind : Kind} (t : Term kind) : String :=
  t.structural

/-- Formulas as the assertions of a query, one on each line. -/
def assertions (formulas : List Formula) : String :=
  String.intercalate "\n" (formulas.map fun f => parenthesized ["assert", Term.sexpr f])

end CandyCircle.Logic
