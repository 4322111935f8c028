/-
**Free constants.**

The names of the constants that a term mentions outside instantiation patterns.  Bound variables are
no constants, so a name that a quantifier gives its variable is not among them.

Constants are collected by recursion, one entry for each occurrence.  Names are searched for: terms
wait to be looked at, the one that came last is next, and unless it was seen before its parts come
to wait in turn.  So a term that occurs in many places is looked at once.

Main definitions:

* `CandyCircle.Logic.Expr.constants` — the constants of a term, in order of occurrence;
* `CandyCircle.Logic.Expr.parts`, `CandyCircle.Logic.AnyTerm.symbol?` — the terms that a term is
  made of directly, and the constant that it is;
* `CandyCircle.Logic.search` — **the search** through terms that wait;
* `CandyCircle.Logic.Expr.names` — the names of the constants of a term;
* `CandyCircle.Logic.sortedNames` — names in alphabetical order, each once.

Main results:

* `CandyCircle.Logic.size_lt_of_mem_parts` — parts are smaller, so that the search comes to an end;
* `CandyCircle.Logic.mem_sortedNames` — sorting keeps the names.
-/
import CandyCircle.Logic.Term

set_option autoImplicit false

namespace CandyCircle.Logic

/-- The constants that syntax mentions outside patterns, in order of occurrence. -/
def Expr.constants {s : Shape} : Expr s → List Symbol
  | .num _ => []
  | .lit _ => []
  | .const kind name => [⟨name, kind⟩]
  | .bound _ _ => []
  | .arith _ a b => a.constants ++ b.constants
  | .neg a => a.constants
  | .order _ a b => a.constants ++ b.constants
  | .ratio a _ _ => a.constants
  | .standing a => a.constants
  | .eq _ a b => a.constants ++ b.constants
  | .ne _ a b => a.constants ++ b.constants
  | .not a => a.constants
  | .and as => as.constants
  | .or as => as.constants
  | .imp a b => a.constants ++ b.constants
  | .ite _ c a b => c.constants ++ a.constants ++ b.constants
  | .app _ _ args => args.constants
  | .quant _ _ body _ _ => body.constants
  | .nil _ => []
  | .cons _ a rest => a.constants ++ rest.constants
  | .noPattern => []
  | .pat _ a rest => a.constants ++ rest.constants

/-! ### Searching for names -/

/-- The symbol that a term is, if it is one. -/
def AnyTerm.symbol? : AnyTerm → Option Symbol
  | ⟨_, .const kind name⟩ => some ⟨name, kind⟩
  | _ => none

/-- The terms that syntax is made of directly; the pattern of a quantifier is none of its parts. -/
def Expr.parts {s : Shape} : Expr s → List AnyTerm
  | .num _ => []
  | .lit _ => []
  | .const _ _ => []
  | .bound _ _ => []
  | .arith _ a b => [⟨_, a⟩, ⟨_, b⟩]
  | .neg a => [⟨_, a⟩]
  | .order _ a b => [⟨_, a⟩, ⟨_, b⟩]
  | .ratio a _ _ => [⟨_, a⟩]
  | .standing a => [⟨_, a⟩]
  | .eq _ a b => [⟨_, a⟩, ⟨_, b⟩]
  | .ne _ a b => [⟨_, a⟩, ⟨_, b⟩]
  | .not a => [⟨_, a⟩]
  | .and as => as.parts
  | .or as => as.parts
  | .imp a b => [⟨_, a⟩, ⟨_, b⟩]
  | .ite _ c a b => [⟨_, c⟩, ⟨_, a⟩, ⟨_, b⟩]
  | .app _ _ args => args.parts
  | .quant _ _ body _ _ => [⟨_, body⟩]
  | .nil _ => []
  | .cons _ a rest => ⟨_, a⟩ :: rest.parts
  | .noPattern => []
  | .pat _ a rest => ⟨_, a⟩ :: rest.parts

/-- How many terms syntax is made of, patterns apart, each counted as often as it occurs. -/
def Expr.size {s : Shape} : Expr s → Nat
  | .num _ => 1
  | .lit _ => 1
  | .const _ _ => 1
  | .bound _ _ => 1
  | .arith _ a b => a.size + b.size + 1
  | .neg a => a.size + 1
  | .order _ a b => a.size + b.size + 1
  | .ratio a _ _ => a.size + 1
  | .standing a => a.size + 1
  | .eq _ a b => a.size + b.size + 1
  | .ne _ a b => a.size + b.size + 1
  | .not a => a.size + 1
  | .and as => as.size + 1
  | .or as => as.size + 1
  | .imp a b => a.size + b.size + 1
  | .ite _ c a b => c.size + a.size + b.size + 1
  | .app _ _ args => args.size + 1
  | .quant _ _ body _ _ => body.size + 1
  | .nil _ => 0
  | .cons _ a rest => a.size + rest.size
  | .noPattern => 0
  | .pat _ a rest => a.size + rest.size

/-- How many terms some terms are made of. -/
def totalSize : List AnyTerm → Nat
  | [] => 0
  | t :: rest => t.term.size + totalSize rest

theorem totalSize_append (as bs : List AnyTerm) :
    totalSize (as ++ bs) = totalSize as + totalSize bs := by
  induction as with
  | nil => simp [totalSize]
  | cons a rest ih => simp only [List.cons_append, totalSize, ih, Nat.add_assoc]

theorem totalSize_reverse (as : List AnyTerm) : totalSize as.reverse = totalSize as := by
  induction as with
  | nil => rfl
  | cons a rest ih =>
      simp only [List.reverse_cons, totalSize_append, totalSize, ih]
      omega

/-- A list is made of what its members are made of. -/
theorem totalSize_parts_list {kind : Kind} : (as : Expr (.many kind)) → totalSize as.parts = as.size
  | .nil _ => rfl
  | .cons _ a rest => by rw [Expr.parts, totalSize, totalSize_parts_list rest, Expr.size]

/-- A term is made of its parts and itself. -/
theorem size_eq_totalSize_parts {kind : Kind} (t : Term kind) :
    t.size = totalSize t.parts + 1 := by
  cases t with
  | and as | or as | app _ _ as => simp [Expr.size, Expr.parts, totalSize_parts_list]
  | _ => simp [Expr.size, Expr.parts, totalSize, Nat.add_assoc]

/-- **Parts are smaller.** -/
theorem size_lt_of_mem_parts {kind : Kind} {t : Term kind} {p : AnyTerm} (hp : p ∈ t.parts) :
    p.term.size < t.size := by
  obtain ⟨before, after, hparts⟩ := List.append_of_mem hp
  rw [size_eq_totalSize_parts t, hparts, totalSize_append, totalSize]
  omega

/-- Names with that of a term among them, if the term is a constant. -/
def AnyTerm.noted (t : AnyTerm) (names : List String) : List String :=
  match t.symbol? with
  | some s => names.insert s.name
  | none => names

/-- The names of the constants in terms that wait, with those of names found before.  A term that
was seen before is passed over. -/
def search (waiting seen : List AnyTerm) (names : List String) : List String :=
  match waiting with
  | [] => names
  | t :: rest =>
      if t ∈ seen then search rest seen names
      else search (t.term.parts.reverse ++ rest) (t :: seen) (t.noted names)
termination_by totalSize waiting
decreasing_by
  -- what waits gets smaller without the term itself, and its parts do not make up for it
  all_goals
    have := size_eq_totalSize_parts t.term
    simp only [totalSize_append, totalSize_reverse, totalSize]
    omega

/-- The names of the constants that a term mentions outside patterns. -/
def Expr.names {kind : Kind} (t : Term kind) : List String :=
  search [⟨kind, t⟩] [] []

/-- Names in alphabetical order, each once. -/
def sortedNames (names : List String) : List String :=
  names.eraseDups.mergeSort fun a b => decide (a ≤ b)

/-- Sorting keeps the names. -/
theorem mem_sortedNames (names : List String) (name : String) :
    name ∈ sortedNames names ↔ name ∈ names := by
  simp [sortedNames]

end CandyCircle.Logic
