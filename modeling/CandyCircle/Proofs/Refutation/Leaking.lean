/-
**Formulas that mention retired constants.**

What is assumed or committed is looked through for constants of closed layers.  Every place outside
of instantiation patterns is looked at: a formula is refused just if a retired constant occurs in it
there, under whatever quantifiers, and all of them are named.  A bound variable that goes by the
name of a retired constant is none.  Patterns are not looked at, so a retired constant may stay in a
trigger.

Main definitions:

* `CandyCircle.Context.MentionsRetired` — a retired constant occurs, in patterns if these count;
* `CandyCircle.Context.Screened` — **an operation is refused on account of a formula**, or carried
  out.

Main results:

* `CandyCircle.Context.mem_leaks_iff` — the constants that are named;
* `CandyCircle.Context.screened` — **whatever is assumed or committed is screened**, outside of
  patterns;
* `CandyCircle.Context.committed_prompted` — what occurs in a trigger is not noticed.
-/
import CandyCircle.Proofs.Logic.Occurrence
import CandyCircle.Proofs.Refutation.Reachable

set_option autoImplicit false

namespace CandyCircle

open Logic

namespace Context

variable {c : Context} {f : Formula}

/-- A retired constant occurs in a formula, in the patterns of quantifiers only if these count. -/
def MentionsRetired (c : Context) (patterns : Prop) (f : Formula) : Prop :=
  ∃ x, f.Occurs patterns x ∧ x.name ∈ c.retired

/-- **What is named** are the retired constants that occur outside of patterns. -/
theorem mem_leaks_iff {name : String} :
    name ∈ c.leaks f ↔ name ∈ c.retired ∧ ∃ x, f.Occurs False x ∧ x.name = name := by
  simp only [leaks, mem_sortedNames, List.mem_filter, List.mem_map, mem_constants_iff,
    List.contains_iff_mem, and_comm]

theorem leaks_eq_nil_iff : c.leaks f = [] ↔ ¬ c.MentionsRetired False f := by
  rw [List.eq_nil_iff_forall_not_mem]
  constructor
  · rintro h ⟨x, hx, hretired⟩
    exact h x.name (mem_leaks_iff.2 ⟨hretired, x, hx, rfl⟩)
  · rintro h name hname
    obtain ⟨hretired, x, hx, rfl⟩ := mem_leaks_iff.1 hname
    exact h ⟨x, hx, hretired⟩

theorem refuseLeaks_eq (c : Context) (f : Formula) (what : String) :
    c.refuseLeaks f what =
      if c.leaks f = [] then .ok ()
      else .error (.scope (.leak what (c.leaks f) c.current.name)) := by
  unfold refuseLeaks
  cases c.leaks f <;> rfl

/-- **An operation is refused on account of a formula** just if a retired constant occurs in it
outside of patterns: then the retired constants that occur there are named, and else it is carried
out. -/
structure Screened (c : Context) (f : Formula) (r : Except Failure Context) : Prop where
  refused : c.MentionsRetired False f → ∃ what names,
    r = .error (.scope (.leak what names c.current.name)) ∧
      ∀ name, name ∈ names ↔ name ∈ c.retired ∧ ∃ x, f.Occurs False x ∧ x.name = name
  accepted : ¬ c.MentionsRetired False f → ∃ c', r = .ok c'

/-- What is looked through first, and then carried out. -/
theorem screened_refuseLeaks (c c' : Context) (f : Formula) (what : String) :
    c.Screened f (do c.refuseLeaks f what; return c') where
  refused h := by
    have hleaks : c.leaks f ≠ [] := fun hnil => leaks_eq_nil_iff.1 hnil h
    refine ⟨what, c.leaks f, ?_, fun name => mem_leaks_iff⟩
    rw [refuseLeaks_eq, if_neg hleaks]
    rfl
  accepted h := by
    refine ⟨c', ?_⟩
    rw [refuseLeaks_eq, if_pos (leaks_eq_nil_iff.2 h)]
    rfl

theorem Screened.map {r : Except Failure Context} (h : c.Screened f r) (g : Context → Context) :
    c.Screened f (r.map g) where
  refused hm := by
    obtain ⟨what, names, rfl, hnames⟩ := h.refused hm
    exact ⟨what, names, rfl, hnames⟩
  accepted hm := by
    obtain ⟨c', rfl⟩ := h.accepted hm
    exact ⟨g c', rfl⟩

theorem screened_assume (c : Context) (a : Assertion) : c.Screened a.formula (c.assume a) :=
  c.screened_refuseLeaks (c.assertInside a) a.formula _

theorem screened_assumeFact (c : Context) {f : Fact} {formula : Formula}
    (h : formulaOf f = .ok formula) : c.Screened formula (c.assumeFact f) := by
  have hassume := (c.screened_assume { formula, label := f.name }).map fun c' =>
    c'.updateCurrent fun l => l.register f
  rw [assumeFact, h]
  exact hassume

theorem screened_commit {f : Fact} {formula : Formula} (h : formulaOf f = .ok formula)
    (hdepth : c.depth = 0) (hnew : c.base.find? f.name = none) :
    c.Screened formula (c.commit f) := by
  rw [commit, if_neg (by simp [hdepth]), h]
  simp only [hnew]
  exact c.screened_refuseLeaks _ formula _

/-- **Whatever is assumed or committed is screened**: a formula on its own, and the formula that a
fact has; to be committed the fact needs a new name, and no layer may be open. -/
theorem screened (c : Context) :
    (∀ a, c.Screened a.formula (c.assume a)) ∧
      ∀ f formula, formulaOf f = .ok formula → c.Screened formula (c.assumeFact f) ∧
        (c.depth = 0 → c.base.find? f.name = none → c.Screened formula (c.commit f)) :=
  ⟨c.screened_assume, fun _ _ h =>
    ⟨c.screened_assumeFact h, fun hdepth hnew => screened_commit h hdepth hnew⟩⟩

/-- The state after a constant was declared in a layer that was closed. -/
def retiring : Context :=
  (((start (Settings.options {}) []).push "inner").2.declare "w" .int).2.closeInnermost

theorem reachable_retiring : retiring.Reachable :=
  (Reachable.start (Settings.options {}) []).leads <|
    ((Leads.of_moves (.push _ "inner")).trans (.of_moves (.declare _ "w" .int))).trans
      (.of_moves (@Moves.pop _ _ none _ rfl))

theorem mem_retired_retiring {name : String} : name ∈ retiring.retired ↔ name = "w!0" := by
  have hretired : retiring.retired = ["w!0"] := by decide +kernel
  rw [hretired, List.mem_singleton]

/-- A fact whose variable goes by the name of a retired constant. -/
def shadowing : Fact :=
  .about "shadowing" ["w!0"] (.lit true) (.atLeast (.int "w!0") 0) none

/-- A fact that mentions a retired constant under two quantifiers. -/
def nesting : Fact :=
  .about "nesting" ["i"] (.lit true)
    (.thereIs [.int "j"] (.order .ge (Term.int "j") (Term.int "w!0")) []) none

/-- A variable is not mistaken for a retired constant, and a retired constant is found under
quantifiers. -/
theorem screened_retiring :
    (∃ c', retiring.commit shadowing = .ok c') ∧
      ∃ what names, retiring.commit nesting = .error (.scope (.leak what names "base")) ∧
        "w!0" ∈ names := by
  obtain ⟨-, h⟩ := retiring.screened
  have hshadowing := (h shadowing shadowing.formula rfl).2 rfl rfl
  have hnesting := (h nesting nesting.formula rfl).2 rfl rfl
  refine ⟨hshadowing.accepted ?_, ?_⟩
  · rintro ⟨x, hx, -⟩
    obtain ⟨hx, hvars⟩ := (shadowing.occurs_formula_iff).1 hx
    have hx : x = .int "w!0" := by
      simpa [shadowing, Fact.about, Formula.atLeast, Term.int, Symbol.int, Expr.Occurs] using hx
    exact hvars (hx ▸ List.mem_cons_self)
  · have hx : nesting.formula.Occurs False (.int "w!0") := by
      rw [Fact.occurs_formula_iff]
      simp [nesting, Fact.about, Formula.thereIs, Formula.quantify, occurs_bindSymbols, Term.int,
        Expr.Occurs, Symbol.int]
    obtain ⟨what, names, hrefused, hnames⟩ :=
      hnesting.refused ⟨_, hx, mem_retired_retiring.2 rfl⟩
    exact ⟨what, names, hrefused, (hnames _).2 ⟨mem_retired_retiring.2 rfl, _, hx, rfl⟩⟩

/-! ### Triggers -/

/-- A fact that mentions a retired constant in its trigger. -/
def prompted : Fact :=
  .about "bounded" ["i"] (.lit true) (.atLeast (.apply .int "f" [.int "i"]) 0)
    (some (.ofInts (.apply .int "g" [.int "i", .int "w!0"]) []))

/-- **What occurs in a trigger is not noticed**: the fact is committed, and what is asserted
mentions the retired constant. -/
theorem committed_prompted :
    retiring.Reachable ∧ retiring.depth = 0 ∧ retiring.base.find? prompted.name = none ∧
      formulaOf prompted = .ok prompted.formula ∧ retiring.MentionsRetired True prompted.formula ∧
      ∃ c', retiring.commit prompted = .ok c' ∧ c'.committed = ["bounded"] ∧
        prompted.formula ∈ c'.session.active := by
  have hmentions : retiring.MentionsRetired True prompted.formula := by
    refine ⟨.int "w!0", ?_, mem_retired_retiring.2 rfl⟩
    rw [Fact.occurs_formula_iff]
    simp [prompted, Fact.about, Trigger.ofInts, Trigger.terms, AnyTerm.int, Term.apply, Expr.ofList,
      Term.int, Expr.Occurs, Symbol.int]
  have hnot : ¬ retiring.MentionsRetired False prompted.formula := by
    rintro ⟨x, hx, hretired⟩
    obtain ⟨hx, hvars⟩ := prompted.occurs_formula_iff.1 hx
    have hx : x = .int "i" := by
      simpa [prompted, Fact.about, Formula.atLeast, Term.apply, Expr.ofList, Term.int, Symbol.int,
        Expr.Occurs] using hx
    exact hvars (hx ▸ List.mem_cons_self)
  obtain ⟨c', hcommit⟩ :=
    (screened_commit (c := retiring) (f := prompted) rfl rfl rfl).accepted hnot
  obtain ⟨-, -, -, hc'⟩ := Proof.inv_of_commit hcommit
  refine ⟨reachable_retiring, rfl, rfl, rfl, hmentions, c', hcommit, ?_, ?_⟩
  · rw [hc']
    rfl
  · rw [hc']
    exact (Session.active_add _ _).symm ▸ List.mem_append_right _ List.mem_cons_self

end Context

end CandyCircle
