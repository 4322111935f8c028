/-
**What triggers cover.**

A fact is accepted only if its trigger mentions its variables, so that whatever instantiates it
fixes all of them.  The variables are looked for by their names.  The quantifier binds constants,
that is, names of a sort; so a constant of the same name and another sort counts as a mention, but
is not bound.  Short of such constants an accepted fact has a pattern in which all variables occur.

Main definitions:

* `CandyCircle.Logic.Expr.Uses` — **a bound variable occurs**;
* `CandyCircle.Trigger.Covers` — a constant occurs in a trigger;
* `CandyCircle.Fact.Clear` — no constant in the trigger is called like a variable and of another
  sort.

Main results:

* `CandyCircle.Logic.uses_bindSymbols` — a bound variable occurs where its constant did;
* `CandyCircle.Fact.checked_eq_ok_iff` — which facts are accepted;
* `CandyCircle.Fact.uses_pattern_iff` — what occurs in the pattern of a fact;
* `CandyCircle.Fact.checked_covers` — **accepted triggers cover their quantifiers**, names of two
  sorts apart;
* `CandyCircle.Fact.checked_clash` — names of two sorts are in the way of that.
-/
import CandyCircle.Proofs.Logic.Occurrence
import Mathlib.Data.List.Nodup

set_option autoImplicit false

namespace CandyCircle

open Logic

namespace Logic

/-! ### Bound variables -/

/-- A bound variable of a sort and a number occurs in syntax, in the patterns of quantifiers only if
these count.  Under a quantifier it has a greater number. -/
def Expr.Uses (patterns : Prop) (kind : Kind) {s : Shape} (index : Nat) : Expr s → Prop
  | .num _ => False
  | .lit _ => False
  | .const _ _ => False
  | .bound kind' index' => kind' = kind ∧ index' = index
  | .arith _ a b => a.Uses patterns kind index ∨ b.Uses patterns kind index
  | .neg a => a.Uses patterns kind index
  | .order _ a b => a.Uses patterns kind index ∨ b.Uses patterns kind index
  | .ratio a _ _ => a.Uses patterns kind index
  | .standing a => a.Uses patterns kind index
  | .eq _ a b => a.Uses patterns kind index ∨ b.Uses patterns kind index
  | .ne _ a b => a.Uses patterns kind index ∨ b.Uses patterns kind index
  | .not a => a.Uses patterns kind index
  | .and as => as.Uses patterns kind index
  | .or as => as.Uses patterns kind index
  | .imp a b => a.Uses patterns kind index ∨ b.Uses patterns kind index
  | .ite _ c a b =>
      c.Uses patterns kind index ∨ a.Uses patterns kind index ∨ b.Uses patterns kind index
  | .app _ _ args => args.Uses patterns kind index
  | .quant _ vars body _ pattern =>
      body.Uses patterns kind (index + vars.length) ∨
        patterns ∧ pattern.Uses patterns kind (index + vars.length)
  | .nil _ => False
  | .cons _ a rest => a.Uses patterns kind index ∨ rest.Uses patterns kind index
  | .noPattern => False
  | .pat _ a rest => a.Uses patterns kind index ∨ rest.Uses patterns kind index

variable {patterns : Prop} {x : Symbol} {vars : List Symbol} {index : Nat}

/-- A bound variable occurs where the constant did in whose place it stands. -/
theorem uses_replace {r : Replacement} {kind : Kind}
    (hconst : ∀ d kind' name,
      (r.const d kind' name).Uses patterns kind (d + index) ↔ x = ⟨name, kind'⟩)
    (hbound : ∀ d kind' index', ¬ (r.bound d kind' index').Uses patterns kind (d + index))
    {s : Shape} (e : Expr s) :
    ∀ d, (e.replace r d).Uses patterns kind (d + index) ↔ e.Occurs patterns x := by
  induction e with
  | num | lit | nil | noPattern => exact fun _ => Iff.rfl
  | const kind' name => exact fun d => hconst d kind' name
  | bound kind' index' => exact fun d => iff_of_false (hbound d kind' index') id
  | neg a ih | ratio a _ _ ih | standing a ih | not a ih | and a ih | or a ih | app _ _ a ih =>
      exact ih
  | arith _ a b iha ihb | order _ a b iha ihb | eq _ a b iha ihb | ne _ a b iha ihb
  | imp a b iha ihb | cons _ a b iha ihb | pat _ a b iha ihb =>
      exact fun d => or_congr (iha d) (ihb d)
  | ite _ c a b ihc iha ihb => exact fun d => or_congr (ihc d) (or_congr (iha d) (ihb d))
  | quant _ vars body _ pattern ih ihpattern =>
      intro d
      simp only [Expr.replace, Expr.Uses, Expr.Occurs, Nat.add_right_comm d index, ih, ihpattern]

theorem position?_eq_some_iff (hvars : vars.Nodup) :
    position? vars x = some index ↔ vars.reverse[index]? = some x := by
  rw [position?, List.idxOf?_eq_some_iff, List.getElem?_eq_some_iff]
  constructor
  · rintro ⟨hindex, hx, -⟩
    exact ⟨hindex, hx⟩
  · rintro ⟨hindex, hx⟩
    refine ⟨hindex, hx, fun j hj hjx => ?_⟩
    have heq := (List.nodup_reverse.2 hvars).getElem_inj_iff.1 (hjx.trans hx.symm)
    omega

/-- **A bound variable occurs where its constant did**, under a quantifier over distinct
variables. -/
theorem uses_bindSymbols (hvars : vars.Nodup) (hx : vars.reverse[index]? = some x) {s : Shape}
    (e : Expr s) :
    (e.bindSymbols vars).Uses patterns x.kind index ↔ e.Occurs patterns x := by
  have hindex : index < vars.length := by
    simpa using (List.getElem?_eq_some_iff.1 hx).1
  have hplace (y : Symbol) : position? vars y = some index ↔ x = y := by
    rw [position?_eq_some_iff hvars, hx, Option.some_inj]
  rw [← Nat.zero_add index]
  refine uses_replace (fun d kind name => ?_) (fun d kind index' => ?_) e 0
  · rw [← hplace]
    cases hname : position? vars ⟨name, kind⟩ with
    | none => simp [hname, Expr.Uses]
    | some place =>
        simp only [hname, Expr.Uses, Option.some_inj, Nat.add_left_cancel_iff]
        refine and_iff_right_of_imp fun hindex => ?_
        rw [(hplace _).1 (hname.trans (congrArg some hindex))]
  · -- loose variables have either kept a number below the depth or moved past all variables
    change ¬ (liftBound vars.length d kind index').Uses patterns x.kind (d + index)
    unfold liftBound
    split
    · rintro ⟨-, heq⟩
      omega
    · rintro ⟨-, heq⟩
      omega

end Logic

/-! ### What a trigger mentions -/

/-- A constant occurs in one of the terms of a trigger, outside of the patterns of quantifiers. -/
def Trigger.Covers (t : Trigger) (x : Symbol) : Prop :=
  ∃ a ∈ t.terms, a.term.Occurs False x

/-- A name is mentioned if a constant of that name, of whatever sort, occurs. -/
theorem Trigger.mem_mentions {t : Trigger} {name : String} :
    name ∈ t.mentions ↔ ∃ kind, t.Covers ⟨name, kind⟩ := by
  simp only [mentions, List.mem_flatMap, mem_names_iff_occurs, Covers]
  constructor
  · rintro ⟨a, ha, ⟨_, kind⟩, hoccurs, rfl⟩
    exact ⟨kind, a, ha, hoccurs⟩
  · rintro ⟨kind, a, ha, hoccurs⟩
    exact ⟨a, ha, ⟨name, kind⟩, hoccurs, rfl⟩

namespace Fact

variable {f : Fact} {t : Trigger}

/-! ### Facts that are accepted -/

theorem mem_missing_iff (ht : f.trigger = some t) {name : String} :
    name ∈ f.missing ↔ name ∈ f.vars.map Symbol.name ∧ ∀ kind, ¬ t.Covers ⟨name, kind⟩ := by
  simp only [missing, ht, List.mem_filter, Bool.not_eq_true', List.contains_eq_mem,
    decide_eq_false_iff_not, Trigger.mem_mentions, not_exists]

/-- Nothing is missing just if the trigger mentions the name of each variable. -/
theorem missing_eq_nil_iff : f.missing = [] ↔
    ∀ t, f.trigger = some t → ∀ x ∈ f.vars, ∃ kind, t.Covers ⟨x.name, kind⟩ := by
  cases ht : f.trigger with
  | none => simp [missing, ht]
  | some t =>
      simp [List.eq_nil_iff_forall_not_mem, mem_missing_iff ht]

theorem checked_cases (f : Fact) : f.checked = .ok f ∧ f.missing = [] ∨
    ∃ t, f.trigger = some t ∧ f.checked = .error (.uncovered t f.name f.missing) ∧
      f.missing ≠ [] := by
  unfold checked
  split
  · rename_i t first others ht hmissing
    exact .inr ⟨t, ht, by rw [hmissing], by rw [hmissing]; exact List.cons_ne_nil _ _⟩
  · rename_i hnone
    refine .inl ⟨rfl, ?_⟩
    cases ht : f.trigger with
    | none => simp [missing, ht]
    | some t =>
        cases hmissing : f.missing with
        | nil => rfl
        | cons first others => exact absurd hmissing (hnone t first others ht)

/-- **A fact is accepted** just if its trigger mentions the name of each of its variables. -/
theorem checked_eq_ok_iff : f.checked = .ok f ↔
    ∀ t, f.trigger = some t → ∀ x ∈ f.vars, ∃ kind, t.Covers ⟨x.name, kind⟩ := by
  rw [← missing_eq_nil_iff]
  rcases f.checked_cases with ⟨hok, hmissing⟩ | ⟨t, -, herror, hmissing⟩
  · exact iff_of_true hok hmissing
  · exact iff_of_false (by rw [herror]; rintro ⟨⟩) hmissing

/-! ### The pattern of a fact -/

/-- The quantifier of a fact has its trigger as the pattern. -/
theorem formula_eq_quant (ht : f.trigger = some t) (hvars : f.vars ≠ []) :
    f.formula = .quant .all f.vars (f.matrix.bindSymbols f.vars) f.label
      ((Expr.ofTerms t.terms).bindSymbols f.vars) := by
  unfold formula
  rw [if_neg (by rwa [List.isEmpty_iff]), ht]
  rfl

/-- **What occurs in the pattern of a fact**: the bound variables whose constants occur in the
trigger. -/
theorem uses_pattern_iff (hvars : f.vars.Nodup) {x : Symbol} {index : Nat}
    (hx : f.vars.reverse[index]? = some x) :
    ((Expr.ofTerms t.terms).bindSymbols f.vars).Uses False x.kind index ↔ t.Covers x :=
  (uses_bindSymbols hvars hx _).trans (occurs_ofTerms _)

/-- A fact that can be quantified with its trigger as the pattern has all its variables there. -/
theorem covers_of_formula? {φ : Formula} (h : f.formula? = .ok φ) (ht : f.trigger = some t)
    (hvars : f.vars ≠ []) : ∀ x ∈ f.vars, t.Covers x := by
  have hfault : f.fault? = none := by
    unfold formula? barring at h
    split at h
    · assumption
    · cases h
  have hpattern : isPattern f.vars t.terms = true := by
    unfold fault? quantifiedFault? at hfault
    rw [if_neg (by rwa [List.isEmpty_iff]), ht] at hfault
    simp only [Option.map_some, Option.getD_some, Option.orElse_eq_orElse, Option.orElse_eq_or,
      Option.or_eq_none_iff] at hfault
    obtain ⟨-, -, -, -, hterms⟩ := hfault
    simpa [Trigger.terms] using hterms
  intro x hx
  simp only [isPattern, Bool.and_eq_true, List.all_eq_true] at hpattern
  have hmem := hpattern.2 x hx
  rw [List.contains_iff_mem, List.mem_flatMap] at hmem
  obtain ⟨a, ha, hx⟩ := hmem
  exact ⟨a, ha, mem_constants_iff.1 hx⟩

/-- No constant in the trigger is called like a variable and of another sort. -/
def Clear (f : Fact) : Prop :=
  ∀ t, f.trigger = some t → ∀ x ∈ f.vars, ∀ kind, t.Covers ⟨x.name, kind⟩ → kind = x.kind

theorem Clear.covers_iff (h : f.Clear) (ht : f.trigger = some t) {x : Symbol} (hx : x ∈ f.vars) :
    (∃ kind, t.Covers ⟨x.name, kind⟩) ↔ t.Covers x := by
  constructor
  · rintro ⟨kind, hcovers⟩
    obtain rfl := h t ht x hx kind hcovers
    exact hcovers
  · exact fun hcovers => ⟨x.kind, hcovers⟩

/-- **Accepted triggers cover their quantifiers**, names of two sorts apart.  A fact is accepted
just if its trigger mentions the names of all its variables, and refused for the names that are
missing otherwise.  If no constant in the trigger is called like a variable and of another sort,
then it is accepted just if each variable, as the constant that it is, occurs in the trigger.  A
variable is bound in the pattern of the formula where its constant occurred in the trigger, so that
all variables are, if the fact is accepted and has no such constants, and in any case if there is a
formula at all. -/
theorem checked_covers (hvars : f.vars.Nodup) :
    (f.checked = .ok f ↔
        ∀ t, f.trigger = some t → ∀ x ∈ f.vars, ∃ kind, t.Covers ⟨x.name, kind⟩) ∧
      (f.checked ≠ .ok f → ∃ t names, f.trigger = some t ∧
        f.checked = .error (.uncovered t f.name names) ∧ ∀ name, name ∈ names ↔
          name ∈ f.vars.map Symbol.name ∧ ∀ kind, ¬ t.Covers ⟨name, kind⟩) ∧
      (f.Clear → (f.checked = .ok f ↔
        ∀ t, f.trigger = some t → ∀ x ∈ f.vars, t.Covers x)) ∧
      ∀ t, f.trigger = some t → f.vars ≠ [] → ∃ body id pattern,
        f.formula = .quant .all f.vars body id pattern ∧
          (∀ x index, f.vars.reverse[index]? = some x →
            (pattern.Uses False x.kind index ↔ t.Covers x)) ∧
          (f.Clear ∧ f.checked = .ok f ∨ (∃ φ, f.formula? = .ok φ) →
            ∀ x index, f.vars.reverse[index]? = some x → pattern.Uses False x.kind index) := by
  have hclear (h : f.Clear) : f.checked = .ok f ↔
      ∀ t, f.trigger = some t → ∀ x ∈ f.vars, t.Covers x := by
    rw [checked_eq_ok_iff]
    exact forall₂_congr fun t ht => forall₂_congr fun x hx => h.covers_iff ht hx
  refine ⟨checked_eq_ok_iff, fun hrefused => ?_, hclear, fun t ht hne => ?_⟩
  · rcases f.checked_cases with ⟨hok, -⟩ | ⟨t, ht, herror, -⟩
    · exact absurd hok hrefused
    · exact ⟨t, f.missing, ht, herror, fun name => mem_missing_iff ht⟩
  · refine ⟨_, _, _, formula_eq_quant ht hne, fun x index hx => uses_pattern_iff hvars hx, ?_⟩
    intro h x index hx
    have hmem : x ∈ f.vars := List.mem_reverse.1 (List.mem_of_getElem? hx)
    rw [uses_pattern_iff hvars hx]
    rcases h with ⟨h, hok⟩ | ⟨φ, hφ⟩
    · exact (hclear h).1 hok t ht x hmem
    · exact covers_of_formula? hφ ht hne x hmem

/-- A function that does not increase: a fact with a trigger of two terms. -/
def descending : Fact :=
  let f (name : String) : IntTerm := Term.apply .int "f" [Term.int name]
  .about "descending" ["x", "y"] (.eq .int (Term.int "y") (Term.succ (Term.int "x")))
    (.order .le (f "y") (f "x")) (some (.ofInts (f "x") [f "y"]))

/-- It is accepted, and both variables occur in its pattern. -/
theorem checked_covers_descending : descending.vars.Nodup ∧ descending.checked = .ok descending ∧
    ∃ body id pattern, descending.formula = .quant .all descending.vars body id pattern ∧
      pattern.Uses False .int 0 ∧ pattern.Uses False .int 1 := by
  have hvars : descending.vars.Nodup := by decide
  obtain ⟨-, -, -, hpattern⟩ := checked_covers hvars
  obtain ⟨body, id, pattern, hformula, -, huses⟩ := hpattern _ rfl (by decide)
  have huses := huses (.inr ⟨descending.formula, rfl⟩)
  have hcovered := missing_eq_nil_iff.1 (show descending.missing = [] by decide +kernel)
  exact ⟨hvars, checked_eq_ok_iff.2 hcovered, body, id, pattern, hformula,
    huses (.int "y") 0 rfl, huses (.int "x") 1 rfl⟩

/-- A fact about a truth value, with an integer of the same name in its trigger. -/
def clash : Fact :=
  { name := "clash"
    vars := [⟨"x", .bool⟩]
    guard := .lit true
    body := .const .bool "x"
    trigger := some (.ofInts (Term.apply .int "f" [Term.int "x"]) [])
    step := none }

/-- **A name of two sorts lets a variable go uncovered**: the fact is accepted, though its variable
occurs nowhere in its trigger, and then there is no formula for it. -/
theorem checked_clash : clash.vars.Nodup ∧ clash.checked = .ok clash ∧
    (∃ t x, clash.trigger = some t ∧ x ∈ clash.vars ∧
      ¬ ∃ a ∈ t.terms, a.term.Occurs True x) ∧
    clash.formula? = .error (.form .pattern) := by
  have hcovered := missing_eq_nil_iff.1 (show clash.missing = [] by decide +kernel)
  refine ⟨by decide, checked_eq_ok_iff.2 hcovered, ⟨_, ⟨"x", .bool⟩, rfl, by decide, ?_⟩, rfl⟩
  rintro ⟨a, ha, hoccurs⟩
  obtain rfl := List.mem_singleton.1 ha
  obtain hoccurs | ⟨⟨⟩⟩ := hoccurs
  cases hoccurs

end Fact

end CandyCircle
