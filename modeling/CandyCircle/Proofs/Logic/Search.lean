/-
**The search for names.**

A search passes a term over once it was seen, although the parts of that term, or theirs, may still
be waiting then.  What it finds in the end is right nevertheless, because at every moment the parts
of what was seen were seen or wait: when nothing waits any more, whatever was seen was seen with all
its parts.  So a search finds the names of exactly those constants that recursion collects, in
whatever places a term occurs.

Main definitions:

* `CandyCircle.Logic.AnyTerm.Mentions` — a constant of a name is among those of a term;
* `CandyCircle.Logic.Underway` — **what holds at every moment of a search**.

Main results:

* `CandyCircle.Logic.mentions_iff` — what a term mentions it mentions itself, or a part of it does;
* `CandyCircle.Logic.Underway.again`, `CandyCircle.Logic.Underway.visit` — the two kinds of steps;
* `CandyCircle.Logic.mem_names_iff` — **the search finds the names of the collected constants**.
-/
import CandyCircle.Logic.Names

set_option autoImplicit false

namespace CandyCircle.Logic

variable {t : AnyTerm} {waiting rest seen : List AnyTerm} {name : String} {names : List String}

/-! ### What terms mention -/

/-- A constant of a name is among those of a term. -/
def AnyTerm.Mentions (t : AnyTerm) (name : String) : Prop :=
  ∃ x ∈ t.term.constants, x.name = name

/-- What a list mentions is what its members mention. -/
theorem constants_list {kind : Kind} : (as : Expr (.many kind)) →
    as.constants = as.parts.flatMap fun p => p.term.constants
  | .nil _ => rfl
  | .cons _ a rest => by
      rw [Expr.constants, Expr.parts, List.flatMap_cons, constants_list rest]

/-- The constants of a term are itself, if it is one, and those of its parts. -/
theorem constants_eq (t : AnyTerm) :
    t.term.constants = t.symbol?.toList ++ t.term.parts.flatMap fun p => p.term.constants := by
  obtain ⟨kind, t⟩ := t
  cases t with
  | and as | or as | app _ _ as => exact constants_list as
  | _ => simp [Expr.constants, Expr.parts, AnyTerm.symbol?]

/-- **What a term mentions** it mentions itself, as a constant, or one of its parts does. -/
theorem mentions_iff : t.Mentions name ↔
    (∃ x, t.symbol? = some x ∧ x.name = name) ∨ ∃ p ∈ t.term.parts, p.Mentions name := by
  simp only [AnyTerm.Mentions, constants_eq t, List.mem_append, Option.mem_toList,
    List.mem_flatMap]
  constructor
  · rintro ⟨x, hx | ⟨p, hp, hx⟩, rfl⟩
    · exact Or.inl ⟨x, hx, rfl⟩
    · exact Or.inr ⟨p, hp, x, hx, rfl⟩
  · rintro (⟨x, hx, rfl⟩ | ⟨p, hp, x, hx, rfl⟩)
    · exact ⟨x, Or.inl hx, rfl⟩
    · exact ⟨x, Or.inr ⟨p, hp, hx⟩, rfl⟩

theorem mem_noted :
    name ∈ t.noted names ↔ (∃ x, t.symbol? = some x ∧ x.name = name) ∨ name ∈ names := by
  unfold AnyTerm.noted
  cases t.symbol? with
  | none => simp
  | some x => simp [List.mem_insert_iff, eq_comm]

/-! ### Steps of a search -/

/-- **What holds at every moment of a search.** -/
structure Underway (waiting seen : List AnyTerm) (names : List String) : Prop where
  /-- The parts of what was seen were seen as well, or wait. -/
  closed : ∀ t ∈ seen, ∀ p ∈ t.term.parts, p ∈ seen ∨ p ∈ waiting
  /-- The constants that were seen have their names noted. -/
  found : ∀ t ∈ seen, ∀ x, t.symbol? = some x → x.name ∈ names

namespace Underway

theorem start (waiting : List AnyTerm) (names : List String) : Underway waiting [] names :=
  ⟨by simp, by simp⟩

/-- A term that was seen before need not wait. -/
theorem again (h : Underway (t :: rest) seen names) (ht : t ∈ seen) : Underway rest seen names where
  closed u hu p hp := by
    rcases h.closed u hu p hp with hp | hp
    · exact Or.inl hp
    · rcases List.mem_cons.1 hp with rfl | hp
      · exact Or.inl ht
      · exact Or.inr hp
  found := h.found

/-- A term is looked at, and its parts wait in its place. -/
theorem visit (h : Underway (t :: rest) seen names) :
    Underway (t.term.parts.reverse ++ rest) (t :: seen) (t.noted names) where
  closed u hu p hp := by
    rcases List.mem_cons.1 hu with rfl | hu
    · exact Or.inr (List.mem_append_left _ (List.mem_reverse.2 hp))
    · rcases h.closed u hu p hp with hp | hp
      · exact Or.inl (List.mem_cons_of_mem _ hp)
      · rcases List.mem_cons.1 hp with rfl | hp
        · exact Or.inl List.mem_cons_self
        · exact Or.inr (List.mem_append_right _ hp)
  found u hu x hx := by
    rcases List.mem_cons.1 hu with rfl | hu
    · exact mem_noted.2 (Or.inl ⟨x, hx, rfl⟩)
    · exact mem_noted.2 (Or.inr (h.found u hu x hx))

/-- **When nothing waits any more**, all that was seen has its names noted. -/
theorem finish (h : Underway [] seen names) {t : AnyTerm} (ht : t ∈ seen)
    (hname : t.Mentions name) : name ∈ names := by
  rcases mentions_iff.1 hname with ⟨x, hx, rfl⟩ | ⟨p, hp, hname⟩
  · exact h.found t ht x hx
  · have hseen : p ∈ seen := (h.closed t ht p hp).resolve_right List.not_mem_nil
    exact finish h hseen hname
termination_by t.term.size
decreasing_by exact size_lt_of_mem_parts hp

end Underway

/-! ### Runs of a search -/

/-- Whatever waits, or was seen, has its names found in the end. -/
theorem mem_search_of_mentions (h : Underway waiting seen names) (ht : t ∈ waiting ∨ t ∈ seen)
    (hname : t.Mentions name) : name ∈ search waiting seen names := by
  fun_induction search waiting seen names with
  | case1 seen names => exact h.finish (ht.resolve_left List.not_mem_nil) hname
  | case2 seen names u rest hu ih =>
      refine ih (h.again hu) ?_
      rcases ht with ht | ht
      · rcases List.mem_cons.1 ht with rfl | ht
        · exact Or.inr hu
        · exact Or.inl ht
      · exact Or.inr ht
  | case3 seen names u rest _ ih =>
      refine ih h.visit ?_
      rcases ht with ht | ht
      · rcases List.mem_cons.1 ht with rfl | ht
        · exact Or.inr List.mem_cons_self
        · exact Or.inl (List.mem_append_right _ ht)
      · exact Or.inr (List.mem_cons_of_mem _ ht)

/-- Nothing is found besides what was noted before and what the waiting terms mention. -/
theorem mem_of_mem_search (h : name ∈ search waiting seen names) :
    name ∈ names ∨ ∃ t ∈ waiting, t.Mentions name := by
  fun_induction search waiting seen names with
  | case1 seen names => exact Or.inl h
  | case2 seen names u rest _ ih =>
      exact (ih h).imp_right fun ⟨t, ht, hname⟩ => ⟨t, List.mem_cons_of_mem _ ht, hname⟩
  | case3 seen names u rest _ ih =>
      rcases ih h with hname | ⟨t, ht, hname⟩
      · rcases mem_noted.1 hname with hown | hname
        · exact Or.inr ⟨u, List.mem_cons_self, mentions_iff.2 (Or.inl hown)⟩
        · exact Or.inl hname
      · rcases List.mem_append.1 ht with ht | ht
        · exact Or.inr ⟨u, List.mem_cons_self,
            mentions_iff.2 (Or.inr ⟨t, List.mem_reverse.1 ht, hname⟩)⟩
        · exact Or.inr ⟨t, List.mem_cons_of_mem _ ht, hname⟩

/-- **The search finds the names of the collected constants**, and no others. -/
theorem mem_names_iff {kind : Kind} {t : Term kind} :
    name ∈ t.names ↔ ∃ x ∈ t.constants, x.name = name := by
  constructor
  · intro h
    rcases mem_of_mem_search h with hname | ⟨u, hu, hname⟩
    · exact absurd hname List.not_mem_nil
    · rwa [List.mem_singleton.1 hu] at hname
  · intro h
    exact mem_search_of_mentions (.start _ _) (Or.inl List.mem_cons_self) (t := ⟨kind, t⟩) h

end CandyCircle.Logic
