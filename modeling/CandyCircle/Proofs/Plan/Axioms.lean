/-
**Committing facts at the base.**

A run commits the axioms before it takes any step.  Nothing prevents that: the axioms bear different
names, no layer was opened before them, and each of them is a formula whatever fixes the number of
children.

Main definitions:

* `CandyCircle.Stance.ofFacts` — the stance at the base with some facts committed.

Main results:

* `CandyCircle.Proof.completes_commits` — facts under new names are committed one after another;
* `CandyCircle.Plan.assertAxioms_spec` — **the axioms are committed**.
-/
import CandyCircle.Proofs.Plan.Stages
import CandyCircle.Proofs.Refutation.Completing

set_option autoImplicit false

namespace CandyCircle

open Logic

/-! ### Facts at the base -/

/-- The stance at the base with some facts committed, before any layer was opened. -/
def Stance.ofFacts (fs : List Fact) (replies : List Prepared) : Stance where
  opened := []
  retired := []
  openings := 0
  issued := 0
  replies
  outcomes := []
  facts := fs.map fun f => (f.name, f)

namespace Proof

variable {fs gs : List Fact} {replies : List Prepared}

/-- Before any layer was opened nothing is retired. -/
theorem admits_ofFacts (f : Formula) : (Stance.ofFacts gs replies).Admits f :=
  fun _ _ => List.not_mem_nil

theorem completes_commit {f : Fact} (hnew : f.name ∉ gs.map Fact.name) (hfault : f.fault? = none) :
    Completes (commit f) (.ofFacts gs 0) (.ofFacts gs replies) [] fun _ V σ =>
      V = .ofFacts (gs ++ [f]) 0 ∧ σ = .ofFacts (gs ++ [f]) replies := by
  have hfind : (Stance.ofFacts gs replies).facts.find? (fun entry => entry.1 == f.name) = none := by
    refine List.find?_eq_none.2 fun entry hentry hname => hnew ?_
    obtain ⟨g, hg, rfl⟩ := List.mem_map.1 hentry
    exact List.mem_map.2 ⟨g, hg, by simpa using hname⟩
  refine (Completes.of_runs (runs_commit rfl f)
    (returns_commit rfl hfind hfault (admits_ofFacts _))).mono fun _ V σ h => ?_
  obtain ⟨rfl, rfl⟩ := h
  exact ⟨View.commit_ofFacts gs 0 f, by simp [Stance.commit, Stance.ofFacts]⟩

/-- Facts under new names are committed one after another. -/
theorem completes_commits (fs : List Fact) : ∀ {gs : List Fact},
    ((gs ++ fs).map Fact.name).Nodup → (∀ f ∈ fs, f.fault? = none) →
      Completes (fs.forM fun f => commit f) (.ofFacts gs 0) (.ofFacts gs replies) []
        fun _ V σ => V = .ofFacts (gs ++ fs) 0 ∧ σ = .ofFacts (gs ++ fs) replies := by
  induction fs with
  | nil =>
      intro gs _ _
      refine (yields_pure PUnit.unit).mono fun _ V σ h => ?_
      rw [List.append_nil]
      exact h.2
  | cons f rest ih =>
      intro gs hnodup hfaults
      obtain ⟨hfault, hrest⟩ := List.forall_mem_cons.1 hfaults
      have hnew : f.name ∉ gs.map Fact.name := by
        intro hmem
        rw [List.map_append, List.map_cons] at hnodup
        exact List.disjoint_of_nodup_append hnodup hmem List.mem_cons_self
      rw [List.append_cons] at hnodup ⊢
      refine (completes_commit hnew hfault).next fun _ V σ h => ?_
      obtain ⟨rfl, rfl⟩ := h
      exact ih hnodup hrest

/-- A committed fact is found if no two of them have the same name. -/
theorem yields_fact (hnodup : (fs.map Fact.name).Nodup) {f : Fact} (hf : f ∈ fs) :
    Yields (fact f.name) (.ofFacts fs 0) (.ofFacts fs replies) f := by
  have hknown : (View.ofFacts fs 0).find? f.name = some f :=
    (View.has_ofFacts hnodup (fun g hg => (List.mem_singleton.1 hg) ▸ hf) 0 f
      (List.mem_singleton_self f)).1
  obtain ⟨⟨name, g⟩, hfind, rfl⟩ := Option.map_eq_some_iff.1 hknown
  have hname : name = g.name := by simpa using List.find?_some hfind
  subst hname
  refine (Completes.of_runs (runs_fact rfl g.name) (returns_fact rfl hfind)).mono
    fun _ _ _ h => ⟨h.2.1, h.1.2, h.2.2⟩

end Proof

namespace Plan

open Proof Vocabulary

variable {v : Vocabulary}

/-- Every axiom is a formula. -/
theorem fault?_axioms : ∀ f ∈ v.axioms, f.fault? = none := by
  refine List.forall_mem_append.2 ⟨List.forall_mem_append.2 ⟨?_, ?_⟩, ?_⟩
  · exact List.forall_mem_singleton.2 (by decide)
  · -- what fixes the number of children stands under no condition
    intro f hf
    obtain ⟨fixed, -, rfl⟩ := Option.map_eq_some_iff.1 (Option.mem_toList.1 hf)
    rfl
  · decide

theorem nodup_axioms : (v.axioms.map Fact.name).Nodup := by
  have hnodup := nodup_names v
  rw [List.map_append] at hnodup
  exact hnodup.of_append_left

/-- **The axioms are committed** at the start of a run, without a query. -/
theorem assertAxioms_spec (v : Vocabulary) (options : Settings.Options) (replies : List Prepared) :
    let start := Context.start options replies
    ∃ c, outcome (assertAxioms v) start = (.ok ⟨⟩, c) ∧ start.Heard c [] ∧ c.depth = 0 ∧
      c.committed = v.axioms.map Fact.name := by
  intro start
  have hstart : start.Shows (.ofFacts [] 0) := ⟨rfl, rfl, rfl, rfl, rfl, rfl⟩
  have hcompletes : Completes (assertAxioms v) (.ofFacts [] 0) (.ofFacts [] replies) []
      fun _ V σ => V = .ofFacts ([] ++ v.axioms) 0 ∧ σ = .ofFacts ([] ++ v.axioms) replies :=
    completes_commits v.axioms nodup_axioms fault?_axioms
  obtain ⟨_, xs, c, hout, hheard, hxs, _, hshows, rfl, -⟩ := hcompletes start hstart rfl
  obtain rfl := List.map_eq_nil_iff.1 hxs
  exact ⟨c, hout, hheard, hshows.depth, hshows.committed⟩

end Plan

end CandyCircle
