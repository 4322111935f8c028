/-
**The entries of a lemma.**

A sub-lemma is named after its lemma with a slash in between, and the entries of a lemma are those
under its own name and under the names of its sub-lemmas.  A slash ends the name of a lemma, so that
a name which merely begins like another one is not below it: a name is above another one just if it
is a beginning of it once both end with a slash.  Hence names are ordered like a forest, in which
two names above a third one are above one another, and two lemmas share either no entry at all or
all entries of one of them.

Main definitions:

* `CandyCircle.Ledger.Above` — **a name is above another one**, or is the same.

Main results:

* `CandyCircle.Ledger.Above.trans`, `CandyCircle.Ledger.Above.above_or_above` — names are ordered
  like a forest;
* `CandyCircle.Ledger.mem_forLemma` — the entries of a lemma;
* `CandyCircle.Ledger.forLemma_sublist`, `CandyCircle.Ledger.disjoint_forLemma` — the entries of two
  lemmas are nested or disjoint.
-/
import CandyCircle.Ledger
import Mathlib.Data.List.Basic

set_option autoImplicit false

namespace CandyCircle.Ledger

/-! ### Names -/

/-- **A name is above another one**, or is the same: the other one goes on behind it with a
slash. -/
def Above (a b : String) : Prop :=
  b = a ∨ (a ++ "/").toList <+: b.toList

section Names

variable {a b c : String}

/-- A name is above another one just if it is a beginning of it once both end with a slash. -/
theorem above_iff : Above a b ↔ (a ++ "/").toList <+: (b ++ "/").toList := by
  have hslash (s : String) : (s ++ "/").toList = s.toList ++ ['/'] := by
    rw [String.toList_append]
    rfl
  rw [Above, hslash b, List.prefix_concat_iff, hslash a, List.append_left_inj, String.toList_inj]
  exact or_congr_left eq_comm

theorem Above.trans (h : Above a b) (h' : Above b c) : Above a c :=
  above_iff.2 ((above_iff.1 h).trans (above_iff.1 h'))

/-- Two names above a third one are above one another. -/
theorem Above.above_or_above (h : Above a c) (h' : Above b c) : Above a b ∨ Above b a :=
  (List.prefix_or_prefix_of_prefix (above_iff.1 h) (above_iff.1 h')).imp above_iff.2 above_iff.2

theorem belongsTo_iff : belongsTo a b = true ↔ Above a b := by
  simp [belongsTo, Above, List.isPrefixOf_iff_prefix]

end Names

/-! ### Entries -/

section Entries

variable {l : Ledger} {a b : String}

/-- **The entries of a lemma** are those under its own name and below it. -/
theorem mem_forLemma {o : Obligation} :
    o ∈ l.forLemma a ↔ o ∈ l.entries ∧ Above a o.lemmaName := by
  rw [forLemma, List.mem_filter, belongsTo_iff]

/-- The entries of a lemma stand in the order of the ledger. -/
theorem forLemma_sublist_entries (l : Ledger) (a : String) : (l.forLemma a).Sublist l.entries :=
  List.filter_sublist

/-- **A lemma has the entries of its sub-lemmas**, in the same order. -/
theorem forLemma_sublist (h : Above a b) : (l.forLemma b).Sublist (l.forLemma a) :=
  List.monotone_filter_right l.entries fun _ ho =>
    belongsTo_iff.2 (h.trans (belongsTo_iff.1 ho))

/-- **Lemmas of which none is below the other one have no entry in common.** -/
theorem disjoint_forLemma (h : ¬ Above a b) (h' : ¬ Above b a) :
    (l.forLemma a).Disjoint (l.forLemma b) := by
  intro o ha hb
  have hnested := (mem_forLemma.1 ha).2.above_or_above (mem_forLemma.1 hb).2
  exact hnested.elim h h'

end Entries

end CandyCircle.Ledger
