/-
**The nearest settings file.**

The settings file of a run is looked for directory by directory: in the one that the search starts
from, then in the one above it, and so on until the directory above is the same one, which is the
root.  In each of them the preferred name comes first.  What is found is the file of the deepest
directory on the way that has one at all, so that a file of the other name below wins over one of
the preferred name above.

Main definitions:

* `CandyCircle.FileTree.HasFile` — a file, and no directory, stands at a path;
* `CandyCircle.FileTree.Seeks` — **the search from directory to directory**;
* `CandyCircle.FileTree.Nearest` — **a settings file is nearest** to a directory.

Main results:

* `CandyCircle.Path.mem_upwards` — the directories above a path are its beginnings;
* `CandyCircle.FileTree.seeks_iff` — the search ends, and it ends with what is found;
* `CandyCircle.FileTree.settingsIn?_eq_some_iff` — the settings file of a directory;
* `CandyCircle.FileTree.nearest_wins` — **the nearest settings file is found**.
-/
import CandyCircle.Settings.Search
import Mathlib.Data.List.Induction

set_option autoImplicit false

namespace CandyCircle

/-! ### Going up -/

namespace Path

theorem upwards_nil : upwards [] = [[]] := rfl

/-- A directory comes before the one above it. -/
theorem upwards_concat (p : Path) (name : String) :
    upwards (p ++ [name]) = (p ++ [name]) :: upwards p := by
  unfold upwards
  rw [List.length_append, List.length_singleton, List.range_succ_eq_map, List.map_cons,
    List.map_map]
  refine congrArg₂ List.cons ?_ (List.map_congr_left fun n _ => ?_)
  · rw [Nat.sub_zero, List.take_of_length_le (by simp)]
  · rw [Function.comp, Nat.succ_eq_add_one, Nat.add_sub_add_right]
    exact List.take_append_of_le_length (Nat.sub_le _ _)

/-- The directories above a path are its beginnings. -/
theorem mem_upwards {p d : Path} : d ∈ upwards p ↔ d <+: p := by
  induction p using List.reverseRecOn with
  | nil => rw [upwards_nil, List.mem_singleton, List.prefix_nil]
  | append_singleton p name ih => rw [upwards_concat, List.mem_cons, ih, List.prefix_concat_iff]

end Path

namespace FileTree

variable {t : FileTree} {start d path : Path} {name : String}

/-! ### The settings file of a directory -/

/-- A file, and no directory, stands at a path. -/
def HasFile (t : FileTree) (p : Path) : Prop :=
  ∃ bytes, t.entry? p = some (.file bytes)

theorem isFile_iff {p : Path} : t.isFile p = true ↔ t.HasFile p := by
  unfold isFile HasFile
  split
  · rename_i bytes h
    exact iff_of_true rfl ⟨bytes, h⟩
  · rename_i h
    exact iff_of_false Bool.false_ne_true fun ⟨bytes, hbytes⟩ => h bytes hbytes

/-- A file that stands somewhere is listed. -/
theorem mem_entries_of_file {p : Path} {bytes : List UInt8}
    (h : t.entry? p = some (.file bytes)) : (p, .file bytes) ∈ t.entries := by
  unfold entry? at h
  split at h
  · rename_i e he
    have hp := List.find?_some he
    rw [← beq_iff_eq.1 hp, ← Option.some.inj h]
    exact List.mem_of_find?_eq_some he
  · split at h <;> cases h

/-- **The settings file of a directory** bears the preferred name if there is a file of that name,
and the other one otherwise. -/
theorem settingsIn?_eq_some_iff : t.settingsIn? d = some path ↔
    ∃ name ∈ Settings.fileNames, t.HasFile (d ++ [name]) ∧
      (t.HasFile (d ++ [".candyproofrc.json"]) → name = ".candyproofrc.json") ∧
      path = d ++ [name] := by
  have hother : "candyproof.config.json" ≠ ".candyproofrc.json" := by decide
  unfold settingsIn? Settings.fileNames
  simp only [List.map_cons, List.map_nil, List.find?_cons, List.find?_nil, List.mem_cons,
    List.not_mem_nil, or_false, exists_eq_or_imp, exists_eq_left, ← isFile_iff]
  cases h : t.isFile (d ++ [".candyproofrc.json"]) with
  | true =>
      constructor
      · rintro ⟨⟩
        exact .inl ⟨rfl, fun _ => trivial, rfl⟩
      · rintro (⟨-, -, rfl⟩ | ⟨-, hname, -⟩)
        · rfl
        · exact absurd (hname rfl) hother
  | false =>
      cases h' : t.isFile (d ++ ["candyproof.config.json"]) with
      | true =>
          constructor
          · rintro ⟨⟩
            exact .inr ⟨rfl, fun hname => absurd hname Bool.false_ne_true, rfl⟩
          · rintro (⟨hfile, -⟩ | ⟨-, -, rfl⟩)
            · cases hfile
            · rfl
      | false => simp

theorem settingsIn?_eq_none_iff : t.settingsIn? d = none ↔
    ∀ name ∈ Settings.fileNames, ¬ t.HasFile (d ++ [name]) := by
  simp [settingsIn?, ← isFile_iff]

/-! ### The search -/

/-- **The search from directory to directory**, and what it ends with. -/
inductive Seeks (t : FileTree) : Path → Option Path → Prop where
  /-- The directory has a settings file. -/
  | here {d path : Path} (hfound : t.settingsIn? d = some path) : Seeks t d (some path)
  /-- It has none, and the search goes on in the directory above it. -/
  | above {d : Path} {r : Option Path} (hnone : t.settingsIn? d = none) (hparent : d.dropLast ≠ d)
      (hrest : Seeks t d.dropLast r) : Seeks t d r
  /-- It has none, and is itself the directory above it. -/
  | root {d : Path} (hnone : t.settingsIn? d = none) (hparent : d.dropLast = d) : Seeks t d none

theorem findSettings_nil : t.findSettings [] = t.settingsIn? [] := by
  rw [findSettings, Path.upwards_nil, List.findSome?_singleton]

theorem findSettings_concat (p : Path) (name : String) : t.findSettings (p ++ [name]) =
    (t.settingsIn? (p ++ [name])).or (t.findSettings p) := by
  rw [findSettings, Path.upwards_concat, List.findSome?_cons]
  cases t.settingsIn? (p ++ [name]) <;> rfl

/-- The search has an end, and what is found is what it ends with. -/
theorem seeks_findSettings (t : FileTree) (d : Path) : t.Seeks d (t.findSettings d) := by
  induction d using List.reverseRecOn with
  | nil =>
      rw [findSettings_nil]
      cases h : t.settingsIn? [] with
      | none => exact .root h rfl
      | some path => exact .here h
  | append_singleton p name ih =>
      rw [findSettings_concat]
      cases h : t.settingsIn? (p ++ [name]) with
      | some path => exact .here h
      | none =>
          refine .above h (by simp) ?_
          rw [List.dropLast_concat, Option.none_or]
          exact ih

theorem Seeks.unique {r r' : Option Path} (h : t.Seeks d r) (h' : t.Seeks d r') : r = r' := by
  induction h with
  | here hfound =>
      cases h' with
      | here hfound' => exact hfound.symm.trans hfound'
      | above hnone | root hnone => cases hfound.symm.trans hnone
  | above hnone hparent _ ih =>
      cases h' with
      | here hfound => cases hfound.symm.trans hnone
      | above _ _ hrest => exact ih hrest
      | root _ hroot => exact absurd hroot hparent
  | root hnone hparent =>
      cases h' with
      | here hfound => cases hfound.symm.trans hnone
      | above _ hup => exact absurd hparent hup
      | root => rfl

/-- **The search ends with what is found**, and with nothing else. -/
theorem seeks_iff {r : Option Path} : t.Seeks start r ↔ t.findSettings start = r :=
  ⟨fun h => (seeks_findSettings t start).unique h, fun h => h ▸ seeks_findSettings t start⟩

/-! ### What is found -/

/-- What is found is the settings file of the deepest directory that has one. -/
theorem findSettings_eq_some_iff : t.findSettings start = some path ↔
    ∃ d, d <+: start ∧ t.settingsIn? d = some path ∧
      ∀ d', d' <+: start → t.settingsIn? d' ≠ none → d'.length ≤ d.length := by
  induction start using List.reverseRecOn with
  | nil => simp [findSettings_nil, List.prefix_nil]
  | append_singleton p name ih =>
      rw [findSettings_concat]
      cases h : t.settingsIn? (p ++ [name]) with
      | none =>
          -- the directory that the search starts from has none and does not count
          rw [Option.none_or, ih]
          refine exists_congr fun d => ?_
          simp only [List.prefix_concat_iff, or_and_right, or_imp, forall_and, forall_eq]
          constructor
          · rintro ⟨hd, hfound, hdeepest⟩
            exact .inr ⟨hd, hfound, fun hne => absurd h hne, hdeepest⟩
          · rintro (⟨rfl, hfound, -⟩ | ⟨hd, hfound, -, hdeepest⟩)
            · cases h.symm.trans hfound
            · exact ⟨hd, hfound, hdeepest⟩
      | some found =>
          rw [Option.some_or]
          constructor
          · rintro hfound
            exact ⟨p ++ [name], List.prefix_rfl, h.trans hfound, fun d' hd' _ => hd'.length_le⟩
          · rintro ⟨d, hd, hfound, hdeepest⟩
            have hlength := hdeepest _ List.prefix_rfl (by rw [h]; exact Option.some_ne_none found)
            obtain rfl := hd.eq_of_length_le hlength
            exact h.symm.trans hfound

theorem findSettings_eq_none_iff : t.findSettings start = none ↔
    ∀ d, d <+: start → ∀ name ∈ Settings.fileNames, ¬ t.HasFile (d ++ [name]) := by
  simp only [findSettings, List.findSome?_eq_none_iff, Path.mem_upwards, settingsIn?_eq_none_iff]

/-- **A settings file is nearest** to a directory: it stands in the deepest directory from there up
to the root that has a settings file, and under the preferred name if there is a file of that name,
too. -/
structure Nearest (t : FileTree) (start d : Path) (name : String) : Prop where
  /-- It stands in that directory or above it. -/
  above : d <+: start
  named : name ∈ Settings.fileNames
  /-- It is a file. -/
  file : t.HasFile (d ++ [name])
  /-- No directory further down has a settings file. -/
  deepest : ∀ d', d' <+: start → ∀ other ∈ Settings.fileNames, t.HasFile (d' ++ [other]) →
    d'.length ≤ d.length
  preferred : t.HasFile (d ++ [".candyproofrc.json"]) → name = ".candyproofrc.json"

/-- **The nearest settings file is found.**  In any file tree the search from directory to directory
ends, and only with what is found: the settings file that is nearest to the directory where the
search starts, or nothing just if no directory from there up to the root has a settings file.  A
directory is never found, whatever its name is. -/
theorem nearest_wins (t : FileTree) (start : Path) :
    (∀ r, t.Seeks start r ↔ t.findSettings start = r) ∧
      (∀ path, t.findSettings start = some path ↔
        ∃ d name, t.Nearest start d name ∧ path = d ++ [name]) ∧
      (t.findSettings start = none ↔
        ∀ d, d <+: start → ∀ name ∈ Settings.fileNames, ¬ t.HasFile (d ++ [name])) ∧
      ∀ path, t.entry? path = some .directory → t.findSettings start ≠ some path := by
  have hsome (path : Path) : t.findSettings start = some path ↔
      ∃ d name, t.Nearest start d name ∧ path = d ++ [name] := by
    have hholds (d' : Path) : t.settingsIn? d' ≠ none ↔
        ∃ other ∈ Settings.fileNames, t.HasFile (d' ++ [other]) := by
      rw [Ne, settingsIn?_eq_none_iff]
      push Not
      rfl
    simp only [findSettings_eq_some_iff, hholds, settingsIn?_eq_some_iff]
    constructor
    · rintro ⟨d, habove, ⟨name, hnamed, hfile, hpreferred, rfl⟩, hdeepest⟩
      exact ⟨d, name, ⟨habove, hnamed, hfile,
        fun d' hd' other hother h => hdeepest d' hd' ⟨other, hother, h⟩, hpreferred⟩, rfl⟩
    · rintro ⟨d, name, h, rfl⟩
      exact ⟨d, h.above, ⟨name, h.named, h.file, h.preferred, rfl⟩,
        fun d' hd' ⟨other, hother, hfile⟩ => h.deepest d' hd' other hother hfile⟩
  refine ⟨fun _ => seeks_iff, hsome, findSettings_eq_none_iff, fun path hpath hfound => ?_⟩
  obtain ⟨d, name, h, rfl⟩ := (hsome path).1 hfound
  obtain ⟨bytes, hbytes⟩ := h.file
  cases hpath.symm.trans hbytes

end FileTree

end CandyCircle
