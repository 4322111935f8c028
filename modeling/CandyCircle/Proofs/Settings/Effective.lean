/-
**The settings in effect.**

A settings file has to pass six checks, three of the kinds of its values before three of their
ranges.  The first that fails is the one reported, with the name of the setting that it is about.
What the command line says is put in place after that: it cannot mend a file that is refused, and
what it says about the timeout is the only thing that can spoil one that is not.  A timeout that is
not positive is reported like one in a file.  A timeout that is left blank is not: nothing looks at
what it is before it is held against zero.

Main definitions:

* `CandyCircle.Settings.Check`, `CandyCircle.Settings.Check.Fails` — the checks, and values that
  fail them;
* `CandyCircle.Settings.FirstFails` — **the first of several checks to fail**;
* `CandyCircle.Settings.Screens` — a computation ends in the fault of the first check to fail;
* `CandyCircle.Settings.InEffect` — **what settings a file and a line amount to**;
* `CandyCircle.Settings.Usable` — settings that a run can use;
* `CandyCircle.CommandLine.Surroundings.Holds` — the settings file of a run holds an object.

Main results:

* `CandyCircle.Settings.screens_ofFields` — a file is refused for the first check that fails;
* `CandyCircle.Settings.inEffect_ofFields`, `CandyCircle.Settings.InEffect.apply` — what the
  settings of a file are, and of a file and a line;
* `CandyCircle.Settings.overridden_eq` — the line may only spoil the timeout;
* `CandyCircle.CommandLine.effective_usable` — **the settings in effect are usable**;
* `CandyCircle.CommandLine.blank_timeout_unreported` — a timeout that is left blank ends a run
  without a report.
-/
import CandyCircle.CommandLine
import CandyCircle.Proofs.Settings.Search
import Mathlib.Logic.Basic

set_option autoImplicit false

namespace CandyCircle.Settings

open CodePoint (ofString)

variable {α β : Type} {data : Data}

/-! ### Words and texts -/

/-- A text names a format just if it is the word for it. -/
theorem ofText?_format_iff {points : List CodePoint} {f : OutputFormat} :
    OutputFormat.ofText? points = some f ↔ points = ofString f.word := by
  constructor
  · intro h
    have hword := List.find?_some h
    exact (beq_iff_eq.1 hword).symm
  · rintro rfl
    exact OutputFormat.ofText?_word f

/-- A text names a level just if its upper-case form is the word for it. -/
theorem ofText?_level_iff {points : List CodePoint} {l : LogLevel} :
    LogLevel.ofText? points = some l ↔ points.flatMap LogLevel.upperCase = ofString l.word := by
  constructor
  · intro h
    have hword := List.find?_some h
    exact (beq_iff_eq.1 hword).symm
  · intro h
    have hupper : (ofString l.word).flatMap LogLevel.upperCase = ofString l.word := by
      cases l <;> decide
    have hword := LogLevel.ofText?_word l
    unfold LogLevel.ofText? at hword ⊢
    rw [h, ← hupper]
    exact hword

/-! ### What an object sets -/

/-- The whole number that an object sets. -/
def whole? (data : Data) (key : String) : Option Int :=
  match data.field? key with
  | some (.int n) => some n
  | _ => none

/-- The truth value that an object sets. -/
def truth? (data : Data) (key : String) : Option Bool :=
  match data.field? key with
  | some (.bool b) => some b
  | _ => none

/-- The text of what an object sets. -/
def shown? (data : Data) (key : String) : Option (List CodePoint) :=
  (data.field? key).map Data.shown

/-- The settings that an object stands for, one field after another and then the checks. -/
theorem ofFields_eq (data : Data) : ofFields data = (do
    let timeout ← timeoutField data
    let record ← flagField data "record_smtlib2"
    let corollaries ← flagField data "corollaries"
    Draft.check
      { timeoutMs := timeout.getD 60000
        recordQueries := record.getD false
        format := (shown? data "format").getD (ofString "pretty")
        logLevel := (shown? data "log_level").getD (ofString "WARNING")
        corollaries := corollaries.getD true }) := by
  unfold ofFields Draft.ofFields
  simp only [bind_assoc, pure_bind]
  rfl

/-! ### The checks -/

/-- A check that the object in a settings file has to pass. -/
inductive Check where
  /-- The timeout is a whole number. -/
  | wholeTimeout
  /-- A flag is true or false. -/
  | isFlag (key : String)
  /-- The timeout is positive. -/
  | positiveTimeout
  /-- The format is one of the three. -/
  | knownFormat
  /-- The level is one of the four, in upper or lower case. -/
  | knownLevel

namespace Check

/-- The checks in their order: those of kinds come before those of ranges. -/
def inOrder : List Check :=
  [wholeTimeout, isFlag "record_smtlib2", isFlag "corollaries", positiveTimeout, knownFormat,
    knownLevel]

/-- The name of the setting that a check is about. -/
def key : Check → String
  | wholeTimeout | positiveTimeout => "timeout_ms"
  | isFlag key => key
  | knownFormat => "format"
  | knownLevel => "log_level"

/-- The values that a check rejects. -/
def Rejects : Check → Data → Prop
  | wholeTimeout, value => ∀ n, value ≠ .int n
  | isFlag _, value => ∀ b, value ≠ .bool b
  | positiveTimeout, value => ∃ n ≤ 0, value = .int n
  | knownFormat, value => ∀ f : OutputFormat, value.shown ≠ ofString f.word
  | knownLevel, value => ∀ l : LogLevel, value.shown.flatMap LogLevel.upperCase ≠ ofString l.word

/-- The fault that a rejected value is. -/
def fault : Check → Data → SettingsFault
  | wholeTimeout, value => .timeoutNotWhole value
  | isFlag key, value => .notFlag key value
  | positiveTimeout, value => .timeoutNotPositive value
  | knownFormat, value => .unknownFormat (.str value.shown)
  | knownLevel, value => .unknownLevel (.str value.shown)

/-- A check fails for a value that the object sets; what is left out fails no check. -/
def Fails (c : Check) (data value : Data) : Prop :=
  data.field? c.key = some value ∧ c.Rejects value

/-- A fault is reported by one record, with the name of the setting. -/
theorem record_fault (c : Check) (value : Data) :
    ∃ shown reason, (c.fault value).record? = some (.setting c.key shown reason) := by
  cases c <;> exact ⟨_, _, rfl⟩

end Check

/-! ### The first check to fail -/

/-- **The first of several checks to fail**, and the value that it fails for. -/
inductive FirstFails (data : Data) : List Check → Check → Data → Prop where
  /-- The first check fails. -/
  | here {c : Check} {cs : List Check} {value : Data} (hfails : c.Fails data value) :
      FirstFails data (c :: cs) c value
  /-- The first check passes, and another one is the first of the rest to fail. -/
  | later {c c' : Check} {cs : List Check} {value : Data} (hpasses : ∀ v, ¬ c.Fails data v)
      (hrest : FirstFails data cs c' value) : FirstFails data (c :: cs) c' value

namespace FirstFails

variable {cs cs' : List Check} {c c' : Check} {value value' : Data}

theorem mem (h : FirstFails data cs c value) : c ∈ cs ∧ c.Fails data value := by
  induction h with
  | here hfails => exact ⟨List.mem_cons_self, hfails⟩
  | later _ _ ih => exact ⟨List.mem_cons_of_mem _ ih.1, ih.2⟩

theorem append (h : FirstFails data cs c value) : FirstFails data (cs ++ cs') c value := by
  induction h with
  | here hfails => exact .here hfails
  | later hpasses _ ih => exact .later hpasses ih

theorem unique (h : FirstFails data cs c value) (h' : FirstFails data cs c' value') :
    c = c' ∧ value = value' := by
  induction h with
  | here hfails =>
      cases h' with
      | here hfails' => exact ⟨rfl, Option.some.inj (hfails.1.symm.trans hfails'.1)⟩
      | later hpasses => exact absurd hfails (hpasses _)
  | later hpasses _ ih =>
      cases h' with
      | here hfails' => exact absurd hfails' (hpasses _)
      | later _ hrest' => exact ih hrest'

end FirstFails

/-- If a check fails, then one of them is the first. -/
theorem exists_firstFails {cs : List Check} :
    (∃ c value, FirstFails data cs c value) ↔ ∃ c ∈ cs, ∃ value, c.Fails data value := by
  constructor
  · rintro ⟨c, value, h⟩
    exact ⟨c, h.mem.1, value, h.mem.2⟩
  · intro h
    induction cs with
    | nil => simp at h
    | cons d cs ih =>
        by_cases hd : ∃ value, d.Fails data value
        · obtain ⟨value, hd⟩ := hd
          exact ⟨d, value, .here hd⟩
        · rw [not_exists] at hd
          obtain ⟨c, hc, value, hfails⟩ := h
          obtain rfl | hc := List.mem_cons.1 hc
          · exact absurd hfails (hd value)
          · obtain ⟨c', value', hrest⟩ := ih ⟨c, hc, value, hfails⟩
            exact ⟨c', value', .later hd hrest⟩

theorem firstFails_append_of_passes {cs cs' : List Check} {c : Check} {value : Data}
    (hpasses : ∀ c ∈ cs, ∀ v, ¬ c.Fails data v) :
    FirstFails data (cs ++ cs') c value ↔ FirstFails data cs' c value := by
  induction cs with
  | nil => rfl
  | cons d cs ih =>
      rw [List.forall_mem_cons] at hpasses
      rw [List.cons_append, ← ih hpasses.2]
      constructor
      · rintro (hfails | ⟨-, hrest⟩)
        · exact absurd hfails (hpasses.1 _)
        · exact hrest
      · exact .later hpasses.1

/-! ### Computations that check -/

/-- A computation ends in a fault just if one of the checks fails, and then in that of the first. -/
def Screens (data : Data) (cs : List Check) (x : Except SettingsFault α) : Prop :=
  ∀ e, x = .error e ↔ ∃ c value, FirstFails data cs c value ∧ e = c.fault value

theorem screens_ok (a : α) : Screens data [] (.ok a) := by
  intro e
  refine iff_of_false (by rintro ⟨⟩) ?_
  rintro ⟨c, value, h, -⟩
  exact List.not_mem_nil h.mem.1

/-- A computation that looks at one setting is screened by one check: it ends in a fault if the
object sets a value that the check rejects, and goes through otherwise. -/
theorem screens_field (c : Check) (key : String) (hkey : c.key = key)
    {x : Except SettingsFault α} (hmissing : data.field? key = none → ∃ a, x = .ok a)
    (hrejected : ∀ value, data.field? key = some value → c.Rejects value →
      x = .error (c.fault value))
    (haccepted : ∀ value, data.field? key = some value → ¬ c.Rejects value → ∃ a, x = .ok a) :
    Screens data [c] x := by
  subst hkey
  have hfirst (c' : Check) (value : Data) :
      FirstFails data [c] c' value ↔ c' = c ∧ c.Fails data value := by
    constructor
    · intro h
      obtain ⟨hmem, hfails⟩ := h.mem
      obtain rfl := List.mem_singleton.1 hmem
      exact ⟨rfl, hfails⟩
    · rintro ⟨rfl, hfails⟩
      exact .here hfails
  intro e
  simp only [hfirst, Check.Fails]
  cases h : data.field? c.key with
  | none =>
      obtain ⟨a, rfl⟩ := hmissing h
      simp
  | some value =>
      by_cases hrejects : c.Rejects value
      · rw [hrejected value h hrejects]
        constructor
        · rintro ⟨⟩
          exact ⟨c, value, ⟨rfl, rfl, hrejects⟩, rfl⟩
        · rintro ⟨_, _, ⟨rfl, ⟨⟩, -⟩, rfl⟩
          rfl
      · obtain ⟨a, rfl⟩ := haccepted value h hrejects
        refine iff_of_false (by rintro ⟨⟩) ?_
        rintro ⟨_, _, ⟨-, ⟨⟩, hvalue⟩, -⟩
        exact hrejects hvalue

theorem Screens.passes {cs : List Check} {a : α} (h : Screens data cs (.ok a)) :
    ∀ c ∈ cs, ∀ value, ¬ c.Fails data value := by
  intro c hc value hfails
  obtain ⟨c', value', hfirst⟩ := exists_firstFails.2 ⟨c, hc, value, hfails⟩
  cases (h _).2 ⟨c', value', hfirst, rfl⟩

/-- What comes after a computation that checks is screened by the checks that come after its
own. -/
theorem Screens.bind {cs cs' : List Check} {x : Except SettingsFault α}
    {f : α → Except SettingsFault β} (hx : Screens data cs x)
    (hf : ∀ a, x = .ok a → Screens data cs' (f a)) : Screens data (cs ++ cs') (x >>= f) := by
  intro e
  cases x with
  | error e' =>
      obtain ⟨c, value, hfirst, rfl⟩ := (hx e').1 rfl
      constructor
      · rintro ⟨⟩
        exact ⟨c, value, hfirst.append, rfl⟩
      · rintro ⟨c', value', hfirst', rfl⟩
        obtain ⟨rfl, rfl⟩ := hfirst.append.unique hfirst'
        rfl
  | ok a =>
      simp only [firstFails_append_of_passes hx.passes]
      exact hf a rfl e

/-! ### The checks of a file -/

theorem screens_timeoutField (data : Data) :
    Screens data [.wholeTimeout] (timeoutField data) := by
  refine screens_field .wholeTimeout "timeout_ms" rfl (fun h => ?_) (fun value h hrejects => ?_)
    fun value h haccepts => ?_
  · exact ⟨none, by rw [timeoutField, h]⟩
  · rw [timeoutField, h]
    cases value with
    | int n => exact absurd rfl (hrejects n)
    | _ => rfl
  · obtain ⟨n, rfl⟩ := not_forall_not.1 haccepts
    exact ⟨some n, by rw [timeoutField, h]⟩

theorem screens_flagField (data : Data) (key : String) :
    Screens data [.isFlag key] (flagField data key) := by
  refine screens_field (.isFlag key) key rfl (fun h => ?_) (fun value h hrejects => ?_)
    fun value h haccepts => ?_
  · exact ⟨none, by rw [flagField, h]⟩
  · rw [flagField, h]
    cases value with
    | bool b => exact absurd rfl (hrejects b)
    | _ => rfl
  · obtain ⟨b, rfl⟩ := not_forall_not.1 haccepts
    exact ⟨some b, by rw [flagField, h]⟩

/-- The check of a timeout, on its own. -/
def checkTimeout (ms : Int) : Except SettingsFault Unit :=
  if ms ≤ 0 then .error (.timeoutNotPositive (.int ms)) else .ok ()

theorem screens_checkTimeout {timeout : Option Int} (h : timeoutField data = .ok timeout) :
    Screens data [.positiveTimeout] (checkTimeout (timeout.getD 60000)) := by
  refine screens_field .positiveTimeout "timeout_ms" rfl (fun hfield => ?_)
    (fun value hfield hrejects => ?_) fun value hfield haccepts => ?_
  · rw [timeoutField, hfield] at h
    cases h
    exact ⟨(), rfl⟩
  · obtain ⟨n, hn, rfl⟩ := hrejects
    rw [timeoutField, hfield] at h
    cases h
    exact if_pos hn
  · rw [timeoutField, hfield] at h
    cases value with
    | int n =>
        cases h
        exact ⟨(), if_neg fun hn => haccepts ⟨n, hn, rfl⟩⟩
    | _ => cases h

theorem screens_checkFormat (data : Data) : Screens data [.knownFormat]
    (checkFormat ((shown? data "format").getD (ofString "pretty"))) := by
  refine screens_field .knownFormat "format" rfl (fun h => ?_) (fun value h hrejects => ?_)
    fun value h haccepts => ?_
  · rw [shown?, h]
    exact ⟨.pretty, rfl⟩
  · rw [shown?, h, Option.map_some, Option.getD_some, checkFormat]
    cases hformat : OutputFormat.ofText? value.shown with
    | none => rfl
    | some f => exact absurd (ofText?_format_iff.1 hformat) (hrejects f)
  · obtain ⟨f, hf⟩ := not_forall_not.1 haccepts
    rw [shown?, h, Option.map_some, Option.getD_some, checkFormat, ofText?_format_iff.2 hf]
    exact ⟨f, rfl⟩

theorem screens_checkLevel (data : Data) : Screens data [.knownLevel]
    (checkLevel ((shown? data "log_level").getD (ofString "WARNING"))) := by
  refine screens_field .knownLevel "log_level" rfl (fun h => ?_) (fun value h hrejects => ?_)
    fun value h haccepts => ?_
  · rw [shown?, h]
    exact ⟨.warning, rfl⟩
  · rw [shown?, h, Option.map_some, Option.getD_some, checkLevel]
    cases hlevel : LogLevel.ofText? value.shown with
    | none => rfl
    | some l => exact absurd (ofText?_level_iff.1 hlevel) (hrejects l)
  · obtain ⟨l, hl⟩ := not_forall_not.1 haccepts
    rw [shown?, h, Option.map_some, Option.getD_some, checkLevel, ofText?_level_iff.2 hl]
    exact ⟨l, rfl⟩

theorem check_eq (d : Draft) : d.check = (do
    checkTimeout d.timeoutMs
    let format ← checkFormat d.format
    let logLevel ← checkLevel d.logLevel
    return { timeoutMs := d.timeoutMs, recordQueries := d.recordQueries, format, logLevel,
             corollaries := d.corollaries }) := by
  unfold Draft.check checkTimeout
  split <;> rfl

/-- **A file is refused for the first check that fails.** -/
theorem screens_ofFields (data : Data) : Screens data Check.inOrder (ofFields data) := by
  rw [ofFields_eq]
  refine (screens_timeoutField data).bind fun timeout htimeout => ?_
  refine (screens_flagField data _).bind fun record _ => ?_
  refine (screens_flagField data _).bind fun corollaries _ => ?_
  rw [check_eq]
  refine (screens_checkTimeout htimeout).bind fun _ _ => ?_
  refine (screens_checkFormat data).bind fun format _ => ?_
  refine (screens_checkLevel data).bind fun level _ => ?_
  exact screens_ok _

/-! ### What the settings are -/

/-- **What settings a file and a line amount to**: each is what the line says if it says anything
about it, else what the file says, else the default.  The text of a level is put into upper case. -/
structure InEffect (data : Data) (o : Overrides) (s : Settings) : Prop where
  timeoutMs : s.timeoutMs = (o.timeoutMs.or (whole? data "timeout_ms")).getD 60000
  recordQueries : s.recordQueries =
    ((if o.recordQueries then some true else none).or (truth? data "record_smtlib2")).getD false
  format : ofString s.format.word =
    ((o.format.map fun f => ofString f.word).or (shown? data "format")).getD (ofString "pretty")
  logLevel : ofString s.logLevel.word =
    ((o.logLevel?.map fun l => ofString l.word).or
      ((shown? data "log_level").map (List.flatMap LogLevel.upperCase))).getD (ofString "WARNING")
  corollaries : s.corollaries =
    ((if o.noCorollaries then some false else none).or (truth? data "corollaries")).getD true

/-- Settings that a run can use, and that pass the checks unchanged. -/
structure Usable (s : Settings) : Prop where
  timeoutMs : 0 < s.timeoutMs
  format : s.format.word ∈ ["pretty", "json", "smtlib2"]
  logLevel : s.logLevel.word ∈ ["DEBUG", "INFO", "WARNING", "ERROR"]
  unchanged : s.toDraft.check = .ok s

theorem usable_of_pos {s : Settings} (h : 0 < s.timeoutMs) : s.Usable where
  timeoutMs := h
  format := by cases s.format <;> decide
  logLevel := by cases s.logLevel <;> decide
  unchanged := check_toDraft s h

theorem exists_of_bind_eq_ok {x : Except SettingsFault α} {f : α → Except SettingsFault β} {b : β}
    (h : (x >>= f) = .ok b) : ∃ a, x = .ok a ∧ f a = .ok b := by
  cases x with
  | error e => cases h
  | ok a => exact ⟨a, rfl, h⟩

theorem timeoutField_ok {timeout : Option Int} (h : timeoutField data = .ok timeout) :
    timeout = whole? data "timeout_ms" := by
  unfold timeoutField at h
  unfold whole?
  split at h <;> cases h <;> simp_all

theorem flagField_ok {key : String} {flag : Option Bool} (h : flagField data key = .ok flag) :
    flag = truth? data key := by
  unfold flagField at h
  unfold truth?
  split at h <;> cases h <;> simp_all

theorem checkFormat_ok {points : List CodePoint} {f : OutputFormat}
    (h : checkFormat points = .ok f) : ofString f.word = points := by
  unfold checkFormat at h
  split at h
  · rename_i hformat
    cases h
    exact (ofText?_format_iff.1 hformat).symm
  · cases h

theorem checkLevel_ok {points : List CodePoint} {l : LogLevel} (h : checkLevel points = .ok l) :
    ofString l.word = points.flatMap LogLevel.upperCase := by
  unfold checkLevel at h
  split at h
  · rename_i hlevel
    cases h
    exact (ofText?_level_iff.1 hlevel).symm
  · cases h

/-- **What the settings of a file are**: what it says, and the defaults for what it leaves out. -/
theorem inEffect_ofFields {s : Settings} (h : ofFields data = .ok s) :
    InEffect data {} s ∧ 0 < s.timeoutMs := by
  rw [ofFields_eq] at h
  obtain ⟨timeout, htimeout, h⟩ := exists_of_bind_eq_ok h
  obtain ⟨record, hrecord, h⟩ := exists_of_bind_eq_ok h
  obtain ⟨corollaries, hcorollaries, h⟩ := exists_of_bind_eq_ok h
  rw [check_eq] at h
  obtain ⟨_, hpositive, h⟩ := exists_of_bind_eq_ok h
  obtain ⟨format, hformat, h⟩ := exists_of_bind_eq_ok h
  obtain ⟨level, hlevel, h⟩ := exists_of_bind_eq_ok h
  cases h
  refine ⟨⟨?_, ?_, ?_, ?_, ?_⟩, ?_⟩
  · rw [timeoutField_ok htimeout]
    rfl
  · rw [flagField_ok hrecord]
    rfl
  · exact checkFormat_ok hformat
  · rw [checkLevel_ok hlevel]
    cases shown? data "log_level" with
    | none =>
        have hdefault : (ofString "WARNING").flatMap LogLevel.upperCase = ofString "WARNING" := by
          decide
        exact hdefault
    | some points => rfl
  · rw [flagField_ok hcorollaries]
    rfl
  · unfold checkTimeout at hpositive
    split at hpositive
    · cases hpositive
    · rename_i hms
      exact Int.not_le.1 hms

/-! ### What the line says -/

/-- What the line says takes the place of what the file says. -/
theorem InEffect.apply {s : Settings} (h : InEffect data {} s) (o : Overrides) :
    InEffect data o (o.apply s) where
  timeoutMs := by
    cases ho : o.timeoutMs with
    | none => simpa [Overrides.apply, ho] using h.timeoutMs
    | some ms => simp [Overrides.apply, ho]
  recordQueries := by
    cases ho : o.recordQueries with
    | false => simpa [Overrides.apply, ho] using h.recordQueries
    | true => simp [Overrides.apply, ho]
  format := by
    cases ho : o.format with
    | none => simpa [Overrides.apply, ho] using h.format
    | some f => simp [Overrides.apply, ho]
  logLevel := by
    cases ho : o.logLevel? with
    | none =>
        have hlevel : (o.apply s).logLevel = s.logLevel := by rw [Overrides.apply, ho]; rfl
        rw [hlevel]
        exact h.logLevel
    | some l => simp [Overrides.apply, ho]
  corollaries := by
    cases ho : o.noCorollaries with
    | false => simpa [Overrides.apply, ho] using h.corollaries
    | true => simp [Overrides.apply, ho]

theorem apply_timeoutMs_pos_iff {s : Settings} (h : 0 < s.timeoutMs) (o : Overrides) :
    0 < (o.apply s).timeoutMs ↔ ∀ ms, o.timeoutMs = some ms → 0 < ms := by
  cases ho : o.timeoutMs with
  | none => simp [Overrides.apply, ho, h]
  | some ms => simp [Overrides.apply, ho]

/-- **The line may only spoil the timeout.** -/
theorem overridden_eq (s : Settings) (o : Overrides) : s.overridden o =
    if 0 < (o.apply s).timeoutMs then .ok (o.apply s)
    else .error (.timeoutNotPositive (.int (o.apply s).timeoutMs)) := by
  unfold overridden
  split
  · rename_i h
    exact check_toDraft _ h
  · rename_i h
    have hle : (o.apply s).toDraft.timeoutMs ≤ 0 := Int.not_lt.1 h
    rw [check_eq, checkTimeout, if_pos hle]
    rfl

end CandyCircle.Settings

namespace CandyCircle.CommandLine

open Settings

variable {s : Surroundings} {w : Wishes} {fields : List (List CodePoint × Data)}

/-! ### The settings of a run -/

/-- The bytes of the settings file of a run: of the one that the line names, or of the one that is
found. -/
inductive Surroundings.SettingsFile (s : Surroundings) (w : Wishes) (bytes : List UInt8) :
    Prop where
  /-- The line names the file. -/
  | named {name : List CodePoint} (hname : w.file = some (.filled name))
      (hfault : Text.Utf8.nameFault? name = none)
      (hnull : name.contains (.scalar '\x00') = false)
      (hopen : s.tree.open? s.here (CodePoint.toText name) = some bytes)
  /-- The line names no file, and this one is found. -/
  | found {path : Path} (hname : w.file = none)
      (hfound : s.tree.findSettings (Path.absolute s.here ".") = some path)
      (hfile : s.tree.entry? path = some (.file bytes))

/-- **The settings file of a run holds an object** with the given fields. -/
def Surroundings.Holds (s : Surroundings) (w : Wishes) (fields : List (List CodePoint × Data)) :
    Prop :=
  ∃ bytes text, s.SettingsFile w bytes ∧ Text.Utf8.decode bytes = .ok text ∧
    Data.ofJson text = .ok (.object fields)

/-- The settings of a run before the line has its say. -/
def fileSettings (s : Surroundings) (w : Wishes) : Except Failure Settings := do
  Settings.load s.tree s.here (← w.fileName) "."

theorem settingsOf_eq (s : Surroundings) (w : Wishes) : settingsOf s w = (do
    let settings ← fileSettings s w
    (settings.overridden (← w.complete)).mapError .settings) := by
  unfold settingsOf fileSettings
  rw [bind_assoc]

theorem fileSettings_eq (h : s.Holds w fields) :
    fileSettings s w = (ofFields (.object fields)).mapError .settings := by
  obtain ⟨bytes, text, hfile, hdecode, hjson⟩ := h
  have hbytes : ofBytes bytes = (ofFields (.object fields)).mapError .settings := by
    unfold ofBytes
    rw [hdecode]
    dsimp only
    rw [hjson]
  rw [← hbytes]
  cases hfile with
  | named hname hfault hnull hopen =>
      unfold fileSettings Wishes.fileName Settings.load
      rw [hname]
      simp only [bind, Except.bind, hfault, hnull, hopen, Bool.false_eq_true, if_false]
  | found hname hfound hfile =>
      unfold fileSettings Wishes.fileName Settings.load
      rw [hname]
      simp only [bind, Except.bind, hfound, hfile]

theorem fileSettings_eq_error_iff (h : s.Holds w fields) {e : Failure} :
    fileSettings s w = .error e ↔ ∃ c value,
      FirstFails (.object fields) Check.inOrder c value ∧ e = .settings (c.fault value) := by
  have hscreens := screens_ofFields (.object fields)
  rw [fileSettings_eq h]
  constructor
  · intro he
    cases hx : ofFields (.object fields) with
    | error fault =>
        rw [hx] at he
        cases he
        obtain ⟨c, value, hfirst, rfl⟩ := (hscreens fault).1 hx
        exact ⟨c, value, hfirst, rfl⟩
    | ok c =>
        rw [hx] at he
        cases he
  · rintro ⟨c, value, hfirst, rfl⟩
    rw [(hscreens _).2 ⟨c, value, hfirst, rfl⟩]
    rfl

theorem inEffect_of_fileSettings (h : s.Holds w fields) {c : Settings}
    (hc : fileSettings s w = .ok c) : InEffect (.object fields) {} c ∧ 0 < c.timeoutMs := by
  rw [fileSettings_eq h] at hc
  cases hx : ofFields (.object fields) with
  | error fault =>
      rw [hx] at hc
      cases hc
  | ok c' =>
      rw [hx] at hc
      cases hc
      exact inEffect_ofFields hx

theorem exists_complete (h : w.timeoutMs ≠ some .blank) : ∃ o, w.complete = .ok o := by
  unfold Wishes.complete
  split
  · exact ⟨_, rfl⟩
  · exact ⟨_, rfl⟩
  · rename_i hblank
    exact absurd hblank h

/-- What a file is refused for, no line can mend. -/
theorem settingsOf_of_error {e : Failure} (h : fileSettings s w = .error e) (w' : Wishes)
    (hfile : w'.file = w.file) : settingsOf s w' = .error e := by
  have hsame : fileSettings s w' = fileSettings s w := by
    unfold fileSettings Wishes.fileName
    rw [hfile]
  rw [settingsOf_eq, hsame, h]
  rfl

theorem settingsOf_of_ok {c : Settings} {o : Overrides} (h : fileSettings s w = .ok c)
    (ho : w.complete = .ok o) : settingsOf s w =
      if 0 < (o.apply c).timeoutMs then .ok (o.apply c)
      else .error (.settings (.timeoutNotPositive (.int (o.apply c).timeoutMs))) := by
  rw [settingsOf_eq, h, ho]
  change (c.overridden o).mapError _ = _
  rw [overridden_eq]
  split <;> rfl

/-- A timeout that is left blank ends a run whose file is not refused, without a record. -/
theorem settingsOf_of_blank {c : Settings} (hblank : w.timeoutMs = some .blank)
    (h : fileSettings s w = .ok c) : ∃ e, settingsOf s w = .error e ∧ e.records = [] := by
  obtain ⟨e, he, hrecords⟩ : ∃ e, w.complete = .error e ∧ e.records = [] := by
    unfold Wishes.complete
    rw [hblank]
    exact ⟨_, rfl, rfl⟩
  refine ⟨e, ?_, hrecords⟩
  rw [settingsOf_eq, h, he]
  rfl

/-- **The settings in effect are usable.**  Whatever object the settings file of a run holds, and
whatever the line says:

* the file is refused for the first check that fails, just if one does, by a record with the name of
  the setting; and then whatever else the line says about the settings;
* unless the line leaves the timeout blank, the run ends with one such record or has usable
  settings, which are what file and line amount to.  It has them just if no check of the file fails
  and the line does not ask for a timeout that is not positive;
* if the line leaves the timeout blank and the file is not refused, the run ends without such a
  record. -/
theorem effective_usable (h : s.Holds w fields) :
    (∀ e, fileSettings s w = .error e ↔ ∃ c value,
        FirstFails (.object fields) Check.inOrder c value ∧ e = .settings (c.fault value)) ∧
      ((∃ e, fileSettings s w = .error e) ↔
        ∃ c ∈ Check.inOrder, ∃ value, c.Fails (.object fields) value) ∧
      (∀ (c : Check) value, ∃ shown reason,
        (Failure.settings (c.fault value)).records = [.setting c.key shown reason]) ∧
      (∀ e w', fileSettings s w = .error e → w'.file = w.file → settingsOf s w' = .error e) ∧
      (w.timeoutMs ≠ some .blank → ∃ o, w.complete = .ok o ∧
        ((∃ e key value reason,
            settingsOf s w = .error e ∧ e.records = [.setting key value reason]) ∨
          ∃ c, settingsOf s w = .ok c ∧ c.Usable ∧ InEffect (.object fields) o c) ∧
        ((∃ c, settingsOf s w = .ok c) ↔
          (∀ c ∈ Check.inOrder, ∀ value, ¬ c.Fails (.object fields) value) ∧
            ∀ ms, o.timeoutMs = some ms → 0 < ms)) ∧
      (w.timeoutMs = some .blank → ∀ c, fileSettings s w = .ok c →
        ∃ e, settingsOf s w = .error e ∧ e.records = []) := by
  have hrefused : (∃ e, fileSettings s w = .error e) ↔
      ∃ c ∈ Check.inOrder, ∃ value, c.Fails (.object fields) value := by
    rw [← exists_firstFails]
    simp only [fileSettings_eq_error_iff h]
    exact ⟨fun ⟨_, c, value, hfirst, _⟩ => ⟨c, value, hfirst⟩,
      fun ⟨c, value, hfirst⟩ => ⟨_, c, value, hfirst, rfl⟩⟩
  refine ⟨fun _ => fileSettings_eq_error_iff h, hrefused, fun c value => ?_,
    fun _ w' he hfile => settingsOf_of_error he w' hfile, fun hfilled => ?_,
    fun hblank _ hc => settingsOf_of_blank hblank hc⟩
  · obtain ⟨shown, reason, hrecord⟩ := c.record_fault value
    exact ⟨shown, reason, congrArg Option.toList hrecord⟩
  obtain ⟨o, ho⟩ := exists_complete hfilled
  refine ⟨o, ho, ?_⟩
  cases hx : fileSettings s w with
  | error e =>
      obtain ⟨c, value, hfirst, rfl⟩ := (fileSettings_eq_error_iff h).1 hx
      obtain ⟨shown, reason, hrecord⟩ := c.record_fault value
      have herror := settingsOf_of_error hx w rfl
      refine ⟨.inl ⟨_, _, _, _, herror, congrArg Option.toList hrecord⟩, ?_⟩
      refine iff_of_false (fun ⟨_, hok⟩ => ?_) fun ⟨hpasses, _⟩ => ?_
      · cases herror.symm.trans hok
      · exact hpasses c hfirst.mem.1 value hfirst.mem.2
  | ok c =>
      obtain ⟨heffect, hpos⟩ := inEffect_of_fileSettings h hx
      have hpasses : ∀ c ∈ Check.inOrder, ∀ value, ¬ c.Fails (.object fields) value := by
        intro d hd value hfails
        obtain ⟨e, he⟩ := hrefused.2 ⟨d, hd, value, hfails⟩
        cases hx.symm.trans he
      have heq := settingsOf_of_ok hx ho
      rw [← apply_timeoutMs_pos_iff hpos, and_iff_right hpasses]
      by_cases hms : 0 < (o.apply c).timeoutMs
      · rw [if_pos hms] at heq
        exact ⟨.inr ⟨_, heq, usable_of_pos hms, heffect.apply o⟩, iff_of_true ⟨_, heq⟩ hms⟩
      · rw [if_neg hms] at heq
        refine ⟨.inl ⟨_, _, _, _, heq, rfl⟩, iff_of_false (fun ⟨_, hok⟩ => ?_) hms⟩
        cases heq.symm.trans hok

/-- A run with an empty object in the settings file of the root directory. -/
def defaultingRun : Surroundings :=
  { tree := ⟨[([".candyproofrc.json"], .file [0x7B, 0x7D])]⟩
    here := []
    terminal := .plain
    solver := .decided }

/-- A line that asks for queries in the log and for five milliseconds at most. -/
def hastyWishes : Wishes :=
  { timeoutMs := some (.filled 5), overrides := { verbosity := 1 } }

/-- Wherever a run starts from, it finds the file in the root directory. -/
theorem findSettings_defaultingRun (start : Path) :
    defaultingRun.tree.findSettings start = some [".candyproofrc.json"] := by
  refine FileTree.findSettings_eq_some_iff.2 ⟨[], List.nil_prefix, rfl, fun d _ hd => ?_⟩
  rw [Ne, FileTree.settingsIn?_eq_none_iff] at hd
  push Not at hd
  obtain ⟨name, -, bytes, hfile⟩ := hd
  have hpath := congrArg Prod.fst (List.mem_singleton.1 (FileTree.mem_entries_of_file hfile))
  have hlength : (d ++ [name]).length = 1 := congrArg List.length hpath
  rw [List.length_append, List.length_singleton] at hlength
  exact Nat.le_of_eq (Nat.succ_inj.1 hlength)

/-- A line that names no file leaves it to that one. -/
theorem holds_defaultingRun (hfile : w.file = none) : defaultingRun.Holds w [] := by
  refine ⟨[0x7B, 0x7D], "\x7b\x7d", .found hfile (findSettings_defaultingRun _) rfl, ?_, ?_⟩
  · rfl
  · rfl

/-- What the line asks for is in effect, and else the defaults are. -/
theorem effective_usable_defaultingRun : ∃ fields o c, defaultingRun.Holds hastyWishes fields ∧
    settingsOf defaultingRun hastyWishes = .ok c ∧ c.Usable ∧ InEffect (.object fields) o c ∧
    c = { timeoutMs := 5, logLevel := .info } := by
  have hholds : defaultingRun.Holds hastyWishes [] := holds_defaultingRun rfl
  have hfile : fileSettings defaultingRun hastyWishes = .ok {} := fileSettings_eq hholds
  have hrun : settingsOf defaultingRun hastyWishes = .ok { timeoutMs := 5, logLevel := .info } :=
    settingsOf_of_ok hfile rfl
  obtain ⟨_, _, _, _, hline, _⟩ := effective_usable hholds
  obtain ⟨o, _, ⟨e, _, _, _, herror, _⟩ | ⟨c, hc, husable, heffect⟩, _⟩ := hline nofun
  · cases hrun.symm.trans herror
  · cases hrun.symm.trans hc
    exact ⟨_, _, _, hholds, hrun, husable, heffect, rfl⟩

/-- A line with nothing but a separator for the timeout. -/
def blankLine : List (List CodePoint) :=
  [CodePoint.ofString "prove", CodePoint.ofString "--timeout-ms=--"]

/-- What it says: a timeout, but none that is filled in. -/
def blankWishes : Wishes :=
  { timeoutMs := some .blank }

/-- **A timeout that is left blank ends a run without a report**: the file is accepted, but the run
neither has settings nor ends with a record of what is wrong with them. -/
theorem blank_timeout_unreported :
    read blankLine = .ok (some (.prove blankWishes)) ∧ defaultingRun.Holds blankWishes [] ∧
      fileSettings defaultingRun blankWishes = .ok {} ∧
      ∃ e, settingsOf defaultingRun blankWishes = .error e ∧ e.records = [] ∧
        run defaultingRun blankLine = .failed e := by
  have hread : read blankLine = .ok (some (.prove blankWishes)) := by
    have hcommand : (read blankLine).toOption = some (some (.prove blankWishes)) := by
      decide +kernel
    cases hok : read blankLine with
    | error e =>
        rw [hok] at hcommand
        cases hcommand
    | ok command =>
        rw [hok] at hcommand
        rw [Option.some.inj hcommand]
  have hholds : defaultingRun.Holds blankWishes [] := holds_defaultingRun rfl
  have hfile : fileSettings defaultingRun blankWishes = .ok {} := fileSettings_eq hholds
  obtain ⟨e, herror, hrecords⟩ := settingsOf_of_blank rfl hfile
  refine ⟨hread, hholds, hfile, e, herror, hrecords, ?_⟩
  simp only [run, hread, runCommand, herror, failureOutcome, Failure.ofProof, hrecords,
    List.isEmpty_nil, Bool.not_true, Bool.false_eq_true, if_false]

end CandyCircle.CommandLine
