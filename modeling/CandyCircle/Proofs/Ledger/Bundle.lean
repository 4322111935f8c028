/-
**What a solver reads in the bundle.**

The bundle puts the recorded queries under one another and says in comments to which lemma, rule and
claim each belongs.  Who reads it passes over blank lines and comments.  What is left are the lines
of the recorded queries, each with its commands to check and to reset, in the order of the ledger,
and none of them is missing.  But only the first line of an annotation stands behind a semicolon:
what follows a line end in a name, a rule or a claim is left, too, and is read as part of the
queries.  So the bundle reproduces the queries just if no annotation goes on after a line end with
anything but blank lines and comments.

Which characters end a line is not the same for every reader: a solver knows line feed and carriage
return, text has ten line ends.  All that is used here is that a line feed is one, and that letters,
digits and signs are none.

Main definitions:

* `CandyCircle.Text.Reader` — how a reader cuts a text into lines;
* `CandyCircle.Text.Reader.code`, `CandyCircle.Text.Reader.strays` — the lines that are neither blank
  nor comments, of a whole text and of a text that begins in a comment;
* `CandyCircle.Ledger.recorded`, `CandyCircle.Ledger.script` — the recorded queries, and nothing but
  them;
* `CandyCircle.Ledger.Tidy` — no annotation goes on after a line end.

Main results:

* `CandyCircle.Text.Reader.code_joinLines` — lines under one another are read one by one;
* `CandyCircle.Text.filter_lines` — reading by the ten line ends of text;
* `CandyCircle.Ledger.code_bundle` — **what is read in the bundle**;
* `CandyCircle.Ledger.bundle_reproduces_iff` — **the bundle reproduces the queries** just if no
  annotation goes on after a line end.
-/
import CandyCircle.Ledger.Text
import Mathlib.Algebra.BigOperators.Group.List.Basic

set_option autoImplicit false

namespace CandyCircle

namespace Text

/-! ### Readers -/

/-- Whether a character is one from the blank to the tilde. -/
def isPrinted (c : Char) : Bool :=
  decide (32 ≤ c.toNat) && decide (c.toNat ≤ 126)

/-- How a reader cuts a text into lines. -/
structure Reader where
  /-- Whether a character ends a line. -/
  ends : Char → Bool
  /-- Whether a line of such characters is blank. -/
  blank : Char → Bool
  /-- A line feed ends a line. -/
  ends_feed : ends '\n' = true
  /-- The characters from the blank to the tilde end none. -/
  not_ends : ∀ c : Char, isPrinted c = true → ends c = false

namespace Reader

variable (r : Reader)

/-- The lines of a text, without what ends them. -/
def cut (s : String) : List String :=
  (s.toList.splitOnP r.ends).map String.ofList

/-- Whether a line is neither blank nor a comment. -/
def isCode (line : String) : Bool :=
  !line.toList.all r.blank && line.toList.head? != some ';'

/-- The lines of a text that are neither blank nor comments. -/
def code (s : String) : List String :=
  (r.cut s).filter r.isCode

/-- The lines of a text that are neither blank nor comments, if its first line stands in a comment.
-/
def strays (s : String) : List String :=
  (r.cut s).tail.filter r.isCode

/-- No character of a text ends a line. -/
def OneLine (s : String) : Prop :=
  ∀ c ∈ s.toList, r.ends c = false

variable {r}

theorem OneLine.append {s t : String} (hs : r.OneLine s) (ht : r.OneLine t) :
    r.OneLine (s ++ t) := by
  intro c hc
  rw [String.toList_append, List.mem_append] at hc
  exact hc.elim (hs c) (ht c)

variable (r)

/-- Letters, digits and signs make up one line. -/
theorem oneLine_of_printed {s : String} (h : s.toList.all isPrinted = true) : r.OneLine s :=
  fun c hc => r.not_ends c (List.all_eq_true.1 h c hc)

theorem oneLine_ofNat (n : Nat) : r.OneLine (Decimal.ofNat n) := by
  refine r.oneLine_of_printed (List.all_eq_true.2 fun c hc => ?_)
  rw [Decimal.ofNat, String.toList_ofList] at hc
  have hdigit := Nat.isDigit_of_mem_toDigits (by omega) (by omega) hc
  simp only [Char.isDigit, Bool.and_eq_true, decide_eq_true_eq, ge_iff_le,
    UInt32.le_iff_toNat_le] at hdigit
  simp only [isPrinted, Bool.and_eq_true, decide_eq_true_eq]
  exact ⟨Nat.le_trans (by decide) hdigit.1, Nat.le_trans hdigit.2 (by decide)⟩

theorem code_empty : r.code "" = [] := by
  simp [code, cut, isCode]

theorem code_append_feed (s t : String) : r.code (s ++ "\n" ++ t) = r.code s ++ r.code t := by
  simp [code, cut, List.splitOnP_append_cons _ _ r.ends_feed]

/-- **Lines under one another are read one by one.** -/
theorem code_joinLines (ls : List String) : r.code (joinLines ls) = ls.flatMap r.code := by
  induction ls with
  | nil => exact r.code_empty
  | cons first others ih =>
      cases others with
      | nil => simp [joinLines]
      | cons second others =>
          rw [List.flatMap_cons, ← ih, ← code_append_feed]
          exact congrArg r.code String.intercalate_cons_cons

variable {r}

theorem tail_cut_append {s : String} (hs : r.OneLine s) (t : String) :
    (r.cut (s ++ t)).tail = (r.cut t).tail := by
  have hlist (cs : List Char) (hcs : ∀ c ∈ cs, r.ends c = false) :
      ((cs ++ t.toList).splitOnP r.ends).tail = (t.toList.splitOnP r.ends).tail := by
    induction cs with
    | nil => rfl
    | cons c cs ih =>
        obtain ⟨hc, hrest⟩ := List.forall_mem_cons.1 hcs
        rw [List.cons_append, List.splitOnP_cons_eq_if_modifyHead, hc, if_neg Bool.false_ne_true,
          List.tail_modifyHead, ih hrest]
  rw [cut, cut, String.toList_append, ← List.map_tail, hlist _ hs, List.map_tail]

/-- What stands before a text on its first line makes no difference to what strays from it. -/
theorem strays_append {s : String} (hs : r.OneLine s) (t : String) :
    r.strays (s ++ t) = r.strays t := by
  rw [strays, strays, tail_cut_append hs]

theorem strays_of_oneLine {s : String} (hs : r.OneLine s) : r.strays s = [] := by
  rw [strays, cut, List.splitOnP_eq_singleton hs]
  rfl

/-- Of a comment only what comes after a line end is read. -/
theorem code_comment {s : String} (hs : s.toList.head? = some ';') : r.code s = r.strays s := by
  obtain ⟨cs, hcs⟩ := List.head?_eq_some_iff.1 hs
  obtain ⟨first, others, hothers⟩ := List.exists_cons_of_ne_nil (List.splitOnP_ne_nil r.ends cs)
  have hcut : r.cut s = String.ofList (';' :: first) :: others.map String.ofList := by
    have hsemicolon : r.ends ';' = false := r.not_ends ';' rfl
    rw [cut, hcs, List.splitOnP_cons_eq_if_modifyHead, hsemicolon, if_neg Bool.false_ne_true,
      hothers]
    rfl
  have hfirst : r.isCode (String.ofList (';' :: first)) = false := by simp [isCode]
  rw [code, strays, hcut, List.filter_cons_of_neg (Bool.eq_false_iff.1 hfirst), List.tail_cons]

end Reader

/-! ### Reading by the line ends of text -/

/-- A reader that knows the ten line ends of text. -/
def Reader.text : Reader where
  ends := endsLine
  blank c := c == ' ' || c == '\t'
  ends_feed := rfl
  not_ends c hc := by
    have hne (d : Char) (hd : isPrinted d = false) : (c == d) = false :=
      beq_eq_false_iff_ne.2 fun heq => Bool.eq_false_iff.1 hd (heq ▸ hc)
    simp [endsLine, hne, isPrinted]

theorem filter_linesFrom (begun cs : List Char) :
    (linesFrom begun cs).filter Reader.text.isCode =
      ((List.splitOnPPrepend endsLine cs begun).map String.ofList).filter Reader.text.isCode := by
  have hempty : ¬ Reader.text.isCode (String.ofList []) = true := by decide
  fun_induction linesFrom begun cs with
  | case1 begun hbegun =>
      -- a line end at the very end opens a further line here, which is blank
      obtain rfl := List.isEmpty_iff.1 hbegun
      rw [List.splitOnPPrepend_nil, List.map_singleton, List.filter_nil, List.reverse_nil,
        List.filter_cons_of_neg hempty, List.filter_nil]
  | case2 begun => rw [List.splitOnPPrepend_nil, List.map_singleton]
  | case3 begun rest ih =>
      -- so does the place between carriage return and line feed
      rw [List.splitOnPPrepend_cons_pos (by decide), List.splitOnP_eq_splitOnPPrepend,
        List.splitOnPPrepend_cons_pos (by decide), List.map_cons, List.map_cons, List.reverse_nil,
        List.filter_cons, List.filter_cons, List.filter_cons_of_neg hempty, ih]
      rfl
  | case4 begun c rest _ hends ih =>
      rw [List.splitOnPPrepend_cons_pos hends, List.map_cons, List.filter_cons, List.filter_cons, ih]
      rfl
  | case5 begun c rest _ hends ih =>
      rw [List.splitOnPPrepend_cons_neg (Bool.eq_false_iff.2 hends), ih]

/-- The lines of a text that are neither blank nor comments. -/
theorem filter_lines (s : String) :
    (lines s).filter Reader.text.isCode = Reader.text.code s :=
  filter_linesFrom [] s.toList

end Text

/-! ### Queries and annotations -/

open Text

namespace Obligation

/-- What a solver is given for a recorded query. -/
def commands (o : Obligation) : List String :=
  [o.query, "(check-sat)", "(reset)"]

/-- The annotation that names the lemma and the rule, without what stands before the name. -/
def heading (o : Obligation) : String :=
  o.lemmaName ++ " / " ++ o.rule ++ " ---"

end Obligation

namespace Ledger

/-- The entries whose queries are recorded. -/
def recorded (l : Ledger) : List Obligation :=
  l.entries.filter fun o => !o.query.isEmpty

/-- The recorded queries with their commands under one another, and nothing else. -/
def script (l : Ledger) : String :=
  joinLines (l.recorded.flatMap Obligation.commands)

/-- No annotation goes on after a line end with anything but blank lines and comments. -/
structure Tidy (r : Reader) (l : Ledger) : Prop where
  version : r.strays l.version = []
  heading : ∀ o ∈ l.recorded, r.strays o.heading = []
  claim : ∀ o ∈ l.recorded, r.strays o.claim = []

variable {r : Reader}

theorem code_script (l : Ledger) :
    r.code l.script = l.recorded.flatMap fun o => o.commands.flatMap r.code := by
  rw [script, r.code_joinLines, List.flatMap_assoc]

/-- Of a comment that is one line nothing is read. -/
theorem code_printed {s : String} (hs : s.toList.head? = some ';')
    (h : s.toList.all isPrinted = true) : r.code s = [] := by
  rw [Reader.code_comment hs, Reader.strays_of_oneLine (r.oneLine_of_printed h)]

/-- What is read in the lines of a recorded query: what strays from its annotations, and the query
with its commands. -/
theorem code_queryLines {o : Obligation} (h : o.query.isEmpty = false) (number : Nat) :
    (queryLines number o).flatMap r.code =
      r.strays o.heading ++ r.strays o.claim ++ o.commands.flatMap r.code := by
  have hheading : r.code ("; --- Query " ++ Decimal.ofNat number ++ ": " ++ o.lemmaName ++ " / " ++
      o.rule ++ " ---") = r.strays o.heading := by
    have hbegin : r.OneLine ("; --- Query " ++ Decimal.ofNat number ++ ": ") :=
      ((r.oneLine_of_printed rfl).append (r.oneLine_ofNat number)).append
        (r.oneLine_of_printed rfl)
    have hsplit : "; --- Query " ++ Decimal.ofNat number ++ ": " ++ o.lemmaName ++ " / " ++ o.rule ++
        " ---" = "; --- Query " ++ Decimal.ofNat number ++ ": " ++ o.heading := by
      simp only [Obligation.heading, String.append_assoc]
    rw [Reader.code_comment (by simp), hsplit, Reader.strays_append hbegin]
  have hclaim : r.code ("; VC     : " ++ o.claim) = r.strays o.claim := by
    rw [Reader.code_comment (by simp), Reader.strays_append (r.oneLine_of_printed rfl)]
  have hresult : r.code ("; Result : " ++ o.verdict.word) = [] := by
    cases o.verdict <;> exact code_printed rfl rfl
  simp only [queryLines, h, if_neg Bool.false_ne_true, List.flatMap_cons, List.flatMap_nil,
    hheading, hclaim, hresult, r.code_empty, Obligation.commands, List.append_assoc,
    List.nil_append, List.append_nil]

/-- Entries without a recorded query are passed over, and the numbers are not read. -/
theorem code_queries (entries : List Obligation) (number : Nat) :
    ((entries.zipIdx number).flatMap fun p => queryLines p.2 p.1).flatMap r.code =
      (entries.filter fun o => !o.query.isEmpty).flatMap fun o =>
        r.strays o.heading ++ r.strays o.claim ++ o.commands.flatMap r.code := by
  induction entries generalizing number with
  | nil => rfl
  | cons o entries ih =>
      rw [List.zipIdx_cons, List.flatMap_cons, List.flatMap_append, ih]
      cases h : o.query.isEmpty with
      | true =>
          have hnone : queryLines number o = [] := by rw [queryLines, if_pos h]
          rw [List.filter_cons_of_neg (by simp [h]), hnone]
          rfl
      | false => rw [List.filter_cons_of_pos (by simp [h]), List.flatMap_cons, code_queryLines h]

/-- **What is read in the bundle**: for each recorded query what strays from its annotations, and the
query with its commands. -/
theorem code_bundle (l : Ledger) :
    r.code l.bundle = r.strays l.version ++
      l.recorded.flatMap fun o =>
        r.strays o.heading ++ r.strays o.claim ++ o.commands.flatMap r.code := by
  have htitle : r.code "; candyproof refutation bundle" = [] :=
    code_printed rfl rfl
  have hversion : r.code ("; Version: " ++ l.version) = r.strays l.version := by
    rw [Reader.code_comment (by simp), Reader.strays_append (r.oneLine_of_printed rfl)]
  have htotal : r.code ("; Total queries: " ++ Decimal.ofNat l.total) = [] := by
    rw [Reader.code_comment (by simp), Reader.strays_append (r.oneLine_of_printed rfl),
      Reader.strays_of_oneLine (r.oneLine_ofNat _)]
  rw [bundle, r.code_joinLines, List.flatMap_append, code_queries, recorded]
  simp only [List.flatMap_cons, List.flatMap_nil, htitle, hversion, htotal, r.code_empty,
    List.nil_append, List.append_nil]

/-! ### When the bundle reproduces the queries -/

section More

variable {α β : Type} {more : List β} {f g : α → List β} {l : List α}

theorem flatMap_sublist_append :
    (l.flatMap g).Sublist (more ++ l.flatMap fun x => f x ++ g x) := by
  refine List.Sublist.trans ?_ (List.sublist_append_right _ _)
  induction l with
  | nil => exact List.Sublist.refl _
  | cons x l ih => exact (List.sublist_append_right _ _).append ih

/-- Lists that are joined with something more before each come to the same just if there is nothing
more. -/
theorem append_flatMap_eq_iff :
    (more ++ l.flatMap fun x => f x ++ g x) = l.flatMap g ↔ more = [] ∧ ∀ x ∈ l, f x = [] := by
  constructor
  · intro h
    have hlength := congrArg List.length h
    simp only [List.length_append, List.length_flatMap, List.sum_map_add] at hlength
    refine ⟨List.length_eq_zero_iff.1 (by omega), fun x hx => List.length_eq_zero_iff.1 ?_⟩
    have hsum : (l.map fun x => (f x).length).sum = 0 := by omega
    exact List.sum_eq_zero_iff_forall_eq_nat.1 hsum _ (List.mem_map_of_mem hx)
  · rintro ⟨rfl, h⟩
    rw [List.nil_append]
    refine List.flatMap_congr fun x hx => ?_
    rw [h x hx, List.nil_append]

end More

theorem tidy_of_oneLine {l : Ledger} (hversion : r.OneLine l.version)
    (h : ∀ o ∈ l.recorded, r.OneLine o.lemmaName ∧ r.OneLine o.rule ∧ r.OneLine o.claim) :
    l.Tidy r where
  version := Reader.strays_of_oneLine hversion
  heading o ho := by
    obtain ⟨hname, hrule, -⟩ := h o ho
    refine Reader.strays_of_oneLine (((hname.append ?_).append hrule).append ?_)
    · exact r.oneLine_of_printed rfl
    · exact r.oneLine_of_printed rfl
  claim o ho := Reader.strays_of_oneLine (h o ho).2.2

theorem code_bundle_eq_iff (l : Ledger) : r.code l.bundle = r.code l.script ↔ l.Tidy r := by
  rw [code_bundle, code_script, append_flatMap_eq_iff]
  simp only [List.append_eq_nil_iff]
  exact ⟨fun ⟨hversion, h⟩ => ⟨hversion, fun o ho => (h o ho).1, fun o ho => (h o ho).2⟩,
    fun h => ⟨h.version, fun o ho => ⟨h.heading o ho, h.claim o ho⟩⟩⟩

/-- **The bundle reproduces the queries.**  For every reader, all lines of the recorded queries and
their commands are among those that are read in the bundle, in the order of the ledger.  Nothing else
is read just if no annotation goes on after a line end with anything but blank lines and comments,
and so if no name, rule or claim of a recorded query has a line end. -/
theorem bundle_reproduces_iff (r : Reader) (l : Ledger) :
    (r.code l.script).Sublist (r.code l.bundle) ∧
      (r.code l.bundle = r.code l.script ↔ l.Tidy r) ∧
      (r.OneLine l.version →
        (∀ o ∈ l.recorded, r.OneLine o.lemmaName ∧ r.OneLine o.rule ∧ r.OneLine o.claim) →
        r.code l.bundle = r.code l.script) := by
  refine ⟨?_, code_bundle_eq_iff l, fun hversion h => ?_⟩
  · rw [code_bundle, code_script]
    exact flatMap_sublist_append
  · exact (code_bundle_eq_iff l).2 (tidy_of_oneLine hversion h)

/-- Two entries, the first of which has a claim on two lines and no recorded query. -/
def annotated : Ledger where
  entries :=
    [{ lemmaName := "p/base"
       rule := "induction-base"
       claim := "And(a >= 1,\n    a <= b)"
       depth := 1
       query := ""
       verdict := .unknown
       duration := .whole 0 },
     { lemmaName := "p/step"
       rule := "induction-step"
       claim := "b >= 0"
       depth := 2
       query := "; two\n\n(assert (< a b))\n(assert (< b 0))\n"
       verdict := .unsat
       duration := .whole 0 }]

/-- A query of several lines is read line by line, and an entry without one does no harm. -/
theorem bundle_reproduces_annotated :
    Reader.text.code annotated.bundle =
      ["(assert (< a b))", "(assert (< b 0))", "(check-sat)", "(reset)"] := by
  have hversion : Reader.text.OneLine annotated.version :=
    Reader.text.oneLine_of_printed rfl
  have hrecorded : ∀ o ∈ annotated.recorded, Reader.text.OneLine o.lemmaName ∧
      Reader.text.OneLine o.rule ∧ Reader.text.OneLine o.claim := by
    intro o ho
    obtain rfl := List.mem_singleton.1 ho
    exact ⟨Reader.text.oneLine_of_printed rfl, Reader.text.oneLine_of_printed rfl,
      Reader.text.oneLine_of_printed rfl⟩
  rw [(bundle_reproduces_iff Reader.text annotated).2.2 hversion hrecorded, code_script]
  rfl

/-! ### A claim on two lines -/

/-- A ledger whose only claim is written on two lines. -/
def wrapped : Ledger where
  entries :=
    [{ lemmaName := "natural"
       rule := "refutation"
       claim := "And(a >= 0,\n    b >= 0)"
       depth := 1
       query := "(assert (< a 0))"
       verdict := .unsat
       duration := .whole 0 }]

/-- **A claim on two lines puts its second line among the queries.** -/
theorem not_reproduced_wrapped :
    (lines wrapped.bundle).filter Reader.text.isCode ≠
        (lines wrapped.script).filter Reader.text.isCode ∧
      (lines wrapped.bundle).filter Reader.text.isCode =
        ["    b >= 0)", "(assert (< a 0))", "(check-sat)", "(reset)"] := by
  have hbundle : (lines wrapped.bundle).filter Reader.text.isCode =
      ["    b >= 0)", "(assert (< a 0))", "(check-sat)", "(reset)"] := by
    rw [filter_lines, code_bundle]
    rfl
  have hscript : (lines wrapped.script).filter Reader.text.isCode =
      ["(assert (< a 0))", "(check-sat)", "(reset)"] := by
    rw [filter_lines, code_script]
    rfl
  refine ⟨fun heq => ?_, hbundle⟩
  rw [hbundle, hscript] at heq
  exact absurd (congrArg List.length heq) (by decide)

end Ledger

end CandyCircle
