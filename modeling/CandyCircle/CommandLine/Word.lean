/-
**Words of a line.**

A word that begins with a hyphen is a flag if it is spelled like one: in full, with a value after an
equals sign, as the beginning of exactly one long spelling, or as a short spelling with more
characters run on.  Negative numbers and words with blanks are operands all the same.  After the
word `--` every word is an operand.

Main definitions:

* `CandyCircle.CommandLine.FlagUse` — a flag as it is written;
* `CandyCircle.CommandLine.Word` — words by what they are;
* `CandyCircle.CommandLine.Grammar.words` — the words of a line.
-/
import CandyCircle.CommandLine.Flag
import CandyCircle.Text.Integer

set_option autoImplicit false

namespace CandyCircle.CommandLine

/-- A flag as it is written. -/
structure FlagUse where
  flag : Flag
  spelling : List CodePoint
  /-- The text that is attached to the spelling, after an equals sign or run on after a short
  spelling. -/
  attached : Option (List CodePoint)

/-- Whether a flag is written by a short spelling. -/
def FlagUse.isShort (u : FlagUse) : Bool :=
  u.spelling.take 2 != [.scalar '-', .scalar '-']

/-- A word by what it is. -/
inductive Word where
  /-- An operand, or the value of a flag. -/
  | operand (text : List CodePoint)
  /-- The word after which there are operands only. -/
  | separator
  /-- A word that looks like a flag but is none. -/
  | unknown (text : List CodePoint)
  /-- A flag. -/
  | flag (text : List CodePoint) (use : FlagUse)

/-- The word after which there are operands only. -/
def separatorText : List CodePoint :=
  CodePoint.ofString "--"

/-- A word as it was written. -/
def Word.text : Word → List CodePoint
  | operand text => text
  | separator => separatorText
  | unknown text => text
  | flag text _ => text

/-! ### Reading one word -/

/-- The parts of a word before and after its first equals sign. -/
def cut? (w : List CodePoint) : Option (List CodePoint × List CodePoint) :=
  match w.dropWhile (· != .scalar '=') with
  | [] => none
  | _ :: value => some (w.takeWhile (· != .scalar '='), value)

/-- Whether characters are all digits. -/
def allDigits (cs : List Char) : Bool :=
  cs.all fun c => (Text.digitValue? c).isSome

/-- Whether characters make up a number: digits, or digits with a point and at least one digit after
it. -/
def isUnsigned (cs : List Char) : Bool :=
  match cs.dropWhile (· != '.') with
  | [] => !cs.isEmpty && allDigits cs
  | _ :: places =>
      allDigits (cs.takeWhile (· != '.')) && !places.isEmpty && allDigits places

/-- Whether the characters after a hyphen make up a number; a line end may follow it. -/
def isNegated (cs : List Char) : Bool :=
  isUnsigned cs || (cs.getLast? == some '\n' && isUnsigned cs.dropLast)

/-- The flags that a word may stand for if it spells none in full. -/
def Grammar.candidates (g : Grammar) (w : List CodePoint) : List FlagUse :=
  match w with
  | .scalar '-' :: .scalar '-' :: _ =>
      let (stem, attached) := match cut? w with
        | some (stem, value) => (stem, some value)
        | none => (w, none)
      g.spelled.filterMap fun p =>
        if stem.isPrefixOf p.1 then some ⟨p.2, p.1, attached⟩ else none
  | .scalar '-' :: c :: rest =>
      g.spelled.filterMap fun p =>
        if p.1 == [.scalar '-', c] then some ⟨p.2, p.1, some rest⟩ else none
  | _ => []

/-- The flag that a word spells in full, alone or with a value after an equals sign. -/
def Grammar.spelledInFull? (g : Grammar) (w : List CodePoint) : Option FlagUse :=
  match g.flag? w with
  | some f => some ⟨f, w, none⟩
  | none => do
      let (spelling, value) ← cut? w
      let f ← g.flag? spelling
      return ⟨f, spelling, some value⟩

/-- A word that could stand for several flags. -/
structure Ambiguity where
  word : List CodePoint
  /-- The spellings that it could stand for. -/
  spellings : List (List CodePoint)
  deriving DecidableEq, Repr

/-- What a word is that stands before any separator. -/
def Grammar.word (g : Grammar) (text : List CodePoint) : Except Ambiguity Word :=
  match text with
  | .scalar '-' :: c :: rest =>
      match g.spelledInFull? text with
      | some use => .ok (.flag text use)
      | none =>
          match g.candidates text with
          | [use] => .ok (.flag text use)
          | [] =>
              if (CodePoint.chars? (c :: rest)).any isNegated || text.contains (.scalar ' ') then
                .ok (.operand text)
              else .ok (.unknown text)
          | uses => .error ⟨text, uses.map FlagUse.spelling⟩
  | _ => .ok (.operand text)

/-- The words of a line. -/
def Grammar.words (g : Grammar) : List (List CodePoint) → Except Ambiguity (List Word)
  | [] => .ok []
  | text :: rest =>
      if text == separatorText then .ok (.separator :: rest.map .operand)
      else do
        let w ← g.word text
        return w :: (← g.words rest)

end CandyCircle.CommandLine
