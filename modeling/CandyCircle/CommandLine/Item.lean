/-
**Items of a line.**

The words of a line are gathered into items: flags, flags with their values, and the operands.  The
operands of a command are taken from one place of the line only; words that nothing takes are left
over.  A command takes all words that follow it, flags included.  A separator is never a value: a
flag to which nothing but a separator is attached stands there without one, although it takes one.

Main definitions:

* `CandyCircle.CommandLine.Slot`, `CandyCircle.CommandLine.Item` — values of flags, and items;
* `CandyCircle.CommandLine.ItemFault` — why a line breaks off;
* `CandyCircle.CommandLine.Gathered` — the items of a line up to the first fault, and what is left
  over;
* `CandyCircle.CommandLine.Grammar.gather` — gathering them.
-/
import CandyCircle.CommandLine.Word

set_option autoImplicit false

namespace CandyCircle.CommandLine

/-- What is given as the value of a flag: something, or nothing if only a separator is attached to
the flag. -/
inductive Slot (α : Type) where
  /-- A value. -/
  | filled (a : α)
  /-- No value. -/
  | blank
  deriving DecidableEq, Repr

/-- A slot with its value read, unless that fails. -/
def Slot.mapM {ε α β : Type} (f : α → Except ε β) : Slot α → Except ε (Slot β)
  | filled a => (f a).map filled
  | blank => .ok blank

/-- An item of a line. -/
inductive Item where
  /-- A flag without a value. -/
  | flag (f : Flag)
  /-- A flag with its value. -/
  | value (f : Flag) (text : Slot (List CodePoint))
  /-- The operands. -/
  | operands (texts : List (List CodePoint))
  deriving DecidableEq, Repr

/-- Why a line breaks off. -/
inductive ItemFault where
  /-- A value is attached to a flag that takes none. -/
  | valueNotTaken (f : Flag) (text : List CodePoint)
  /-- A flag lacks its value. -/
  | valueMissing (f : Flag)
  deriving DecidableEq, Repr

/-- What is gathered from a line. -/
structure Gathered where
  /-- The items up to the first fault. -/
  items : List Item := []
  /-- The words that nothing takes. -/
  leftOver : List (List CodePoint) := []
  fault : Option ItemFault := none

namespace Gathered

/-- More items in front. -/
def withItems (items : List Item) (g : Gathered) : Gathered :=
  { g with items := items ++ g.items }

/-- More words left over in front. -/
def withLeftOver (texts : List (List CodePoint)) (g : Gathered) : Gathered :=
  { g with leftOver := texts ++ g.leftOver }

/-- A line that breaks off. -/
def broken (fault : ItemFault) : Gathered :=
  { fault := some fault }

end Gathered

/-! ### Flags run together -/

/-- The flags that a flag and the characters run on after it stand for; each of them is short. -/
def Grammar.cluster (g : Grammar) (f : Flag) : List CodePoint → Except ItemFault (List Flag)
  | [] => .ok [f]
  | c :: rest =>
      match g.flag? [.scalar '-', c] with
      | none => .error (.valueNotTaken f (c :: rest))
      | some next => return f :: (← g.cluster next rest)

/-- The items that a flag stands for together with the text that is attached to it.  A flag without
a value takes it for more flags if its spelling is short. -/
def Grammar.attach (g : Grammar) (use : FlagUse) (text : List CodePoint) :
    Except ItemFault (List Item) :=
  let f := use.flag
  if f.takesValue then
    .ok [.value f (if text == separatorText then .blank else .filled text)]
  else if use.isShort && !text.isEmpty then
    (g.cluster f text).map fun flags => flags.map .flag
  else .error (.valueNotTaken f text)

/-! ### Operands -/

/-- The texts of operands, without the first separator. -/
def operandTexts (run : List Word) : List (List CodePoint) :=
  (run.map Word.text).erase separatorText

/-- Whether a word is an operand. -/
def Word.isOperand : Word → Bool
  | .operand _ => true
  | _ => false

/-- A run of words without flags, as far as operands are still taken: what is taken, what is left
over, and what is taken afterwards. -/
def close (pending : Operands) (run : List Word) :
    List Item × List (List CodePoint) × Operands :=
  match pending with
  | .counts =>
      if run.any Word.isOperand then ([.operands (operandTexts run)], [], .nothing)
      else ([], run.map Word.text, .counts)
  | other => ([], run.map Word.text, other)

/-! ### Whole lines -/

/-- Gathers the items of a line; `run` holds the words since the last flag. -/
def Grammar.gatherFrom (g : Grammar) (pending : Operands) (run : List Word) :
    List Word → Gathered
  | [] =>
      let (items, leftOver, _) := close pending run
      { items, leftOver }
  | .operand text :: rest =>
      if pending = .command then
        { items := [.operands (run.map Word.text ++ text :: rest.map Word.text)] }
      else gatherFrom g pending (run ++ [.operand text]) rest
  | .separator :: rest => gatherFrom g pending (run ++ [.separator]) rest
  | .unknown text :: rest =>
      let (items, leftOver, later) := close pending run
      ((gatherFrom g later [] rest).withLeftOver (leftOver ++ [text])).withItems items
  | .flag _ use :: rest =>
      let (items, leftOver, later) := close pending run
      let f := use.flag
      let after :=
        match use.attached with
        | some text =>
            match g.attach use text with
            | .ok attached => (gatherFrom g later [] rest).withItems attached
            | .error fault => .broken fault
        | none =>
            if f.takesValue then
              match rest with
              | .operand text :: rest =>
                  (gatherFrom g later [] rest).withItems [.value f (.filled text)]
              | _ => .broken (.valueMissing f)
            else (gatherFrom g later [] rest).withItems [.flag f]
      (after.withLeftOver leftOver).withItems items

/-- The items of a line. -/
def Grammar.gather (g : Grammar) (words : List Word) : Gathered :=
  g.gatherFrom g.operands [] words

end CandyCircle.CommandLine
