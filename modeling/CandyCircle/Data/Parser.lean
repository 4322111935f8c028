/-
**Reading data from JSON.**

Besides the numbers of JSON the words `NaN`, `Infinity` and `-Infinity` are numbers.  A field that
occurs again replaces the value of its first occurrence.  A numeral with too many digits, and lists
or objects inside one another beyond a limit, are faults of their own, told apart from text that is
not JSON.

Main definitions:

* `CandyCircle.Data.Fault` — why a text could not be read;
* `CandyCircle.Data.Reader` — reading a value off the front of a text;
* `CandyCircle.Data.ofJson` — the data that a text stands for.
-/
import CandyCircle.Data
import CandyCircle.Decimal.Fixed
import CandyCircle.Text.Integer

set_option autoImplicit false

namespace CandyCircle.Data

/-- Why a text could not be read as JSON. -/
inductive Fault where
  /-- The text is not JSON. -/
  | malformed
  /-- A whole number has more digits than are read. -/
  | tooManyDigits (count : Nat)
  /-- Lists and objects stand inside one another at more levels than are read; the innermost one
  that was reached is of this kind. -/
  | tooDeep (kind : String)
  deriving DecidableEq, Repr

/-- Reading a value off the front of a text: the value and the rest, or a fault. -/
abbrev Reader (α : Type) := List Char → Except Fault (α × List Char)

/-- Whether a character is blank in JSON. -/
def isJsonBlank (c : Char) : Bool :=
  c == ' ' || c == '\t' || c == '\n' || c == '\r'

/-- A text without the blanks at its front. -/
def skipBlanks (cs : List Char) : List Char :=
  cs.dropWhile isJsonBlank

/-- The rest of a text that begins with a word. -/
def afterWord? (word : String) (cs : List Char) : Option (List Char) :=
  if word.toList.isPrefixOf cs then some (cs.drop word.length) else none

/-! ### Strings -/

/-- The value of a hexadecimal digit. -/
def hexValue? (c : Char) : Option Nat :=
  if '0' ≤ c && c ≤ '9' then some (c.toNat - '0'.toNat)
  else if 'a' ≤ c && c ≤ 'f' then some (c.toNat - 'a'.toNat + 10)
  else if 'A' ≤ c && c ≤ 'F' then some (c.toNat - 'A'.toNat + 10)
  else none

/-- The 16-bit unit that four hexadecimal digits at the front of a text name. -/
def hexUnit? : List Char → Option (Nat × List Char)
  | a :: b :: c :: d :: rest => do
      let a ← hexValue? a
      let b ← hexValue? b
      let c ← hexValue? c
      let d ← hexValue? d
      return (((a * 16 + b) * 16 + c) * 16 + d, rest)
  | _ => none

/-- The character that a backslash and a letter stand for. -/
def escaped? : Char → Option Char
  | '"' => some '"'
  | '\\' => some '\\'
  | '/' => some '/'
  | 'b' => some '\x08'
  | 'f' => some '\x0c'
  | 'n' => some '\n'
  | 'r' => some '\r'
  | 't' => some '\t'
  | _ => none

/-- The rest of a string after its opening quote.  The two halves of a surrogate pair that follow
one another are one character; any other half stands alone.  The fuel is the length of the text. -/
def stringBody : Nat → Reader (List CodePoint)
  | 0, _ => .error .malformed
  | _ + 1, [] => .error .malformed
  | _ + 1, '"' :: rest => .ok ([], rest)
  | fuel + 1, '\\' :: 'u' :: cs =>
      match hexUnit? cs with
      | none => .error .malformed
      | some (unit, rest) =>
          let alone := (stringBody fuel rest).map fun (s, r) => (CodePoint.ofUnit unit :: s, r)
          match CodePoint.isHighHalf unit, rest with
          | true, '\\' :: 'u' :: cs' =>
              match hexUnit? cs' with
              | none => .error .malformed
              | some (low, rest') =>
                  if CodePoint.isLowHalf low then
                    (stringBody fuel rest').map fun (s, r) => (CodePoint.ofPair unit low :: s, r)
                  else alone
          | _, _ => alone
  | fuel + 1, '\\' :: c :: rest =>
      match escaped? c with
      | none => .error .malformed
      | some e => (stringBody fuel rest).map fun (s, r) => (.scalar e :: s, r)
  | fuel + 1, c :: rest =>
      if c.toNat < 0x20 then .error .malformed
      else (stringBody fuel rest).map fun (s, r) => (.scalar c :: s, r)

/-! ### Numbers -/

/-- The number that digits stand for. -/
def digitsValue (digits : List Char) : Nat :=
  digits.foldl (fun n c => 10 * n + (c.toNat - '0'.toNat)) 0

/-- The digits at the front of a text, and the rest. -/
def digitRun (cs : List Char) : List Char × List Char :=
  (cs.takeWhile Char.isDigit, cs.dropWhile Char.isDigit)

/-- The digits after a point at the front of a text; without digits the point is left alone. -/
def fractionPart (cs : List Char) : Option (List Char) × List Char :=
  match cs with
  | '.' :: rest =>
      match digitRun rest with
      | ([], _) => (none, cs)
      | (ds, rest') => (some ds, rest')
  | _ => (none, cs)

/-- The exponent at the front of a text; without digits the mark of an exponent is left alone. -/
def exponentPart (cs : List Char) : Option Int × List Char :=
  let signed (negative : Bool) (rest : List Char) : Option Int × List Char :=
    match digitRun rest with
    | ([], _) => (none, cs)
    | (ds, rest') =>
        let e : Int := digitsValue ds
        (some (if negative then -e else e), rest')
  match cs with
  | c :: rest =>
      if c == 'e' || c == 'E' then
        match rest with
        | '-' :: rest' => signed true rest'
        | '+' :: rest' => signed false rest'
        | _ => signed false rest
      else (none, cs)
  | [] => (none, cs)

/-- A number with the given sign at the front of a text: whole unless it has a fraction or an
exponent. -/
def number (negative : Bool) : Reader Data := fun cs =>
  let (whole, rest) :=
    match cs with
    | '0' :: rest => (['0'], rest)
    | _ => digitRun cs
  if whole.isEmpty then .error .malformed
  else
    let (fraction, rest) := fractionPart rest
    let (exponent, rest) := exponentPart rest
    match fraction, exponent with
    | none, none =>
        if Text.digitLimit < whole.length then .error (.tooManyDigits whole.length)
        else
          let n : Int := digitsValue whole
          .ok (.int (if negative then -n else n), rest)
    | _, _ =>
        let places := fraction.getD []
        let x := Decimal.read (digitsValue (whole ++ places)) (exponent.getD 0 - places.length)
        .ok (.float (if negative then -x else x), rest)

/-! ### Values -/

/-- A word that stands for data. -/
def words : List (String × Data) :=
  [("null", .null), ("true", .bool true), ("false", .bool false),
    ("NaN", .float (0.0 / 0.0)), ("Infinity", .float (1.0 / 0.0)),
    ("-Infinity", .float (-1.0 / 0.0))]

/-- A value without parts at the front of a text. -/
def leaf : Reader Data := fun cs =>
  match words.findSome? fun w => (afterWord? w.1 cs).map (w.2, ·) with
  | some r => .ok r
  | none =>
      match cs with
      | '-' :: rest => number true rest
      | _ => number false cs

/-- What may be read next inside a list or an object. -/
inductive Place where
  /-- A value. -/
  | value
  /-- The items of a list, after its opening bracket or after a comma. -/
  | items
  /-- The fields of an object, after its opening brace or after a comma. -/
  | fields

/-- What is read at a place. -/
def Place.Result : Place → Type
  | value => Data
  | items => List Data
  | fields => List (List CodePoint × Data)

/-- How many lists and objects may stand inside one another. -/
def levelLimit : Nat := 985

/-- Reads a value, the items of a list or the fields of an object, after the blanks at the front,
with a number of levels left for lists and objects.  The fuel exceeds the number of values and
brackets in the text. -/
def element : Nat → Nat → (p : Place) → Reader p.Result
  | 0, _, _ => fun _ => .error .malformed
  | fuel + 1, levels, .value => fun cs =>
      match cs, levels with
      | '"' :: rest, _ => (stringBody (rest.length + 1) rest).map fun (s, r) => (.str s, r)
      | '[' :: _, 0 => .error (.tooDeep "array")
      | '[' :: rest, levels + 1 =>
          match skipBlanks rest with
          | ']' :: rest' => .ok (.list [], rest')
          | rest' => (element fuel levels .items rest').map fun (ds, r) => (.list ds, r)
      | '\x7b' :: _, 0 => .error (.tooDeep "object")
      | '\x7b' :: rest, levels + 1 =>
          match skipBlanks rest with
          | '\x7d' :: rest' => .ok (.object [], rest')
          | rest' =>
              (element fuel levels .fields rest').map fun (fs, r) =>
                (.object (fs.foldl (fun done f => put done f.1 f.2) []), r)
      | _, _ => leaf cs
  | fuel + 1, levels, .items => fun cs => do
      let (d, rest) ← element fuel levels .value cs
      match skipBlanks rest with
      | ']' :: rest' => return ([d], rest')
      | ',' :: rest' =>
          let (ds, rest'') ← element fuel levels .items (skipBlanks rest')
          return (d :: ds, rest'')
      | _ => .error .malformed
  | fuel + 1, levels, .fields => fun cs =>
      match cs with
      | '"' :: rest => do
          let (key, rest) ← stringBody (rest.length + 1) rest
          match skipBlanks rest with
          | ':' :: rest' =>
              let (d, rest) ← element fuel levels .value (skipBlanks rest')
              match skipBlanks rest with
              | '\x7d' :: rest' => return ([(key, d)], rest')
              | ',' :: rest' =>
                  let (fs, rest'') ← element fuel levels .fields (skipBlanks rest')
                  return ((key, d) :: fs, rest'')
              | _ => .error .malformed
          | _ => .error .malformed
      | _ => .error .malformed

/-- The data that a text stands for.  A byte order mark in front is not blank. -/
def ofJson (s : String) : Except Fault Data :=
  let cs := skipBlanks s.toList
  match element (2 * cs.length + 2) levelLimit .value cs with
  | .error f => .error f
  | .ok (d, rest) => if (skipBlanks rest).isEmpty then .ok d else .error .malformed

end CandyCircle.Data
