/-
**Writing data as JSON.**

The written form is plain ASCII: every other character is escaped by its 16-bit units.  With an
indentation each item and each field stands on a line of its own; without one everything stands on
one line.

Main definitions:

* `CandyCircle.Data.jsonText` — a text as a JSON string;
* `CandyCircle.Data.compact` — data on one line;
* `CandyCircle.Data.indented` — data on indented lines;
* `CandyCircle.Data.toJson` — either, as an optional indentation says;
* `CandyCircle.Data.indentation` — the indentation that data asks for.
-/
import CandyCircle.Data.Kind
import CandyCircle.Text.Layout

set_option autoImplicit false

namespace CandyCircle.Data

/-- A code point inside a JSON string. -/
def jsonPoint (p : CodePoint) : String :=
  let n := p.value
  if n = 0x22 then "\\\""
  else if n = 0x5C then "\\\\"
  else if n = 0x0A then "\\n"
  else if n = 0x0D then "\\r"
  else if n = 0x09 then "\\t"
  else if n = 0x0C then "\\f"
  else if n = 0x08 then "\\b"
  else if 0x20 ≤ n && n ≤ 0x7E then p.shown.toString
  else String.join (p.units.map fun u => "\\u" ++ Text.hexPadded 4 u)

/-- A text as a JSON string. -/
def jsonText (points : List CodePoint) : String :=
  "\"" ++ String.join (points.map jsonPoint) ++ "\""

/-- The style in which JSON writes doubles. -/
def jsonStyle : Decimal.FloatStyle :=
  { Decimal.plainStyle with nan := "NaN", infinity := "Infinity" }

/-- Data without parts as JSON; lists and objects are left to their printers. -/
def jsonLeaf : Data → String
  | .null => "null"
  | .bool b => if b then "true" else "false"
  | .int n => Decimal.ofInt n
  | .float x => jsonStyle.render x
  | .str points => jsonText points
  | .list _ => "[]"
  | .object _ => "\x7b\x7d"

mutual

/-- Data as JSON on one line. -/
def compact : Data → String
  | .list items => "[" ++ Text.commaSeparated (compactItems items) ++ "]"
  | .object fields => "\x7b" ++ Text.commaSeparated (compactFields fields) ++ "\x7d"
  | d => jsonLeaf d

/-- The items of a list, each on one line. -/
def compactItems : List Data → List String
  | [] => []
  | d :: rest => compact d :: compactItems rest

/-- The fields of an object, each on one line. -/
def compactFields : List (List CodePoint × Data) → List String
  | [] => []
  | (key, d) :: rest => (jsonText key ++ ": " ++ compact d) :: compactFields rest

end

/-- A text over and over. -/
def repeated (unit : String) (times : Nat) : String :=
  String.join (List.replicate times unit)

/-- Parts between brackets, each on a line that is indented one level deeper than the closing
bracket. -/
def bracketed (opening closing unit : String) (level : Nat) (parts : List String) : String :=
  let inner := "\n" ++ repeated unit (level + 1)
  let outer := "\n" ++ repeated unit level
  opening ++ inner ++ String.intercalate ("," ++ inner) parts ++ outer ++ closing

mutual

/-- Data as JSON on lines that are indented by a text for each level. -/
def indented (unit : String) (level : Nat) : Data → String
  | .list [] => "[]"
  | .list (d :: rest) =>
      bracketed "[" "]" unit level
        (indented unit (level + 1) d :: indentedItems unit (level + 1) rest)
  | .object [] => "\x7b\x7d"
  | .object ((key, d) :: rest) =>
      bracketed "\x7b" "\x7d" unit level
        ((jsonText key ++ ": " ++ indented unit (level + 1) d) ::
          indentedFields unit (level + 1) rest)
  | d => jsonLeaf d

/-- The items of a list on indented lines. -/
def indentedItems (unit : String) (level : Nat) : List Data → List String
  | [] => []
  | d :: rest => indented unit level d :: indentedItems unit level rest

/-- The fields of an object on indented lines. -/
def indentedFields (unit : String) (level : Nat) : List (List CodePoint × Data) → List String
  | [] => []
  | (key, d) :: rest =>
      (jsonText key ++ ": " ++ indented unit level d) :: indentedFields unit level rest

end

/-- Data as JSON: on one line, or on lines that are indented by a text for each level. -/
def toJson (indent : Option String) (d : Data) : String :=
  match indent with
  | none => compact d
  | some unit => indented unit 0 d

/-! ### Indentation -/

/-- The indentation if nothing is said about it: two blanks. -/
def usualIndent : Option String := some (Text.blanks 2)

/-- The indentation that data asks for: none at all, so many blanks, or a text. -/
def indentation : Data → Except KindFault (Option String)
  | .null => .ok none
  | .str points => .ok (some (CodePoint.toText points))
  | d => d.repetitions.map fun n => some (Text.blanks n)

end CandyCircle.Data
