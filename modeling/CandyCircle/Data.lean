/-
**Ordered data.**

Data as a file or a report holds it: truth values, whole numbers, doubles, texts, lists, and objects
whose fields keep the order in which they were given.  Whole numbers and doubles are told apart.

Main definitions:

* `CandyCircle.Data` — the type;
* `CandyCircle.Data.text`, `CandyCircle.Data.object` — data from strings;
* `CandyCircle.Data.field?`, `CandyCircle.Data.put` — looking a field up, and setting one;
* `CandyCircle.Data.literal` — data as a literal;
* `CandyCircle.Data.shown`, `CandyCircle.Data.toString` — data as text: a text as it is, anything
  else as a literal;
* `CandyCircle.Data.affirms` — whether data counts as yes.
-/
import CandyCircle.Decimal.Shortest
import CandyCircle.Text.Layout
import CandyCircle.Text.Quoted

set_option autoImplicit false

namespace CandyCircle

/-- Data: what a file, a report or a detail of an error holds. -/
inductive Data where
  /-- Nothing. -/
  | null
  /-- A truth value. -/
  | bool (b : Bool)
  /-- A whole number. -/
  | int (n : Int)
  /-- A double. -/
  | float (x : Float)
  /-- A text. -/
  | str (points : List CodePoint)
  /-- A list. -/
  | list (items : List Data)
  /-- An object: its fields in order. -/
  | object (fields : List (List CodePoint × Data))
  deriving Inhabited

namespace Data

/-- The text of a string. -/
def text (s : String) : Data :=
  .str (CodePoint.ofString s)

/-- The object with the given fields. -/
def ofFields (fields : List (String × Data)) : Data :=
  .object (fields.map fun f => (CodePoint.ofString f.1, f.2))

/-- A text, or nothing. -/
def ofText? : Option String → Data
  | some s => text s
  | none => null

/-- A natural number as data. -/
def nat (n : Nat) : Data :=
  .int n

/-! ### Fields -/

/-- The value of a field of an object. -/
def field? (d : Data) (key : String) : Option Data :=
  match d with
  | .object fields => (fields.find? fun f => f.1 == CodePoint.ofString key).map Prod.snd
  | _ => none

/-- Fields with one of them set: a field of that name keeps its place, a new one comes last. -/
def put (fields : List (List CodePoint × Data)) (key : List CodePoint) (value : Data) :
    List (List CodePoint × Data) :=
  match fields with
  | [] => [(key, value)]
  | f :: rest => if f.1 = key then (key, value) :: rest else f :: put rest key value

/-- The items of what can be run through: a list has its items, a text its characters, an object
its keys. -/
def items? : Data → Option (List Data)
  | .list items => some items
  | .str points => some (points.map fun p => .str [p])
  | .object fields => some (fields.map fun f => .str f.1)
  | _ => none

/-! ### Literals -/

/-- The name of the kind of data, as complaints about it use it. -/
def kindName : Data → String
  | .null => "NoneType"
  | .bool _ => "bool"
  | .int _ => "int"
  | .float _ => "float"
  | .str _ => "str"
  | .list _ => "list"
  | .object _ => "dict"

mutual

/-- Data as a literal: texts are quoted, and the parts of lists and objects stand between
brackets and commas. -/
def literal : Data → String
  | .null => "None"
  | .bool b => if b then "True" else "False"
  | .int n => Decimal.ofInt n
  | .float x => Decimal.ofFloat x
  | .str points => Text.quoted points
  | .list items => "[" ++ Text.commaSeparated (itemLiterals items) ++ "]"
  | .object fields => "\x7b" ++ Text.commaSeparated (fieldLiterals fields) ++ "\x7d"

/-- The literals of the items of a list. -/
def itemLiterals : List Data → List String
  | [] => []
  | d :: rest => literal d :: itemLiterals rest

/-- The literals of the fields of an object. -/
def fieldLiterals : List (List CodePoint × Data) → List String
  | [] => []
  | (key, d) :: rest => (Text.quoted key ++ ": " ++ literal d) :: fieldLiterals rest

end

/-- Data as text: a text as it is, anything else as a literal. -/
def shown : Data → List CodePoint
  | .str points => points
  | d => CodePoint.ofString d.literal

/-- Data as a string: a text as it is, anything else as a literal. -/
def toString (d : Data) : String :=
  CodePoint.toText d.shown

/-- Whether data counts as yes: nothing, false, zero and whatever is empty do not. -/
def affirms : Data → Bool
  | .null => false
  | .bool b => b
  | .int n => n != 0
  | .float x => x != 0.0
  | .str points => !points.isEmpty
  | .list items => !items.isEmpty
  | .object fields => !fields.isEmpty

end Data

end CandyCircle
