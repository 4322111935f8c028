/-
**Fields with defaults.**

Data is read for what it should be; where it is missing or of another kind, a default stands in.  A
field that holds nothing counts as missing.

Main definitions:

* `CandyCircle.Data.toText?`, `CandyCircle.Data.toWhole`, `CandyCircle.Data.toItems` — data as a
  text, a whole number and a list;
* `CandyCircle.Data.field`, `CandyCircle.Data.given?` — fields, and fields that hold something;
* `CandyCircle.Data.textOr`, `CandyCircle.Data.intOr`, `CandyCircle.Data.flagOr` — fields with
  defaults.
-/
import CandyCircle.Data

set_option autoImplicit false

namespace CandyCircle.Data

/-- The text that data is. -/
def toText? : Data → Option String
  | .str points => some (CodePoint.toText points)
  | _ => none

/-- The text that data is, empty if it is none. -/
def toText (d : Data) : String :=
  d.toText?.getD ""

/-- The whole number that data is: truth values are one and zero, and all else is zero. -/
def toWhole : Data → Int
  | .int n => n
  | .bool b => b.toInt
  | _ => 0

/-- The items of a list, none for anything else. -/
def toItems : Data → List Data
  | .list xs => xs
  | _ => []

/-- The fields of an object, none for anything else. -/
def toFields : Data → List (List CodePoint × Data)
  | .object fs => fs
  | _ => []

/-- The value of a field, nothing if it is missing. -/
def field (d : Data) (key : String) : Data :=
  (d.field? key).getD .null

/-- The value of a field that holds something. -/
def given? (d : Data) (key : String) : Option Data :=
  match d.field? key with
  | some .null => none
  | other => other

/-- The text of a field. -/
def textOf? (d : Data) (key : String) : Option String :=
  (d.given? key).bind toText?

/-- The text of a field, with a default. -/
def textOr (d : Data) (key fallback : String) : String :=
  (d.textOf? key).getD fallback

/-- Whether a field counts as yes, with a default for a field that is missing. -/
def flagOr (d : Data) (key : String) (fallback : Bool) : Bool :=
  ((d.field? key).map affirms).getD fallback

/-- The whole number of a field, with a default. -/
def intOr (d : Data) (key : String) (fallback : Int) : Int :=
  match d.field? key with
  | some (.int n) => n
  | _ => fallback

/-- The items of a field. -/
def listOf (d : Data) (key : String) : List Data :=
  (d.field key).toItems

/-- The texts of a field. -/
def textsOf (d : Data) (key : String) : List String :=
  (d.listOf key).map toText

end CandyCircle.Data
