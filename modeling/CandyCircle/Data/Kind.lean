/-
**Kinds of data.**

Data of one kind is of no use where another kind is needed.

Main definitions:

* `CandyCircle.KindFault`, `CandyCircle.KindFault.message` — data of a kind that is of no use where
  it stands;
* `CandyCircle.Data.itemsOrFault`, `CandyCircle.Data.fieldsOrFault` — the items and the fields that
  data has to have;
* `CandyCircle.Data.repetitions` — how often something is repeated.
-/
import CandyCircle.Data.Signature

set_option autoImplicit false

namespace CandyCircle

/-- Data, or something else, is of a kind that is of no use where it stands. -/
inductive KindFault where
  /-- It has no items. -/
  | noItems (value : Data)
  /-- It has no number of items. -/
  | noSize (value : Data)
  /-- It has no layout of its own. -/
  | noLayout (value : Data)
  /-- It holds nothing that could be looked for. -/
  | noMembers (value : Data)
  /-- It has no fields. -/
  | noFields (taker : String) (value : Data)
  /-- Two kinds have no order. -/
  | incomparable (sign left right : String)
  /-- It cannot be told apart from others by a table. -/
  | notIndexed (value : Data)
  /-- It is no term. -/
  | notTerm (value : Data)
  /-- It is no number of repetitions. -/
  | notWhole (value : Data)
  /-- It is no name of a file. -/
  | notPath (value : Data)
  /-- It has no parts that could be picked out. -/
  | noParts (value : Data)
  /-- It is picked apart by a key, which it has none of. -/
  | noKeys (value : Data)
  /-- It cannot do what is asked of it. -/
  | noSkill (skill : String) (value : Data)
  /-- It is written by a code that it does not know. -/
  | noCode (code : String) (value : Data)
  /-- It does not say how often something is repeated. -/
  | notCount (value : Data)
  /-- It says that something is repeated more often than can be counted. -/
  | beyondCounts
  /-- It stands at a place among texts that are joined, and is no text. -/
  | notTextAt (place : Nat) (value : Data)
  /-- It cannot be put behind data of another kind. -/
  | notJoined (front : Data) (value : Data)
  /-- Two kinds have no common operation. -/
  | operands (sign left right : String)
  /-- A kind has no such operation. -/
  | operand (sign kind : String)
  /-- It is a whole number beyond all doubles. -/
  | beyondDoubles
  /-- Values do not fit a signature. -/
  | arguments (signature : Signature) (fault : Signature.Fault)

/-- The wording of a fault. -/
def KindFault.message : KindFault → String
  | noItems value => "'" ++ value.kindName ++ "' object is not iterable"
  | noSize value => "object of type '" ++ value.kindName ++ "' has no len()"
  | noLayout value => "unsupported format string passed to " ++ value.kindName ++ ".__format__"
  | noMembers value => "argument of type '" ++ value.kindName ++ "' is not iterable"
  | noFields taker value =>
      taker ++ "() argument after ** must be a mapping, not " ++ value.kindName
  | incomparable sign left right =>
      "'" ++ sign ++ "' not supported between instances of '" ++ left ++ "' and '" ++ right ++ "'"
  | notIndexed value => "unhashable type: '" ++ value.kindName ++ "'"
  | notTerm value => "cannot use " ++ value.literal ++ " as a solver term"
  | notWhole value =>
      "'" ++ value.kindName ++ "' object cannot be interpreted as an integer"
  | notPath value => "expected str, bytes or os.PathLike object, not " ++ value.kindName
  | noParts (.object _) => "unhashable type: 'slice'"
  | noParts value => "'" ++ value.kindName ++ "' object is not subscriptable"
  | noKeys (.str _) => "string indices must be integers, not 'str'"
  | noKeys value => value.kindName ++ " indices must be integers or slices, not str"
  | noSkill skill value =>
      "'" ++ value.kindName ++ "' object has no attribute '" ++ skill ++ "'"
  | noCode code value =>
      "Unknown format code '" ++ code ++ "' for object of type '" ++ value.kindName ++ "'"
  | notCount value => "can't multiply sequence by non-int of type '" ++ value.kindName ++ "'"
  | beyondCounts => "cannot fit 'int' into an index-sized integer"
  | notTextAt place value =>
      "sequence item " ++ Decimal.ofNat place ++ ": expected str instance, " ++ value.kindName ++
        " found"
  | notJoined front value =>
      "can only concatenate " ++ front.kindName ++ " (not \"" ++ value.kindName ++ "\") to " ++
        front.kindName
  | operands sign left right =>
      "unsupported operand type(s) for " ++ sign ++ ": '" ++ left ++ "' and '" ++ right ++ "'"
  | operand sign kind => "bad operand type for unary " ++ sign ++ ": '" ++ kind ++ "'"
  | beyondDoubles => "int too large to convert to float"
  | arguments signature fault => fault.message signature

namespace Data

/-- The items that data is run through by, if it has any. -/
def itemsOrFault (d : Data) : Except KindFault (List Data) :=
  match d.items? with
  | some items => .ok items
  | none => .error (.noItems d)

/-- The least number that is too great to count repetitions, two to the power of 63. -/
def countLimit : Int := 0x8000000000000000

/-- How often something is repeated, from data that says so. -/
def repetitions (d : Data) : Except KindFault Nat :=
  match d with
  | .int n => if -countLimit ≤ n && n < countLimit then .ok n.toNat else .error .beyondCounts
  | .bool b => .ok b.toInt.toNat
  | d => .error (.notCount d)

/-- The fields of data that is handed over field by field. -/
def fieldsOrFault (taker : String) : Data → Except KindFault (List (List CodePoint × Data))
  | .object fields => .ok fields
  | d => .error (.noFields taker d)

end Data

end CandyCircle
