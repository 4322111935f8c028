/-
**Signatures.**

What is made from several parameters takes them by place or by name.  A signature says which
parameters there are; the parameters that it takes are checked against it, and the first fault is
reported: a name that no parameter has or that is given twice, then more places than parameters, and
last the parameters that are missing.

Main definitions:

* `CandyCircle.Signature`, `CandyCircle.Arguments` — signatures, and values of parameters by name;
* `CandyCircle.Signature.Fault`, `CandyCircle.Signature.Fault.message` — why values do not fit;
* `CandyCircle.Signature.bind` — the values of the parameters.
-/
import CandyCircle.Data

set_option autoImplicit false

namespace CandyCircle

/-- The parameters that something takes. -/
structure Signature where
  /-- The name of what takes them. -/
  name : String
  /-- The parameter that is given beforehand, if there is one. -/
  subject : Option String := none
  /-- The parameters that have to be given. -/
  required : List String
  /-- The parameters that may be given. -/
  optional : List String := []

/-- Values of parameters by name. -/
abbrev Arguments := List (String × Data)

namespace Signature

/-- The parameters that can be given by place. -/
def places (s : Signature) : List String :=
  s.required ++ s.optional

/-- Why values do not fit a signature. -/
inductive Fault where
  /-- No parameter has a name. -/
  | unknown (name : List CodePoint)
  /-- A parameter is given twice. -/
  | repeated (name : String)
  /-- There are more values than parameters. -/
  | tooMany (given : Nat)
  /-- Parameters are missing. -/
  | missing (names : List String)

/-! ### Wording -/

/-- The number of a word, with the ending of its plural unless it is one. -/
def plural (n : Nat) (word : String) : String :=
  word ++ if n = 1 then "" else "s"

/-- Names in quotes as an enumeration. -/
def enumerated : List String → String
  | [a] => "'" ++ a ++ "'"
  | [a, b] => "'" ++ a ++ "' and '" ++ b ++ "'"
  | names =>
      Text.commaSeparated (names.dropLast.map fun n => "'" ++ n ++ "'") ++ ", and '" ++
        names.getLastD "" ++ "'"

/-- The number of values that a signature takes by place, and the word for them. -/
def capacity (s : Signature) : String :=
  let least := s.subject.toList.length + s.required.length
  let most := least + s.optional.length
  if s.optional.isEmpty then Decimal.ofNat most ++ " positional " ++ plural most "argument"
  else
    "from " ++ Decimal.ofNat least ++ " to " ++ Decimal.ofNat most ++ " positional arguments"

/-- The wording of a fault. -/
def Fault.message (s : Signature) : Fault → String
  | unknown name =>
      s.name ++ "() got an unexpected keyword argument '" ++ CodePoint.toText name ++ "'"
  | repeated name => s.name ++ "() got multiple values for argument '" ++ name ++ "'"
  | tooMany given =>
      let given := given + s.subject.toList.length
      s.name ++ "() takes " ++ s.capacity ++ " but " ++ Decimal.ofNat given ++
        (if given = 1 then " was" else " were") ++ " given"
  | missing names =>
      s.name ++ "() missing " ++ Decimal.ofNat names.length ++ " required positional " ++
        plural names.length "argument" ++ ": " ++ enumerated names

/-! ### Values of parameters -/

/-- Values with one more given by name. -/
def bindName (s : Signature) (bound : Arguments) (entry : List CodePoint × Data) :
    Except Fault Arguments :=
  match (s.subject.toList ++ s.places).find? fun p => CodePoint.ofString p == entry.1 with
  | none => .error (.unknown entry.1)
  | some p =>
      if s.subject == some p || (bound.lookup p).isSome then .error (.repeated p)
      else .ok (bound ++ [(p, entry.2)])

/-- The values of the parameters, from values by place and values by name. -/
def bind (s : Signature) (byPlace : List Data) (byName : List (List CodePoint × Data)) :
    Except Fault Arguments := do
  let bound ← byName.foldlM s.bindName (s.places.zip byPlace)
  if s.places.length < byPlace.length then
    throw (.tooMany byPlace.length)
  match s.required.filter fun p => (bound.lookup p).isNone with
  | [] => return bound
  | first :: others => throw (.missing (first :: others))

end Signature

end CandyCircle
