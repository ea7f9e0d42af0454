/-!
# JSON values

The data model of the interchange format: the only numbers that carry meaning are integers, so a
number that is not one is kept as its source text (`real`) and no reader accepts it.

Objects keep the order and the repetitions of their members, since a reader of records refuses a
repeated field. A reader that takes its keys for numbers reads them as they are written, so an
object with a key that is written with an escape is told apart (`objEscaped`).

A reader skips what it does not know without reading it. What could not be read, because it is no
Unicode text, can still be skipped (`illFormed`).
-/

namespace SpecJit

/-- A JSON value. -/
inductive Json where
  | null
  | bool (b : Bool)
  | int (n : Int)
  | real (text : String)
  | str (s : String)
  | arr (items : List Json)
  | obj (members : List (String × Json))
  /-- an object of which a key is written with an escape -/
  | objEscaped (members : List (String × Json))
  /-- a string with an unpaired surrogate, or an object with such a key -/
  | illFormed
deriving Inhabited, Repr

namespace Json

/-- The members of an object. -/
def members? : Json → Option (List (String × Json))
  | .obj members | .objEscaped members => some members
  | _ => none

/-- The value of the last member called `key`. -/
def field? (j : Json) (key : String) : Option Json :=
  j.members?.bind fun members => members.reverse.lookup key

def asArr? : Json → Option (List Json)
  | .arr items => some items
  | _ => none

def asStr? : Json → Option String
  | .str s => some s
  | _ => none

def asBool? : Json → Option Bool
  | .bool b => some b
  | _ => none

def asInt? : Json → Option Int
  | .int n => some n
  | _ => none

def isNull : Json → Bool
  | .null => true
  | _ => false

end Json

end SpecJit
