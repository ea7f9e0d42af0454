import SpecJit.Operand

/-!
# Liveness of source variables

For some source positions it is known which variables are still read; at a position without an
entry every variable counts as live.
-/

namespace SpecJit

/-- The live variables by source position, the newest entry of a position first. -/
structure Liveness where
  entries : List (Nat × List Operand) := []
deriving DecidableEq, Inhabited, Repr

namespace Liveness

/-- The live variables at a position, if it has an entry. -/
def at? (l : Liveness) (bytecodeIndex : Nat) : Option (List Operand) :=
  l.entries.lookup bytecodeIndex

/-- Gives a position its entry, in place of the one it has. -/
def setLive (l : Liveness) (bytecodeIndex : Nat) (operands : List Operand) : Liveness :=
  ⟨(bytecodeIndex, operands.eraseDups) :: l.entries.filter fun e => e.1 != bytecodeIndex⟩

def hasEntry (l : Liveness) (origin : CodeOrigin) : Bool := (l.at? origin.bytecodeIndex).isSome

def isLive (l : Liveness) (origin : CodeOrigin) (operand : Operand) : Bool :=
  match l.at? origin.bytecodeIndex with
  | some operands => operands.contains operand
  | none => true

instance : Encode Liveness where
  encode l := .obj [("live", .obj (l.entries.map fun e => (toString e.1, encode e.2)))]

/-- Reads the entries one by one. -/
def ofMembers? (members : List (String × Json)) : Option Liveness :=
  members.foldlM (fun l (k, j) => do return l.setLive (← Json.natKey? k) (← decode j)) {}

/-- The entries read from an object. -/
instance : Decode Liveness where
  decode j := do
    let f ← Json.fields? ["live"] j
    let members : Json ← f.get "live"
    match members with
    | .obj members => ofMembers? members
    | _ => none

end Liveness

end SpecJit
