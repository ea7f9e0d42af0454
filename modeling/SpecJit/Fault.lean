/-!
# Faults

Data that passes the checks at the border can still break a rule that only a later step would
notice. Such a step stops with a `Fault` and gives no further report.
-/

namespace SpecJit

/-- Why a step on ill-formed data stops. -/
inductive Fault where
  /-- an index outside its table -/
  | outOfRange
  /-- a number left the range of its type -/
  | overflow
  /-- a builder was used out of order -/
  | refused
  /-- a text for the operating system holds the character NUL -/
  | nulInText
deriving DecidableEq, Hashable, Inhabited, Repr

namespace Fault

/-- The value under an index, or `outOfRange`. -/
def ofOption {α : Type} : Option α → Except Fault α
  | some a => .ok a
  | none => .error .outOfRange

/-- `n` if it fits into 32 bits unsigned. -/
def checkU32 (n : Int) : Except Fault Nat :=
  if 0 ≤ n ∧ n < 0x100000000 then .ok n.toNat else .error .overflow

/-- `n` if it fits into 32 bits signed. -/
def checkI32 (n : Int) : Except Fault Int :=
  if -0x80000000 ≤ n ∧ n < 0x80000000 then .ok n else .error .overflow

/-- `s` if it can be handed to the operating system. -/
def checkNul (s : String) : Except Fault String :=
  if s.toList.all fun c => c.toNat != 0 then .ok s else .error .nulInText

end Fault

end SpecJit
