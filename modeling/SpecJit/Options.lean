import SpecJit.Json.Codec

/-!
# Options of the lowering
-/

namespace SpecJit

/-- What an exit restores. -/
inductive ExitLiveness where
  /-- the variables that are still read -/
  | pruned
  /-- every variable -/
  | conservative
deriving DecidableEq, Inhabited, Repr

namespace ExitLiveness

def all : List ExitLiveness := [.pruned, .conservative]

def name : ExitLiveness → String
  | .pruned => "Pruned"
  | .conservative => "Conservative"

instance : Decode ExitLiveness := ⟨Json.enum? all name⟩

end ExitLiveness

/-- Options of the lowering. -/
structure LoweringOptions where
  exitLiveness : ExitLiveness := .pruned
  /-- refuse to lose a live variable -/
  validateExitLiveness : Bool := true
  /-- a longer case leaves the whole string switch to the runtime -/
  maxStringSwitchCaseLength : Nat := 50
  /-- the same for the sum of all cases -/
  maxStringSwitchTotalLength : Nat := 2000
  /-- longer arrays are allocated by the runtime -/
  maxInlineArrayAllocation : Nat := 64
  /-- keep 52-bit integers unboxed -/
  enableInt52 : Bool := true
  /-- larger sets of structures are forgotten -/
  maxStructureSetSize : Nat := 8
deriving DecidableEq, Inhabited, Repr

/-- Options are read from an object; one that is missing or `null` keeps its default. -/
instance : Decode LoweringOptions where
  decode j :=
    let given {α : Type} [Decode α] (name : String) (default : α) : Option α :=
      match j.field? name with
      | none | some .null => some default
      | some v => decode v
    let size (name : String) (default : Nat) : Option Nat :=
      (given name (UInt64.ofNat default)).map UInt64.toNat
    let d : LoweringOptions := {}
    return {
      exitLiveness := ← given "exit_liveness" d.exitLiveness
      validateExitLiveness := ← given "validate_exit_liveness" d.validateExitLiveness
      maxStringSwitchCaseLength :=
        ← size "max_string_switch_case_length" d.maxStringSwitchCaseLength
      maxStringSwitchTotalLength :=
        ← size "max_string_switch_total_length" d.maxStringSwitchTotalLength
      maxInlineArrayAllocation := ← given "max_inline_array_allocation" d.maxInlineArrayAllocation
      enableInt52 := ← given "enable_int52" d.enableInt52
      maxStructureSetSize := ← size "max_structure_set_size" d.maxStructureSetSize }

end SpecJit
