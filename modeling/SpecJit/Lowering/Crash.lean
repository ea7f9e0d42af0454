import SpecJit.AbstractValue
import SpecJit.Exit
import SpecJit.Helper
import SpecJit.Lowering.Form

/-!
# Crashes of the lowering

The lowering relies on what the capability check and the analyses established. Where a graph breaks
that, it stops with a `Crash` that tells where it was and what it found.
-/

namespace SpecJit

namespace Lowering

/-- What the lowering found. -/
inductive CrashCause where
  | missingBlock (block : BlockIndex)
  | fellThrough
  | noResult (node : NodeId)
  | noUpsilon (phi : NodeId) (target : BlockIndex)
  | phiWithoutParameter
  | phiForm (phi : NodeId) (result : NodeResult)
  | wrongArity (helper : Helper) (given : Nat)
  | slotRead (format : FlushFormat)
  | slotWrite (format : FlushFormat)
  | missingForm (node : NodeId) (form : Form)
  | nothingToBox (node : NodeId)
  | notACell (node : NodeId) (useKind : UseKind)
  /-- a use that an operation, given by name, cannot read -/
  | unreadableUse (what : String) (useKind : UseKind)
  | resultForm (op : Op) (result : NodeResult)
  | killedButLive (operand : Operand) (origin : CodeOrigin)
  | unknownStructure (id : StructureId)
  | noStructureToBuild
  | activationStructures
  | noSlotFor (id : StructureId) (identifier : String)
  | uncheckedMode (mode : ArrayMode)
  | lengthMode (arrayType : ArrayType)
  | indexMissing
  | arrayShape (shape : UInt8)
  | elementOfDoubles (element : FrozenValue)
  | spreadTarget (start : Operand)
  | stringSwitchUse (useKind : UseKind)
  | cellSwitchKey (key : SwitchValue)

namespace CrashCause

/-- The text of what was found. -/
def message : CrashCause → String
  | .missingBlock block => s!"lowering missing block {block}"
  | .fellThrough => "block fell through without a terminal"
  | .noResult node => s!"{node} has no result"
  | .noUpsilon phi target => s!"no upsilon for {phi} on edge to {target}"
  | .phiWithoutParameter => "phi without a block parameter"
  | .phiForm phi result => s!"phi {phi} with {result.name} result"
  | .wrongArity helper given => s!"{helper} takes {helper.paramCount} arguments, got {given}"
  | .slotRead format => s!"GetStack of a {format.name} slot"
  | .slotWrite format => s!"PutStack of a {format.name} slot"
  | .missingForm node form =>
    s!"{node} requested as {form.name} but never produced in that representation"
  | .nothingToBox node => s!"{node} has no value to box"
  | .notACell node useKind => s!"{node} used as a cell through {useKind}"
  | .unreadableUse what useKind => s!"{what} {useKind}"
  | .resultForm op result => s!"{op.name} with a {result.name} result"
  | .killedButLive operand origin => s!"{operand} is live in bytecode at {origin} but was killed"
  | .unknownStructure id => s!"structure {id.index} is not in the graph's registry"
  | .noStructureToBuild => "materialization without a structure"
  | .activationStructures => "activation materialization needs exactly one structure"
  | .noSlotFor id identifier => s!"structure {id.index} has no slot for {identifier}"
  | .uncheckedMode mode => s!"no check for array mode {mode.debug}"
  | .lengthMode arrayType => s!"GetArrayLength with {arrayType.debug}"
  | .indexMissing => "GetMyArgumentByVal without an index"
  | .arrayShape shape => s!"array allocation with indexing shape {hexText shape.toUInt64}"
  | .elementOfDoubles element => s!"non-number {element.debug} in a double array buffer"
  | .spreadTarget start => s!"varargs into {start.debug}"
  | .stringSwitchUse useKind => s!"string switch on a {useKind} edge"
  | .cellSwitchKey key => s!"cell switch with a {key.debug} case"

end CrashCause

/-- Where the lowering stopped, and why. -/
structure Crash where
  function : String
  block : BlockIndex
  node : Option NodeId
  /-- the name of the node's operation -/
  op : Option String
  cause : CrashCause

/-- The full text of a crash. -/
def Crash.message (c : Crash) : String :=
  let node := match c.node with
    | some id => s!"Some({id.debug})"
    | none => "None"
  let op := c.op.getD "-"
  s!"strata lowering crash in {c.function} at {c.block} {node} ({op}): {c.cause.message}"

/-- Why the lowering stops: a broken rule of its own, or ill-formed data. -/
inductive Failure where
  | crash (c : Crash)
  | fault (f : Fault)

end Lowering

end SpecJit
