import SpecJit.Lowering.ArrayObject
import SpecJit.Lowering.Call
import SpecJit.Lowering.Coercion
import SpecJit.Lowering.Scope
import SpecJit.Lowering.Switch

/-!
# Code for a node
-/

namespace SpecJit.Lowering

open Lir

/-! ## The frame -/

/-- Reads a slot of the frame. -/
def lowerGetStack (id : NodeId) (access : StackAccess) : Lower Unit := do
  let offset ← Frame.offset access.slot
  let frame := (← read).frame
  match access.format with
  | .int32 => record id .int32 (← Emit.load32 frame offset)
  | .boolean => record id .boolean (← Emit.load32 frame offset)
  | .int52 => record id .int52 (← Emit.load64 frame offset)
  | .double => record id .double (← Emit.load .f64 .f64 false frame offset)
  | .cell | .jsValue => record id .jsValue (← Emit.load64 frame offset)
  | .dead | .conflicting => crash (.slotRead access.format)

/-- Writes a slot of the frame. -/
def lowerPutStack (node : Node) (access : StackAccess) : Lower Unit := do
  let offset ← Frame.offset access.slot
  let e ← node.child 0
  let frame := (← read).frame
  match access.format with
  | .int32 => Emit.store .w32 (← asInt32 e) frame offset
  | .boolean => Emit.store .w32 (← asBoolean e) frame offset
  | .int52 => Emit.store64 (← asInt52 e) frame offset
  | .double => Emit.store .f64 (← asDouble e) frame offset
  | .cell | .jsValue => Emit.store64 (← asValue e) frame offset
  | .dead | .conflicting => crash (.slotWrite access.format)

/-- Leaves if the code was invalidated. -/
def lowerInvalidationPoint : Lower Unit := do
  let flag ← Emit.load32 (← read).context Context.invalidatedOffset
  speculate .uncountableInvalidation none (← Emit.icmpImm .ne flag 0)

/-- Adds 1 to a counter in memory. -/
def lowerCountExecution (address : Word) : Lower Unit := do
  let counter ← Emit.word address
  let count ← Emit.load64 counter 0
  Emit.store64 (← Emit.binaryImm .add count 1) counter 0

/-! ## Phis and control -/

def lowerPhi (id : NodeId) : Lower Unit := do
  match (← read).phiParams.lookup id with
  | some param => setResult id param
  | none => crash .phiWithoutParameter

/-- The used value in the form of the phi that gets it. -/
def lowerUpsilon (node : Node) (phi : NodeId) : Lower Unit := do
  let e ← node.child 0
  let result := (← getNode phi).result
  let value ← match result with
    | .int32 => asInt32 e
    | .int52 => asStrictInt52 e
    | .double => asDouble e
    | .boolean => asBoolean e
    | .cell | .jsValue => asValue e
    | .storage | .none => crash (.phiForm phi result)
  modify fun s => { s with upsilons := (phi, value) :: s.upsilons }

/-- A branch; one whose condition is known becomes a jump. -/
def lowerBranch (node : Node) (data : BranchData) : Lower Unit := do
  let env ← read
  match ← check ((← get).facts.branchDirection? env.graph node) with
  | some true => jumpTo data.taken
  | some false => jumpTo data.notTaken
  | none =>
    let cond ← truth (← node.child 0)
    let takenArgs ← phiArguments data.taken
    let notTakenArgs ← phiArguments data.notTaken
    let taken ← env.bodyBlock data.taken
    let notTaken ← env.bodyBlock data.notTaken
    Emit.terminate (.branch cond taken takenArgs notTaken notTakenArgs .normal)

/-- Hands an exception to the runtime and returns its marker. -/
def lowerThrow (helper : Helper) (arg : Reg) : Lower Unit := do Emit.ret (← callHelper helper [arg])

def lowerTypedArrayByteOffset (id : NodeId) (node : Node) : Lower Unit := do
  let view ← asValue (← node.child 0)
  setResult id (← Emit.truncate (← callHelper .typedArrayByteOffset [view]))

/-! ## All operations -/

/-- Emits the code of a node. -/
def lowerOp (id : NodeId) (node : Node) : Lower Unit := do
  match node.op with
  | .jsConstant _ | .doubleConstant _ | .int52Constant _ => return ()
  | .identity => lowerIdentity id node
  | .phantom | .check => dischargeUses node
  | .bottomValue => endUnreachable
  | .getStack access => lowerGetStack id access
  | .putStack access => lowerPutStack node access
  | .killStack _ | .movHint _ | .zombieHint _ | .setArgument _ | .loopHint | .putHint _
  | .phantomAllocation _ => return ()
  | .phi => lowerPhi id
  | .upsilon phi => lowerUpsilon node phi
  | .getCallee => setResult id (← Emit.load64 (← read).frame (8 * Frame.calleeSlot))
  | .getArgumentCount => setResult id (← Emit.load32 (← read).frame (8 * Frame.argumentCountSlot))
  | .invalidationPoint => lowerInvalidationPoint
  | .countExecution counter => lowerCountExecution counter
  | .doubleRep => lowerDoubleRep id node
  | .valueRep => lowerValueRep id node
  | .int52Rep => lowerInt52Rep id node
  | .booleanToNumber => lowerBooleanToNumber id node
  | .doubleAsInt32 mode => lowerDoubleAsInt32 id node mode
  | .valueToInt32 => lowerValueToInt32 id node
  | .uint32ToNumber mode => lowerUInt32ToNumber id node mode
  | .arith op mode => lowerArith id node op mode
  | .arithMin => lowerMinMax id node .slt .min
  | .arithMax => lowerMinMax id node .sgt .max
  | .arithSqrt => lowerDoubleUnary id node .sqrt
  | .arithFRound => lowerDoubleUnary id node .demote
  | .arithSin => lowerMathCall id node .sin
  | .arithCos => lowerMathCall id node .cos
  | .arithLog => lowerMathCall id node .log
  | .arithPow => lowerPow id node
  | .arithRound mode => lowerRound id node mode
  | .arithClz32 => lowerClz32 id node
  | .valueAdd => lowerValueAdd id node
  | .bit op => lowerBit id node op
  | .compare op => lowerCompare id node op
  | .compareEqConstant => lowerEqNull id node
  | .logicalNot => lowerLogicalNot id node
  | .isType query => lowerTypeQuery id node query
  | .typeOf => lowerTypeOf id node
  | .checkStructure set => lowerCheckStructure node set
  | .checkCell cell => lowerCheckCell node cell
  | .checkBadCell => terminate .badCell
  | .checkNotEmpty => lowerCheckNotEmpty node
  | .checkInBounds => lowerCheckInBounds node
  | .checkArray mode => lowerCheckArray node mode
  | .checkHasInstance => lowerCheckHasInstance node
  | .forceOsrExit => terminate .inadequateCoverage
  | .getButterfly => lowerGetButterfly id node
  | .allocatePropertyStorage t => lowerAllocatePropertyStorage id node t
  | .reallocatePropertyStorage t => lowerReallocatePropertyStorage id node t
  | .getByOffset access => lowerGetByOffset id node access.offset
  | .putByOffset access => lowerPutByOffset node access.offset
  | .multiGetByOffset cases => lowerMultiGetByOffset id node cases
  | .multiPutByOffset cases => lowerMultiPutByOffset node cases
  | .putStructure t => lowerPutStructure node t
  | .newObject structureId => lowerNewObject id structureId
  | .newArray data => lowerNewArray id node data
  | .newArrayWithSize data => lowerNewArrayWithSize id node data
  | .newArrayBuffer data elements => lowerNewArrayBuffer id data elements
  | .storeBarrier => writeBarrier (← asValue (← node.child 0))
  | .getGlobalVar address => lowerGetGlobalVar id address
  | .putGlobalVar address => lowerPutGlobalVar node address
  | .getScope => lowerLoadLink id node .functionScope
  | .skipScope => lowerLoadLink id node .scopeNext
  | .getExecutable => lowerLoadLink id node .functionExecutable
  | .getClosureVar index => lowerGetClosureVar id node index
  | .putClosureVar index => lowerPutClosureVar node index
  | .newFunction => lowerNewFunction id node
  | .createActivation structureId => lowerCreateActivation id node structureId
  | .createDirectArguments => lowerCreateArguments id .createDirectArguments
  | .createScopedArguments => lowerCreateScopedArguments id node
  | .createClonedArguments => lowerCreateArguments id .createClonedArguments
  | .getFromArguments index => lowerGetFromArguments id node index
  | .putToArguments index => lowerPutToArguments node index
  | .getMyArgumentByVal => lowerGetMyArgumentByVal id node
  | .materializeNewObject data => lowerMaterializeNewObject id node data
  | .materializeCreateActivation data => lowerMaterializeActivation id node data
  | .getArrayLength mode => lowerGetArrayLength id node mode
  | .getByVal mode => lowerGetByVal id node mode
  | .putByVal mode => lowerPutByVal node mode
  | .arrayPush mode => lowerArrayPush id node mode
  | .arrayPop mode => lowerArrayPop id node mode
  | .hasIndexedProperty mode => lowerHasIndexedProperty id node mode
  | .getIndexedPropertyStorage mode => lowerGetIndexedPropertyStorage id node mode
  | .getTypedArrayByteOffset => lowerTypedArrayByteOffset id node
  | .stringCharAt _ => lowerStringCharAt id node
  | .stringCharCodeAt _ => lowerStringCharCodeAt id node
  | .getById identifier => lowerGetById id node identifier
  | .putById identifier => lowerPutById node .putById identifier
  | .putByIdDirect identifier => lowerPutById node .putByIdDirect identifier
  | .hasProperty => lowerHasProperty id node
  | .call => lowerCall id node .call
  | .construct => lowerCall id node .construct
  | .callVarargs data => lowerCallVarargs id node .callVarargs data
  | .constructVarargs data => lowerCallVarargs id node .constructVarargs data
  | .callForwardVarargs data => lowerCallForwardVarargs id node data
  | .loadVarargs data => lowerLoadVarargs node data
  | .forwardVarargs data => lowerForwardVarargs data
  | .toThis => lowerToThis id node
  | .toPrimitive => lowerToPrimitive id node
  | .convertToString => lowerToString id node
  | .makeRope => lowerMakeRope id node
  | .instanceOf => lowerInstanceOf id node
  | .throwValue => lowerThrow .throwValue (← asValue (← node.child 0))
  | .throwReferenceError identifier =>
    lowerThrow .throwReferenceError (← Emit.int64 identifier.index)
  | .jump target => jumpTo target
  | .branch data => lowerBranch node data
  | .switch data => lowerSwitch node data
  | .ret => Emit.ret (← asValue (← node.child 0))
  | .unreachable => Emit.unreachable

/-- Emits the code of a node and applies its effect to the facts and to where values are. -/
def lowerNode (id : NodeId) : Lower Unit := do
  let g := (← read).graph
  let node ← getNode id
  modify fun s => { s with node := some id, origin := node.origin }
  lowerOp id node
  countStats fun st => { st with nodesLowered := st.nodesLowered + 1 }
  let isOpen := !(← Emit.isTerminated)
  if (← get).facts.valid && isOpen then
    let facts ← check ((← get).facts.execute g id)
    modify fun s => { s with facts }
    if !facts.valid then endUnreachable
  else if isOpen then endUnreachable
  let availability ← check ((← get).availability.execute g id)
  modify fun s => { s with availability }

end SpecJit.Lowering
