import SpecJit.Op.Payload

/-!
# Operations

The operations of the graph. Operations that differ only in a primitive step are one constructor
with a parameter: integer arithmetic, bit operations, comparisons, type queries and the allocations
that were put off.
-/

namespace SpecJit

/-- Arithmetic with an overflow mode. -/
inductive ArithOp where
  | add
  | sub
  | mul
  | div
  | mod
  | negate
  | abs
deriving DecidableEq, Hashable, Inhabited, Repr

namespace ArithOp

def all : List ArithOp := [.add, .sub, .mul, .div, .mod, .negate, .abs]

def name : ArithOp → String
  | .add => "ArithAdd"
  | .sub => "ArithSub"
  | .mul => "ArithMul"
  | .div => "ArithDiv"
  | .mod => "ArithMod"
  | .negate => "ArithNegate"
  | .abs => "ArithAbs"

def isBinary : ArithOp → Bool
  | .negate | .abs => false
  | _ => true

end ArithOp

/-- Operations on the bits of int32 values. -/
inductive BitOp where
  | and
  | or
  | xor
  | leftShift
  | rightShift
  /-- zeros come in -/
  | unsignedRightShift
deriving DecidableEq, Hashable, Inhabited, Repr

namespace BitOp

def all : List BitOp := [.and, .or, .xor, .leftShift, .rightShift, .unsignedRightShift]

def name : BitOp → String
  | .and => "BitAnd"
  | .or => "BitOr"
  | .xor => "BitXor"
  | .leftShift => "BitLShift"
  | .rightShift => "BitRShift"
  | .unsignedRightShift => "BitURShift"

end BitOp

/-- Comparisons of two values. -/
inductive Comparison where
  | eq
  | strictEq
  | less
  | lessEq
  | greater
  | greaterEq
deriving DecidableEq, Hashable, Inhabited, Repr

namespace Comparison

def all : List Comparison := [.eq, .strictEq, .less, .lessEq, .greater, .greaterEq]

def name : Comparison → String
  | .eq => "CompareEq"
  | .strictEq => "CompareStrictEq"
  | .less => "CompareLess"
  | .lessEq => "CompareLessEq"
  | .greater => "CompareGreater"
  | .greaterEq => "CompareGreaterEq"

end Comparison

/-- Questions about the kind of a value. -/
inductive TypeQuery where
  | undefined
  | boolean
  | number
  | string
  | object
  | objectOrNull
  | function
  | arrayObject
deriving DecidableEq, Hashable, Inhabited, Repr

namespace TypeQuery

def all : List TypeQuery :=
  [.undefined, .boolean, .number, .string, .object, .objectOrNull, .function, .arrayObject]

def name : TypeQuery → String
  | .undefined => "IsUndefined"
  | .boolean => "IsBoolean"
  | .number => "IsNumber"
  | .string => "IsString"
  | .object => "IsObject"
  | .objectOrNull => "IsObjectOrNull"
  | .function => "IsFunction"
  | .arrayObject => "IsArrayObject"

end TypeQuery

/-- Objects whose allocation was put off until an exit needs them. -/
inductive PhantomKind where
  | newObject
  | newFunction
  | createActivation
  | directArguments
  | clonedArguments
deriving DecidableEq, Hashable, Inhabited, Repr

namespace PhantomKind

def all : List PhantomKind :=
  [.newObject, .newFunction, .createActivation, .directArguments, .clonedArguments]

def name : PhantomKind → String
  | .newObject => "PhantomNewObject"
  | .newFunction => "PhantomNewFunction"
  | .createActivation => "PhantomCreateActivation"
  | .directArguments => "PhantomDirectArguments"
  | .clonedArguments => "PhantomClonedArguments"

end PhantomKind

/-- What a node does. -/
inductive Op where
  -- constants and plumbing
  | jsConstant (value : FrozenValue)
  | doubleConstant (d : Double)
  | int52Constant (n : Int64)
  | identity
  | phantom
  | check
  | bottomValue
  | phi
  | upsilon (phi : NodeId)
  -- the frame and what an exit needs to know of it
  | getStack (access : StackAccess)
  | putStack (access : StackAccess)
  | killStack (operand : Operand)
  | movHint (operand : Operand)
  | zombieHint (operand : Operand)
  | setArgument (operand : Operand)
  | getCallee
  | getArgumentCount
  | loopHint
  | invalidationPoint
  | countExecution (counter : UInt64)
  -- representations
  | doubleRep
  | valueRep
  | int52Rep
  | booleanToNumber
  | doubleAsInt32 (mode : ArithMode)
  | valueToInt32
  | uint32ToNumber (mode : ArithMode)
  -- arithmetic
  | arith (op : ArithOp) (mode : ArithMode)
  | arithMin
  | arithMax
  | arithSqrt
  | arithSin
  | arithCos
  | arithLog
  | arithPow
  | arithRound (mode : RoundingMode)
  | arithFRound
  | arithClz32
  | valueAdd
  | bit (op : BitOp)
  -- comparisons and type queries
  | compare (op : Comparison)
  | compareEqConstant
  | logicalNot
  | isType (query : TypeQuery)
  | typeOf
  -- checks
  | checkStructure (structures : StructureSet)
  | checkCell (cell : FrozenValue)
  | checkBadCell
  | checkNotEmpty
  | checkInBounds
  | checkArray (mode : ArrayMode)
  | checkHasInstance
  | forceOsrExit
  -- objects
  | getButterfly
  | allocatePropertyStorage (transition : Transition)
  | reallocatePropertyStorage (transition : Transition)
  | getByOffset (access : StorageAccess)
  | putByOffset (access : StorageAccess)
  | multiGetByOffset (cases : List ReadCase)
  | multiPutByOffset (cases : List WriteCase)
  | putStructure (transition : Transition)
  | newObject (structureId : StructureId)
  | newArray (data : NewArrayData)
  | newArrayWithSize (data : NewArrayData)
  | newArrayBuffer (data : NewArrayData) (elements : List FrozenValue)
  | storeBarrier
  -- scopes, functions and arguments
  | getGlobalVar (address : UInt64)
  | putGlobalVar (address : UInt64)
  | getScope
  | skipScope
  | getClosureVar (index : Nat)
  | putClosureVar (index : Nat)
  | getExecutable
  | newFunction
  | createActivation (structureId : StructureId)
  | createDirectArguments
  | createScopedArguments
  | createClonedArguments
  | getFromArguments (index : Nat)
  | putToArguments (index : Nat)
  | getMyArgumentByVal
  | phantomAllocation (kind : PhantomKind)
  | putHint (location : PromotedLocation)
  | materializeNewObject (data : MaterializeData)
  | materializeCreateActivation (data : MaterializeData)
  -- indexed accesses
  | getArrayLength (mode : ArrayMode)
  | getByVal (mode : ArrayMode)
  | putByVal (mode : ArrayMode)
  | arrayPush (mode : ArrayMode)
  | arrayPop (mode : ArrayMode)
  | hasIndexedProperty (mode : ArrayMode)
  | getIndexedPropertyStorage (mode : ArrayMode)
  | getTypedArrayByteOffset
  | stringCharAt (mode : ArrayMode)
  | stringCharCodeAt (mode : ArrayMode)
  -- inline caches and calls
  | getById (identifier : IdentifierIndex)
  | putById (identifier : IdentifierIndex)
  | putByIdDirect (identifier : IdentifierIndex)
  | hasProperty
  | call
  | construct
  | callVarargs (data : VarargsData)
  | constructVarargs (data : VarargsData)
  | callForwardVarargs (data : VarargsData)
  | loadVarargs (data : LoadVarargsData)
  | forwardVarargs (data : LoadVarargsData)
  | toThis
  | toPrimitive
  | convertToString
  | makeRope
  | instanceOf
  -- terminals
  | throwValue
  | throwReferenceError (identifier : IdentifierIndex)
  | jump (target : BlockIndex)
  | branch (data : BranchData)
  | switch (data : SwitchData)
  | ret
  | unreachable
deriving Inhabited

namespace Op

/-- The operations without payload. -/
def plain : List Op :=
  ([.identity, .phantom, .check, .bottomValue, .phi, .getCallee, .getArgumentCount, .loopHint,
    .invalidationPoint, .doubleRep, .valueRep, .int52Rep, .booleanToNumber, .valueToInt32,
    .arithMin,
    .arithMax, .arithSqrt, .arithSin, .arithCos, .arithLog, .arithPow, .arithFRound, .arithClz32,
    .valueAdd, .compareEqConstant, .logicalNot, .typeOf, .checkBadCell, .checkNotEmpty,
    .checkInBounds, .checkHasInstance, .forceOsrExit, .getButterfly, .storeBarrier, .getScope,
    .skipScope, .getExecutable, .newFunction, .createDirectArguments, .createScopedArguments,
    .createClonedArguments, .getMyArgumentByVal, .getTypedArrayByteOffset, .hasProperty, .call,
    .construct, .toThis, .toPrimitive, .convertToString, .makeRope, .instanceOf, .throwValue, .ret,
    .unreachable] : List Op)
  ++ BitOp.all.map .bit ++ Comparison.all.map .compare ++ TypeQuery.all.map .isType
  ++ PhantomKind.all.map .phantomAllocation

/-- The name of the operation, without its payload. -/
def name : Op → String
  | .jsConstant _ => "JsConstant"
  | .doubleConstant _ => "DoubleConstant"
  | .int52Constant _ => "Int52Constant"
  | .identity => "Identity"
  | .phantom => "Phantom"
  | .check => "Check"
  | .bottomValue => "BottomValue"
  | .phi => "Phi"
  | .upsilon _ => "Upsilon"
  | .getStack _ => "GetStack"
  | .putStack _ => "PutStack"
  | .killStack _ => "KillStack"
  | .movHint _ => "MovHint"
  | .zombieHint _ => "ZombieHint"
  | .setArgument _ => "SetArgument"
  | .getCallee => "GetCallee"
  | .getArgumentCount => "GetArgumentCount"
  | .loopHint => "LoopHint"
  | .invalidationPoint => "InvalidationPoint"
  | .countExecution _ => "CountExecution"
  | .doubleRep => "DoubleRep"
  | .valueRep => "ValueRep"
  | .int52Rep => "Int52Rep"
  | .booleanToNumber => "BooleanToNumber"
  | .doubleAsInt32 _ => "DoubleAsInt32"
  | .valueToInt32 => "ValueToInt32"
  | .uint32ToNumber _ => "UInt32ToNumber"
  | .arith op _ => op.name
  | .arithMin => "ArithMin"
  | .arithMax => "ArithMax"
  | .arithSqrt => "ArithSqrt"
  | .arithSin => "ArithSin"
  | .arithCos => "ArithCos"
  | .arithLog => "ArithLog"
  | .arithPow => "ArithPow"
  | .arithRound _ => "ArithRound"
  | .arithFRound => "ArithFRound"
  | .arithClz32 => "ArithClz32"
  | .valueAdd => "ValueAdd"
  | .bit op => op.name
  | .compare op => op.name
  | .compareEqConstant => "CompareEqConstant"
  | .logicalNot => "LogicalNot"
  | .isType query => query.name
  | .typeOf => "TypeOf"
  | .checkStructure _ => "CheckStructure"
  | .checkCell _ => "CheckCell"
  | .checkBadCell => "CheckBadCell"
  | .checkNotEmpty => "CheckNotEmpty"
  | .checkInBounds => "CheckInBounds"
  | .checkArray _ => "CheckArray"
  | .checkHasInstance => "CheckHasInstance"
  | .forceOsrExit => "ForceOsrExit"
  | .getButterfly => "GetButterfly"
  | .allocatePropertyStorage _ => "AllocatePropertyStorage"
  | .reallocatePropertyStorage _ => "ReallocatePropertyStorage"
  | .getByOffset _ => "GetByOffset"
  | .putByOffset _ => "PutByOffset"
  | .multiGetByOffset _ => "MultiGetByOffset"
  | .multiPutByOffset _ => "MultiPutByOffset"
  | .putStructure _ => "PutStructure"
  | .newObject _ => "NewObject"
  | .newArray _ => "NewArray"
  | .newArrayWithSize _ => "NewArrayWithSize"
  | .newArrayBuffer _ _ => "NewArrayBuffer"
  | .storeBarrier => "StoreBarrier"
  | .getGlobalVar _ => "GetGlobalVar"
  | .putGlobalVar _ => "PutGlobalVar"
  | .getScope => "GetScope"
  | .skipScope => "SkipScope"
  | .getClosureVar _ => "GetClosureVar"
  | .putClosureVar _ => "PutClosureVar"
  | .getExecutable => "GetExecutable"
  | .newFunction => "NewFunction"
  | .createActivation _ => "CreateActivation"
  | .createDirectArguments => "CreateDirectArguments"
  | .createScopedArguments => "CreateScopedArguments"
  | .createClonedArguments => "CreateClonedArguments"
  | .getFromArguments _ => "GetFromArguments"
  | .putToArguments _ => "PutToArguments"
  | .getMyArgumentByVal => "GetMyArgumentByVal"
  | .phantomAllocation kind => kind.name
  | .putHint _ => "PutHint"
  | .materializeNewObject _ => "MaterializeNewObject"
  | .materializeCreateActivation _ => "MaterializeCreateActivation"
  | .getArrayLength _ => "GetArrayLength"
  | .getByVal _ => "GetByVal"
  | .putByVal _ => "PutByVal"
  | .arrayPush _ => "ArrayPush"
  | .arrayPop _ => "ArrayPop"
  | .hasIndexedProperty _ => "HasIndexedProperty"
  | .getIndexedPropertyStorage _ => "GetIndexedPropertyStorage"
  | .getTypedArrayByteOffset => "GetTypedArrayByteOffset"
  | .stringCharAt _ => "StringCharAt"
  | .stringCharCodeAt _ => "StringCharCodeAt"
  | .getById _ => "GetById"
  | .putById _ => "PutById"
  | .putByIdDirect _ => "PutByIdDirect"
  | .hasProperty => "In"
  | .call => "Call"
  | .construct => "Construct"
  | .callVarargs _ => "CallVarargs"
  | .constructVarargs _ => "ConstructVarargs"
  | .callForwardVarargs _ => "CallForwardVarargs"
  | .loadVarargs _ => "LoadVarargs"
  | .forwardVarargs _ => "ForwardVarargs"
  | .toThis => "ToThis"
  | .toPrimitive => "ToPrimitive"
  | .convertToString => "ToString"
  | .makeRope => "MakeRope"
  | .instanceOf => "InstanceOf"
  | .throwValue => "Throw"
  | .throwReferenceError _ => "ThrowReferenceError"
  | .jump _ => "Jump"
  | .branch _ => "Branch"
  | .switch _ => "Switch"
  | .ret => "Return"
  | .unreachable => "Unreachable"

/-! ## Properties of operations -/

/-- The operation ends a block. -/
def isTerminal : Op → Bool
  | .jump _ | .branch _ | .switch _ | .ret | .unreachable | .throwValue | .throwReferenceError _ =>
    true
  | _ => false

/-- Adds a block to a list unless it is there. -/
def addTarget (targets : List BlockIndex) (b : BlockIndex) : List BlockIndex :=
  if targets.contains b then targets else targets ++ [b]

/-- The blocks that control may go to; a switch names each of its targets once. -/
def successors : Op → List BlockIndex
  | .jump target => [target]
  | .branch data => [data.taken, data.notTaken]
  | .switch data => addTarget ((data.cases.map (·.target)).foldl addTarget []) data.fallThrough
  | _ => []

/-- An object that exists only for exits. -/
def isPhantomAllocation : Op → Bool
  | .phantomAllocation _ => true
  | _ => false

/-- The operation may run code that changes the structure of any object. -/
def clobbersWorld : Op → Bool
  | .valueAdd | .toPrimitive | .convertToString | .toThis | .instanceOf | .getById _ | .putById _
  | .putByIdDirect _ | .hasProperty | .call | .construct | .callVarargs _ | .constructVarargs _
  | .callForwardVarargs _ | .loadVarargs _ => true
  | .getByVal mode | .putByVal mode =>
    mode.arrayType == .generic || mode.speculation == .outOfBounds
  | _ => false

/-- The operation only informs exits and yields no code. -/
def isHint : Op → Bool
  | .movHint _ | .zombieHint _ | .killStack _ | .putHint _ | .setArgument _ | .loopHint
  | .phantomAllocation _ => true
  | _ => false

/-- The number of uses that the operation needs at least. -/
def minChildren : Op → Nat
  | .jsConstant _ | .doubleConstant _ | .int52Constant _ | .bottomValue | .getStack _ | .killStack _
  | .zombieHint _ | .phi | .setArgument _ | .getCallee | .getArgumentCount | .loopHint
  | .invalidationPoint | .countExecution _ | .phantom | .check | .checkBadCell | .forceOsrExit
  | .newObject _ | .newArray _ | .newArrayBuffer _ _ | .getGlobalVar _ | .createDirectArguments
  | .createClonedArguments | .forwardVarargs _ | .throwReferenceError _ | .jump _ | .unreachable =>
    0
  | .phantomAllocation kind =>
    match kind with
    | .newObject | .directArguments | .clonedArguments => 0
    | .newFunction | .createActivation => 1
  | .arith op _ => if op.isBinary then 2 else 1
  | .arithMin | .arithMax | .arithPow | .valueAdd | .bit _ | .compare _ | .compareEqConstant
  | .checkInBounds | .putByOffset _ | .multiPutByOffset _ | .getByVal _ | .arrayPush _
  | .hasIndexedProperty _ | .stringCharAt _ | .stringCharCodeAt _ | .putById _ | .putByIdDirect _
  | .hasProperty | .call | .construct | .putClosureVar _ | .putToArguments _ | .putHint _
  | .makeRope | .instanceOf | .newFunction => 2
  | .putByVal _ => 3
  | _ => 1

end Op

end SpecJit
