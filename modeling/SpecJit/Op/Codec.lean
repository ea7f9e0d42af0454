import SpecJit.Op.Basic

/-!
# The interchange form of operations
-/

namespace SpecJit.Op

/-- The payload of an operation, if it has one. -/
def payload? : Op → Option Json
  | .jsConstant v | .checkCell v => some (encode v)
  | .doubleConstant d => some (encode d)
  | .int52Constant n => some (encode n)
  | .upsilon target => some (encode target)
  | .getStack a | .putStack a => some (encode a)
  | .killStack o | .movHint o | .zombieHint o | .setArgument o => some (encode o)
  | .countExecution a | .getGlobalVar a | .putGlobalVar a => some (encode a)
  | .doubleAsInt32 m | .uint32ToNumber m | .arith _ m => some (encode m)
  | .arithRound m => some (encode m)
  | .checkStructure s => some (encode s)
  | .checkArray m | .getArrayLength m | .getByVal m | .putByVal m | .arrayPush m | .arrayPop m
  | .hasIndexedProperty m | .getIndexedPropertyStorage m | .stringCharAt m | .stringCharCodeAt m =>
    some (encode m)
  | .allocatePropertyStorage t | .reallocatePropertyStorage t | .putStructure t => some (encode t)
  | .getByOffset a | .putByOffset a => some (encode a)
  | .multiGetByOffset cases => some (encode cases)
  | .multiPutByOffset cases => some (encode cases)
  | .newObject s | .createActivation s => some (encode s)
  | .newArray d | .newArrayWithSize d => some (encode d)
  | .newArrayBuffer d elements => some (encode (d, elements))
  | .getClosureVar i | .putClosureVar i | .getFromArguments i | .putToArguments i => some (encode i)
  | .putHint l => some (encode l)
  | .materializeNewObject d | .materializeCreateActivation d => some (encode d)
  | .getById i | .putById i | .putByIdDirect i | .throwReferenceError i => some (encode i)
  | .callVarargs d | .constructVarargs d | .callForwardVarargs d => some (encode d)
  | .loadVarargs d | .forwardVarargs d => some (encode d)
  | .jump target => some (encode target)
  | .branch d => some (encode d)
  | .switch d => some (encode d)
  | _ => none

instance : Encode Op where
  encode op :=
    match op.payload? with
    | some payload => Json.variant op.name payload
    | none => .str op.name

/-- Reads an operation with a payload. -/
def withPayload? (t : Json.Tagged) : Option Op :=
  match ArithOp.all.find? fun op => op.name == t.name with
  | some op => do return .arith op (← t.one?)
  | none =>
    match t.name with
    | "JsConstant" => do return .jsConstant (← t.one?)
    | "DoubleConstant" => do return .doubleConstant (← t.one?)
    | "Int52Constant" => do return .int52Constant (← t.one?)
    | "Upsilon" => do return .upsilon (← t.one?)
    | "GetStack" => do return .getStack (← t.one?)
    | "PutStack" => do return .putStack (← t.one?)
    | "KillStack" => do return .killStack (← t.one?)
    | "MovHint" => do return .movHint (← t.one?)
    | "ZombieHint" => do return .zombieHint (← t.one?)
    | "SetArgument" => do return .setArgument (← t.one?)
    | "CountExecution" => do return .countExecution (← t.one?)
    | "DoubleAsInt32" => do return .doubleAsInt32 (← t.one?)
    | "UInt32ToNumber" => do return .uint32ToNumber (← t.one?)
    | "ArithRound" => do return .arithRound (← t.one?)
    | "CheckStructure" => do return .checkStructure (← t.one?)
    | "CheckCell" => do return .checkCell (← t.one?)
    | "CheckArray" => do return .checkArray (← t.one?)
    | "AllocatePropertyStorage" => do return .allocatePropertyStorage (← t.one?)
    | "ReallocatePropertyStorage" => do return .reallocatePropertyStorage (← t.one?)
    | "GetByOffset" => do return .getByOffset (← t.one?)
    | "PutByOffset" => do return .putByOffset (← t.one?)
    | "MultiGetByOffset" => do return .multiGetByOffset (← t.one?)
    | "MultiPutByOffset" => do return .multiPutByOffset (← t.one?)
    | "PutStructure" => do return .putStructure (← t.one?)
    | "NewObject" => do return .newObject (← t.one?)
    | "NewArray" => do return .newArray (← t.one?)
    | "NewArrayWithSize" => do return .newArrayWithSize (← t.one?)
    | "NewArrayBuffer" => do
      let p : NewArrayData × List FrozenValue ← t.one?
      return .newArrayBuffer p.1 p.2
    | "GetGlobalVar" => do return .getGlobalVar (← t.one?)
    | "PutGlobalVar" => do return .putGlobalVar (← t.one?)
    | "GetClosureVar" => do return .getClosureVar (← t.one?)
    | "PutClosureVar" => do return .putClosureVar (← t.one?)
    | "CreateActivation" => do return .createActivation (← t.one?)
    | "GetFromArguments" => do return .getFromArguments (← t.one?)
    | "PutToArguments" => do return .putToArguments (← t.one?)
    | "PutHint" => do return .putHint (← t.one?)
    | "MaterializeNewObject" => do return .materializeNewObject (← t.one?)
    | "MaterializeCreateActivation" => do return .materializeCreateActivation (← t.one?)
    | "GetArrayLength" => do return .getArrayLength (← t.one?)
    | "GetByVal" => do return .getByVal (← t.one?)
    | "PutByVal" => do return .putByVal (← t.one?)
    | "ArrayPush" => do return .arrayPush (← t.one?)
    | "ArrayPop" => do return .arrayPop (← t.one?)
    | "HasIndexedProperty" => do return .hasIndexedProperty (← t.one?)
    | "GetIndexedPropertyStorage" => do return .getIndexedPropertyStorage (← t.one?)
    | "StringCharAt" => do return .stringCharAt (← t.one?)
    | "StringCharCodeAt" => do return .stringCharCodeAt (← t.one?)
    | "GetById" => do return .getById (← t.one?)
    | "PutById" => do return .putById (← t.one?)
    | "PutByIdDirect" => do return .putByIdDirect (← t.one?)
    | "CallVarargs" => do return .callVarargs (← t.one?)
    | "ConstructVarargs" => do return .constructVarargs (← t.one?)
    | "CallForwardVarargs" => do return .callForwardVarargs (← t.one?)
    | "LoadVarargs" => do return .loadVarargs (← t.one?)
    | "ForwardVarargs" => do return .forwardVarargs (← t.one?)
    | "ThrowReferenceError" => do return .throwReferenceError (← t.one?)
    | "Jump" => do return .jump (← t.one?)
    | "Branch" => do return .branch (← t.one?)
    | "Switch" => do return .switch (← t.one?)
    | _ => none

instance : Decode Op where
  decode j := do
    let t ← Json.tagged? j
    match plain.find? fun op => op.name == t.name with
    | some op => t.unit?; return op
    | none => withPayload? t

end SpecJit.Op
