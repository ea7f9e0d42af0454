import SpecJit.Lowering.Element

/-!
# Code for whole arrays

Growing and shrinking at the end, presence of elements, and new arrays.
-/

namespace SpecJit.Lowering

open Lir

/-! ## The end of an array -/

def lowerArrayPush (id : NodeId) (node : Node) (mode : ArrayMode) : Lower Unit := do
  let array ← asCell (← node.child 0)
  let valueUse ← node.child 1
  let value ← butterflyStoreValue valueUse mode.arrayType
  let butterfly ← butterflyOf array node.children[2]?
  let length ← loadPublicLength butterfly
  let capacity ← loadVectorLength butterfly
  let fits ← Emit.icmp .ult length capacity
  let result ← diamond .i64 fits .normal
    (do
      storeElement mode.arrayType butterfly length value
      let grown ← Emit.binaryImm .add length 1
      storePublicLength butterfly grown
      boxInt32 grown)
    (do callHelper .arrayPush [array, ← boxElement mode.arrayType value])
  elementBarrier mode.arrayType valueUse.node array
  setResult id result

/-- The double that is a hole. -/
def doubleHole : Emit Reg := do Emit.bitcastToDouble (← Emit.word Double.pureNaN.bits)

/-- The word or double that is a hole. -/
def holeOf (double : Bool) : Emit Reg := if double then doubleHole else Emit.word Value.empty

/-- Takes the last element off an array that is not empty; the runtime does it at a hole. -/
def takeLast (array butterfly length : Reg) (arrayType : ArrayType) : Lower Reg := do
  let double := arrayType == .double
  let last ← Emit.binaryImm .add length (-1)
  let address ← elementAddress butterfly last 3
  let value ← if double then liftM (loadDouble address) else liftM (Emit.load64 address 0)
  let hole ← isHole value double
  diamond .i64 hole .takenRare (callHelper .arrayPop [array]) do
    Emit.store (elementWidth arrayType) (← holeOf double) address 0
    storePublicLength butterfly last
    boxElement arrayType value

def lowerArrayPop (id : NodeId) (node : Node) (mode : ArrayMode) : Lower Unit := do
  let array ← asCell (← node.child 0)
  let butterfly ← butterflyOf array node.children[1]?
  let length ← loadPublicLength butterfly
  let empty ← Emit.icmpImm .eq length 0
  setResult id (← diamond .i64 empty .takenRare (Emit.word Value.undefined)
    (takeLast array butterfly length mode.arrayType))

/-! ## Presence -/

/-- The runtime's answer whether an array has an element. -/
def askPresence (base index : Reg) : Lower Reg := do
  Emit.truncate (← callHelper .hasIndexedProperty [base, ← boxInt32 index])

/-- 1 if the element at an index that is in bounds is present. -/
def presentInBounds (base butterfly index : Reg) (mode : ArrayMode) : Lower Reg := do
  if mode.dense then Emit.int32 1
  else
    let double := mode.arrayType == .double
    let value ← loadElement butterfly index double
    let hole ← isHole value double
    if mode.speculation = .saneChain then negated hole
    else diamond .i32 hole .takenRare (askPresence base index) (Emit.int32 1)

def lowerHasIndexedProperty (id : NodeId) (node : Node) (mode : ArrayMode) : Lower Unit := do
  match mode.arrayType with
  | .int32 | .double | .contiguous =>
    let base ← asCell (← node.child 0)
    let index ← asInt32 (← node.child 1)
    let butterfly ← butterflyOf base node.children[2]?
    let length ← loadPublicLength butterfly
    if mode.speculation = .inBounds then
      checkInBounds index length
      setResult id (← presentInBounds base butterfly index mode)
    else
      let inBounds ← Emit.icmp .ult index length
      setResult id (← diamond .i32 inBounds .normal (presentInBounds base butterfly index mode)
        (askPresence base index))
  | _ =>
    let base ← asValue (← node.child 0)
    let index ← asValue (← node.child 1)
    setResult id (← Emit.truncate (← callHelper .hasIndexedProperty [base, index]))

/-! ## New arrays -/

/-- The elements of a new array. -/
def elementShape (data : NewArrayData) : Lower ArrayType :=
  let shape := data.indexing.shape
  if shape = IndexingType.int32Shape then pure .int32
  else if shape = IndexingType.doubleShape then pure .double
  else if shape = IndexingType.contiguousShape then pure .contiguous
  else crash (.arrayShape shape)

/-- Stores registers into the first elements of a butterfly. -/
def storeElements (shape : ArrayType) (butterfly : Reg) (values : List Reg) : Lower Unit :=
  values.zipIdx.forM fun (value, index) => do
    Emit.store (elementWidth shape) value butterfly (← Offset.slot 0 index)

/-- A new array of holes with the given length, and its butterfly. -/
def allocateArray (data : NewArrayData) (length : Nat) : Lower (Reg × Reg) := do
  let shape ← elementShape data
  if (← read).options.maxInlineArrayAllocation < length then
    let structureId ← Emit.int64 data.structureId.index
    let count ← Emit.int64 length
    let array ← callHelper .newArrayWithSize [structureId, count]
    return (array, ← loadField64 array .butterfly)
  else
    let s ← getStructure data.structureId
    let array ← allocateCell (← (← read).layout.objectSize s.inlineCapacity)
    initializeHeader array s
    fillInlineSlots array (← Emit.word Value.undefined) s.inlineCapacity
    let count ← Emit.int32 (Offset.ofIndex length)
    let butterfly ← allocateButterfly 0 count count
    let hole ← holeOf (shape == .double)
    storeElements shape butterfly (List.replicate length hole)
    storeField .w64 butterfly array .butterfly
    return (array, butterfly)

def lowerNewArray (id : NodeId) (node : Node) (data : NewArrayData) : Lower Unit := do
  let shape ← elementShape data
  let values ← node.children.mapM fun e => butterflyStoreValue e shape
  let (array, butterfly) ← allocateArray data values.length
  storeElements shape butterfly values
  setResult id array

/-- The length of a new array, if it is a constant that is not negative. -/
def constantLength? (op : Op) : Option Nat :=
  match op with
  | .jsConstant (.int32 n) => if 0 ≤ n.toInt then some n.toInt.toNat else none
  | _ => none

def lowerNewArrayWithSize (id : NodeId) (node : Node) (data : NewArrayData) : Lower Unit := do
  let e ← node.child 0
  let limit := (← read).options.maxInlineArrayAllocation
  let constant := (constantLength? (← getNode e.node).op).filter (· ≤ limit)
  let length ← asInt32 e
  match constant with
  | some n => setResult id (← allocateArray data n).1
  | none =>
    let structureId ← Emit.int64 data.structureId.index
    let wide ← Emit.signExtend length
    setResult id (← callHelper .newArrayWithSize [structureId, wide])

/-- The constant of an element, in the form that a butterfly stores. -/
def elementConstant (shape : ArrayType) (element : FrozenValue) : Lower Reg :=
  if shape = .double then
    match element.asNumber? with
    | some d => Emit.fconst d
    | none => crash (.elementOfDoubles element)
  else Emit.word (Value.ofFrozen element)

def lowerNewArrayBuffer (id : NodeId) (data : NewArrayData) (elements : List FrozenValue) :
    Lower Unit := do
  let shape ← elementShape data
  let (array, butterfly) ← allocateArray data elements.length
  elements.zipIdx.forM fun (element, index) => do
    let value ← elementConstant shape element
    Emit.store (elementWidth shape) value butterfly (← Offset.slot 0 index)
  setResult id array

end SpecJit.Lowering
