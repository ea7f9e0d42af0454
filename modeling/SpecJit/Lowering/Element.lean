import SpecJit.Lowering.Conversion
import SpecJit.Lowering.Property

/-!
# Code for elements

Reads and writes of elements by index: of butterflies, whose holes are the empty word or NaN, of
typed arrays, of arguments objects and of strings. An index is in bounds if it is below the length
as an unsigned number.
-/

namespace SpecJit

open Lir

namespace ElementKind

/-- An index times `2^shift` is the place of the element in bytes. -/
def shift (k : ElementKind) : Nat := k.size.log2

/-- The form of an element in memory. -/
def width : ElementKind → MemWidth
  | .int8 | .uint8 | .uint8Clamped => .w8
  | .int16 | .uint16 => .w16
  | .int32 | .uint32 => .w32
  | .float32 => .f32
  | .float64 => .f64

end ElementKind

namespace Lowering

/-! ## Bounds and addresses -/

/-- Leaves if an index is not below a length. -/
def checkInBounds (index length : Reg) : Lower Unit := do
  speculate .outOfBounds none (← Emit.icmp .uge index length)

def lowerCheckInBounds (node : Node) : Lower Unit := do
  let index ← asInt32 (← node.child 0)
  let length ← asInt32 (← node.child 1)
  checkInBounds index length

/-- The address of an element whose size is a power of two. -/
def elementAddress (storage index : Reg) (shift : Nat) : Emit Reg := do
  let wide ← Emit.zeroExtend index
  let scaled ← Emit.binaryImm .shl wide shift
  Emit.binary .add storage scaled

/-- The butterfly of a cell; a use of storage gives it. -/
def butterflyOf (base : Reg) (storage : Option Edge) : Lower Reg := do
  match storage with
  | some e =>
    if (← getNode e.node).result == .storage then asStorage e else loadField64 base .butterfly
  | none => loadField64 base .butterfly

def loadPublicLength (butterfly : Reg) : Lower Reg := loadField32 butterfly .publicLength

def loadVectorLength (butterfly : Reg) : Lower Reg := loadField32 butterfly .vectorLength

def storePublicLength (butterfly length : Reg) : Lower Unit :=
  storeField .w32 length butterfly .publicLength

/-- Leaves if an arguments object has arguments that were moved or deleted. -/
def checkUnmapped (arguments : Reg) : Lower Unit := do
  let mapped ← loadField64 arguments .directArgumentsMapped
  speculate .exoticObjectMode none (← Emit.icmpImm .ne mapped 0)

/-! ## The check of an array mode -/

/-- What is known of a value makes the check of an array mode unnecessary. -/
def arrayCheckIsRedundant (g : Graph) (known : AbstractValue) (mode : ArrayMode) (ty : SpecType) :
    Bool :=
  known.ty.isSubsetOf ty &&
    match mode.indexingShape? with
    | none => true
    | some shape =>
      match known.structures with
      | .top => false
      | .known set => !set.isEmpty && set.ids.all fun id =>
        (g.structures.get? id).any fun s => s.indexing.shape == shape &&
          (!mode.isArray || s.indexing.isArray)

/-- 1 if a cell does not fit an array mode. -/
def arrayCheckFails (cell : Reg) (mode : ArrayMode) : Lower Reg := do
  match mode.indexingShape?, mode.checkedCellType? with
  | some shape, _ =>
    let array := if mode.isArray then IndexingType.isArrayBit else 0
    let indexing ← loadField8 cell .indexingType
    let bits ← Emit.binaryImm .and indexing (IndexingType.shapeMask ||| array).toNat
    Emit.icmpImm .ne bits (shape ||| array).toNat
  | none, some cellType => negated (← hasCellType cell cellType)
  | none, none => crash (.uncheckedMode mode)

def lowerCheckArray (node : Node) (mode : ArrayMode) : Lower Unit := do
  let e ← node.child 0
  match mode.provenType? with
  | none =>
    let _ ← asValue e
    terminate .inadequateCoverage
  | some ty =>
    if mode.arrayType = .generic then
      let _ ← asValue e
    else
      let cell ← asCell e
      if arrayCheckIsRedundant (← read).graph (← factOf e.node) mode ty then elided
      else speculate .badIndexingType (some cell) (← arrayCheckFails cell mode)

/-! ## Lengths -/

/-- The characters of a string; leaves at a rope. -/
def flatString (string : Reg) : Lower Reg := do
  let impl ← loadField64 string .stringImpl
  speculate .uncountable none (← Emit.icmpImm .eq impl 0)
  return impl

def lowerGetArrayLength (id : NodeId) (node : Node) (mode : ArrayMode) : Lower Unit := do
  let base ← asCell (← node.child 0)
  match mode.arrayType with
  | .int32 | .double | .contiguous =>
    let length ← loadPublicLength (← butterflyOf base node.children[1]?)
    speculate .uncountable none (← Emit.icmpImm .slt length 0)
    setResult id length
  | .string => setResult id (← loadField32 (← flatString base) .stringImplLength)
  | .directArguments =>
    checkUnmapped base
    setResult id (← loadField32 base .directArgumentsLength)
  | .typedArray _ => setResult id (← loadField32 base .typedArrayLength)
  | arrayType => crash (.lengthMode arrayType)

def lowerGetIndexedPropertyStorage (id : NodeId) (node : Node) (mode : ArrayMode) : Lower Unit := do
  let base ← asCell (← node.child 0)
  match mode.arrayType with
  | .string => setResult id (← loadField64 (← flatString base) .stringImplData)
  | .typedArray _ => setResult id (← loadField64 base .typedArrayVector)
  | _ => setResult id (← loadField64 base .butterfly)

/-! ## Characters -/

/-- The character at an index of flat characters that is in bounds. -/
def loadCharacter (characters index eightBit : Reg) : Lower Reg :=
  diamond .i32 eightBit .normal
    (do Emit.load8 (← elementAddress characters index 0) 0)
    (do Emit.load .i32 .w16 false (← elementAddress characters index 1) 0)

/-- The character code at an index; leaves if the index is out of bounds. The runtime flattens
ropes. -/
def charCodeAt (string index : Reg) : Lower Reg := do
  let impl ← loadField64 string .stringImpl
  let rope ← Emit.icmpImm .eq impl 0
  let code ← diamond .i32 rope .takenRare
    (do
      let wide ← Emit.signExtend index
      Emit.truncate (← callHelper .stringCharCodeAt [string, wide]))
    (do
      let length ← loadField32 impl .stringImplLength
      let out ← Emit.icmp .uge index length
      let minusOne ← Emit.int32 (-1)
      let characters ← loadField64 impl .stringImplData
      let flags ← loadField32 impl .stringImplFlags
      let bit ← Emit.binaryImm .and flags stringIs8Bit
      let eightBit ← Emit.icmpImm .ne bit 0
      diamond .i32 out .takenRare (pure minusOne) (loadCharacter characters index eightBit))
  speculate .outOfBounds none (← Emit.icmpImm .slt code 0)
  return code

/-- The string of the character at an index. -/
def charAt (node : Node) : Lower Reg := do
  let string ← asCell (← node.child 0)
  let index ← asInt32 (← node.child 1)
  let code ← charCodeAt string index
  callHelper .singleCharacterString [← Emit.zeroExtend code]

def lowerStringCharAt (id : NodeId) (node : Node) : Lower Unit := do setResult id (← charAt node)

def lowerStringCharCodeAt (id : NodeId) (node : Node) : Lower Unit := do
  let string ← asCell (← node.child 0)
  let index ← asInt32 (← node.child 1)
  setResult id (← charCodeAt string index)

/-! ## Reading -/

/-- The form in which an element is loaded. -/
inductive Loaded where
  | boxed
  | double
  | int32

/-- Records a loaded element in the form of the node's result. -/
def setElement (id : NodeId) (value : Reg) (loaded : Loaded) : Lower Unit := do
  match loaded, (← getNode id).result with
  | .boxed, .int32 => setResult id (← Emit.truncate value)
  | .boxed, _ => setResult id value
  | .double, .double => setResult id value
  | .double, _ => setResult id (← boxDouble value false)
  | .int32, .int32 => setResult id value
  | .int32, .double => setResult id (← Emit.intToDouble true value)
  | .int32, _ => setResult id (← boxInt32 value)

/-- The value of an element that is out of bounds or a hole. -/
def missedElement (speculation : ArraySpeculation) (base index : Reg) : Lower Reg := do
  if speculation = .saneChain then Emit.word Value.undefined
  else callHelper .getByValGeneric [base, ← boxInt32 index]

def isEmptyWord (value : Reg) : Emit Reg := Emit.icmpImm .eq value (wordImm Value.empty)

def isNaN (value : Reg) : Emit Reg := Emit.fcmp .unordered value value

/-- A raw double element. -/
def loadDouble (address : Reg) : Emit Reg := Emit.load .f64 .f64 false address 0

/-- The element at an index that is in bounds. -/
def loadElement (butterfly index : Reg) (double : Bool) : Emit Reg := do
  let address ← elementAddress butterfly index 3
  if double then loadDouble address else Emit.load64 address 0

/-- 1 if an element is a hole. -/
def isHole (value : Reg) (double : Bool) : Emit Reg :=
  if double then isNaN value else isEmptyWord value

def lowerGetButterflyElement (id : NodeId) (node : Node) (mode : ArrayMode) : Lower Unit := do
  let double := mode.arrayType == .double
  let base ← asCell (← node.child 0)
  let index ← asInt32 (← node.child 1)
  let butterfly ← butterflyOf base node.children[2]?
  let length ← loadPublicLength butterfly
  if mode.speculation = .inBounds then
    checkInBounds index length
    let value ← loadElement butterfly index double
    if !mode.dense then speculate .loadFromHole none (← isHole value double)
    setElement id value (if double then .double else .boxed)
  else
    let inBounds ← Emit.icmp .ult index length
    let value ← diamond .i64 inBounds .normal
      (do
        let value ← loadElement butterfly index double
        let hole ← isHole value double
        diamond .i64 hole .takenRare (missedElement mode.speculation base index)
          (if double then boxDouble value false else pure value))
      (missedElement mode.speculation base index)
    setElement id value .boxed

/-- The address of an argument of an arguments object; leaves if the object has no such argument. -/
def argumentAddress (arguments index : Reg) : Lower Reg := do
  checkUnmapped arguments
  let length ← loadField32 arguments .directArgumentsLength
  checkInBounds index length
  elementAddress arguments index 3

def lowerGetArgument (id : NodeId) (node : Node) : Lower Unit := do
  let arguments ← asCell (← node.child 0)
  let index ← asInt32 (← node.child 1)
  let address ← argumentAddress arguments index
  setElement id (← Emit.load64 address (← (← read).layout.directArgumentOffset 0)) .boxed

/-- Loads an element of a typed array; one that does not fit into an int32 result leaves. -/
def loadTypedElement (id : NodeId) (kind : ElementKind) (vector index : Reg) :
    Lower (Reg × Loaded) := do
  let address ← elementAddress vector index kind.shift
  match kind with
  | .float32 | .float64 => return (← Emit.load .f64 kind.width false address 0, .double)
  | .uint32 =>
    let raw ← Emit.load32 address 0
    if (← getNode id).result == .int32 then
      speculate .overflow none (← Emit.icmpImm .slt raw 0)
      return (raw, .int32)
    else return (← Emit.intToDouble false raw, .double)
  | _ => return (← Emit.load .i32 kind.width kind.isSigned address 0, .int32)

def lowerGetTypedElement (id : NodeId) (node : Node) (kind : ElementKind) : Lower Unit := do
  let view ← asCell (← node.child 0)
  let index ← asInt32 (← node.child 1)
  let length ← loadField32 view .typedArrayLength
  checkInBounds index length
  let vector ← loadField64 view .typedArrayVector
  let (value, loaded) ← loadTypedElement id kind vector index
  setElement id value loaded

def lowerGetByVal (id : NodeId) (node : Node) (mode : ArrayMode) : Lower Unit := do
  match mode.arrayType with
  | .int32 | .contiguous | .double => lowerGetButterflyElement id node mode
  | .string => setResult id (← charAt node)
  | .directArguments => lowerGetArgument id node
  | .typedArray kind => lowerGetTypedElement id node kind
  | .scopedArguments | .generic =>
    let base ← asValue (← node.child 0)
    let index ← asValue (← node.child 1)
    setElement id (← callHelper .getByValGeneric [base, index]) .boxed
  | .forceExit => terminate .inadequateCoverage

/-- An argument of the running function, read from its frame. -/
def lowerGetMyArgumentByVal (id : NodeId) (node : Node) : Lower Unit := do
  match node.children.getLast? with
  | none => crash .indexMissing
  | some e =>
    let index ← asInt32 e
    let frame := (← read).frame
    let count ← Emit.load32 frame (8 * Frame.argumentCountSlot)
    let arguments ← Emit.binaryImm .add count (-1)
    checkInBounds index arguments
    let address ← elementAddress frame index 3
    setResult id (← Emit.load64 address (8 * (Frame.headerSlots + 1)))

/-! ## Writing -/

/-- An int32 clamped to a byte. -/
def clampInt32 (value : Reg) : Emit Reg := do
  let zero ← Emit.int32 0
  let max ← Emit.int32 255
  let negative ← Emit.icmpImm .slt value 0
  let low ← Emit.select negative zero value
  let above ← Emit.icmpImm .sgt low 255
  Emit.select above max low

/-- A double clamped to a byte and rounded, halves to the even neighbour. -/
def clampDouble (value : Reg) : Emit Reg := do
  let zero ← Emit.fconst (Double.zero false)
  let max ← Emit.fconst (Double.ofInt 255)
  let aboveZero ← Emit.fcmp .gt value zero
  let low ← Emit.select aboveZero value zero
  let above ← Emit.fcmp .gt low max
  let clamped ← Emit.select above max low
  let floor ← Emit.funary .floor clamped
  let fraction ← Emit.fbinary .sub clamped floor
  let floorInt ← Emit.doubleToInt .i32 floor
  let half ← Emit.fconst Double.half
  let aboveHalf ← Emit.fcmp .gt fraction half
  let exactlyHalf ← Emit.fcmp .eq fraction half
  let lowBit ← Emit.binaryImm .and floorInt 1
  let odd ← Emit.icmpImm .ne lowBit 0
  let tieUp ← Emit.binary .and exactlyHalf odd
  let roundUp ← Emit.binary .or aboveHalf tieUp
  let plusOne ← Emit.binaryImm .add floorInt 1
  Emit.select roundUp plusOne floorInt

/-- The used number, converted to what a typed array stores. -/
def typedStoreValue (e : Edge) (kind : ElementKind) : Lower Reg := do
  match e.useKind with
  | .int32 | .knownInt32 =>
    let value ← asInt32 e
    if kind.isFloat then Emit.intToDouble true value
    else if kind = .uint8Clamped then clampInt32 value
    else return value
  | .int52Rep =>
    let value ← asStrictInt52 e
    if kind.isFloat then Emit.intToDouble true value
    else if kind = .uint8Clamped then clampDouble (← Emit.intToDouble true value)
    else Emit.truncate value
  | useKind =>
    if useKind.isDoubleRep then
      let double ← asDouble e
      if kind.isFloat then return double
      else if kind = .uint8Clamped then clampDouble double
      else doubleToInt32Wrapping double
    else crash (.unreadableUse "typed array store through" useKind)

def lowerPutTypedElement (node : Node) (mode : ArrayMode) (kind : ElementKind) : Lower Unit := do
  let view ← asCell (← node.child 0)
  let index ← asInt32 (← node.child 1)
  let value ← typedStoreValue (← node.child 2) kind
  let length ← loadField32 view .typedArrayLength
  let store : Lower Unit := do
    let vector ← loadField64 view .typedArrayVector
    let address ← elementAddress vector index kind.shift
    Emit.store kind.width value address 0
  if mode.speculation = .inBounds then
    checkInBounds index length
    store
  else
    let inBounds ← Emit.icmp .ult index length
    when inBounds .normal store

/-- The used value in the form that a butterfly stores; NaN, which is a hole, leaves. -/
def butterflyStoreValue (e : Edge) (arrayType : ArrayType) : Lower Reg := do
  match arrayType with
  | .int32 => boxInt32 (← asInt32 e)
  | .double =>
    let value ← asDouble e
    if (← typeOfNode e.node).overlaps (.union .doublePureNaN .doubleImpureNaN) then
      speculate .badType none (← isNaN value)
    return value
  | _ => asValue e

/-- The form of a butterfly's elements in memory. -/
def elementWidth (arrayType : ArrayType) : MemWidth := if arrayType = .double then .f64 else .w64

def storeElement (arrayType : ArrayType) (butterfly index value : Reg) : Emit Unit := do
  let address ← elementAddress butterfly index 3
  Emit.store (elementWidth arrayType) value address 0

/-- An element, boxed for the runtime. -/
def boxElement (arrayType : ArrayType) (value : Reg) : Emit Reg :=
  if arrayType = .double then boxDouble value false else pure value

/-- Tells the collector of a store into an array that can hold cells. -/
def elementBarrier (arrayType : ArrayType) (value : NodeId) (cell : Reg) : Lower Unit := do
  if arrayType = .contiguous then barrierFor value cell

/-- Stores an element; an index beyond the length extends the array if there is room. -/
def storeOrAppend (mode : ArrayMode) (base butterfly index length value : Reg) : Lower Unit := do
  let inBounds ← Emit.icmp .ult index length
  let store ← Emit.createBlock false
  let beyond ← Emit.createBlock false
  let join ← Emit.createBlock false
  Emit.branch inBounds store beyond .normal
  inArm do
    Emit.switchTo store
    storeElement mode.arrayType butterfly index value
    Emit.jump join []
    Emit.switchTo beyond
    let capacity ← loadVectorLength butterfly
    let fits ← Emit.icmp .ult index capacity
    let append ← Emit.createBlock false
    let generic ← Emit.createBlock false
    Emit.branch fits append generic .normal
    Emit.switchTo append
    storeElement mode.arrayType butterfly index value
    let grown ← Emit.binaryImm .add index 1
    storePublicLength butterfly grown
    Emit.jump join []
    Emit.switchTo generic
    let boxedIndex ← boxInt32 index
    let boxedValue ← boxElement mode.arrayType value
    let _ ← callHelper .putByValGeneric [base, boxedIndex, boxedValue]
    Emit.jump join []
  Emit.switchTo join

def lowerPutButterflyElement (node : Node) (mode : ArrayMode) : Lower Unit := do
  let base ← asCell (← node.child 0)
  let index ← asInt32 (← node.child 1)
  let valueUse ← node.child 2
  let value ← butterflyStoreValue valueUse mode.arrayType
  let butterfly ← butterflyOf base node.children[3]?
  let length ← loadPublicLength butterfly
  if mode.speculation = .inBounds then
    checkInBounds index length
    storeElement mode.arrayType butterfly index value
  else storeOrAppend mode base butterfly index length value
  elementBarrier mode.arrayType valueUse.node base

def lowerPutArgument (node : Node) : Lower Unit := do
  let arguments ← asCell (← node.child 0)
  let index ← asInt32 (← node.child 1)
  let valueUse ← node.child 2
  let value ← asValue valueUse
  let address ← argumentAddress arguments index
  Emit.store64 value address (← (← read).layout.directArgumentOffset 0)
  barrierFor valueUse.node arguments

def lowerPutByVal (node : Node) (mode : ArrayMode) : Lower Unit := do
  match mode.arrayType with
  | .int32 | .double | .contiguous => lowerPutButterflyElement node mode
  | .typedArray kind => lowerPutTypedElement node mode kind
  | .directArguments => lowerPutArgument node
  | .string | .scopedArguments | .generic =>
    let base ← asValue (← node.child 0)
    let index ← asValue (← node.child 1)
    let value ← asValue (← node.child 2)
    let _ ← callHelper .putByValGeneric [base, index, value]
  | .forceExit => terminate .inadequateCoverage

end Lowering

end SpecJit
