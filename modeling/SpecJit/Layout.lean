import SpecJit.Fault
import SpecJit.Structure

/-!
# Layout of cells and frames

Where the fields of cells, the elements of storage and the variables of a frame are, in bytes from
the address of the cell, the storage or the frame. Offsets are 32-bit integers; a computation that
leaves their range is a fault.
-/

namespace SpecJit

/-! ## Offsets -/

namespace Offset

/-- The signed 32-bit integer with the bits of an unsigned one. -/
def ofIndex (n : Nat) : Int := Int.bmod n 0x100000000

/-- `base + 8 * index` in signed 32-bit arithmetic. -/
def slot (base : Int) (index : Nat) : Except Fault Int := do
  let bytes ← Fault.checkI32 (8 * ofIndex index)
  Fault.checkI32 (base + bytes)

end Offset

/-! ## Cells -/

/-- A field of a cell or of the storage that belongs to it. -/
inductive CellField where
  | structureId
  | indexingType
  | cellType
  | typeInfoFlags
  | gcMark
  | butterfly
  | inlineStorage
  | publicLength
  | vectorLength
  | stringImpl
  | stringImplFlags
  | stringImplLength
  | stringImplData
  | typedArrayVector
  | typedArrayLength
  | scopeNext
  | activationSymbolTable
  | activationVariables
  | functionScope
  | functionExecutable
  | directArgumentsLength
  | directArgumentsCallee
  | directArgumentsMapped
  | directArgumentsStorage
  | stringObjectValue
deriving DecidableEq, Hashable, Inhabited, Repr

namespace CellField

def all : List CellField :=
  [.structureId, .indexingType, .cellType, .typeInfoFlags, .gcMark, .butterfly, .inlineStorage,
    .publicLength, .vectorLength, .stringImpl, .stringImplFlags, .stringImplLength, .stringImplData,
    .typedArrayVector, .typedArrayLength, .scopeNext, .activationSymbolTable, .activationVariables,
    .functionScope, .functionExecutable, .directArgumentsLength, .directArgumentsCallee,
    .directArgumentsMapped, .directArgumentsStorage, .stringObjectValue]

def name : CellField → String
  | .structureId => "StructureId"
  | .indexingType => "IndexingType"
  | .cellType => "CellType"
  | .typeInfoFlags => "TypeInfoFlags"
  | .gcMark => "GcMark"
  | .butterfly => "Butterfly"
  | .inlineStorage => "InlineStorage"
  | .publicLength => "PublicLength"
  | .vectorLength => "VectorLength"
  | .stringImpl => "StringImpl"
  | .stringImplFlags => "StringImplFlags"
  | .stringImplLength => "StringImplLength"
  | .stringImplData => "StringImplData"
  | .typedArrayVector => "TypedArrayVector"
  | .typedArrayLength => "TypedArrayLength"
  | .scopeNext => "ScopeNext"
  | .activationSymbolTable => "ActivationSymbolTable"
  | .activationVariables => "ActivationVariables"
  | .functionScope => "FunctionScope"
  | .functionExecutable => "FunctionExecutable"
  | .directArgumentsLength => "DirectArgumentsLength"
  | .directArgumentsCallee => "DirectArgumentsCallee"
  | .directArgumentsMapped => "DirectArgumentsMapped"
  | .directArgumentsStorage => "DirectArgumentsStorage"
  | .stringObjectValue => "StringObjectValue"

/-- Where a field is unless a layout moves it. -/
def standardOffset : CellField → Int
  | .structureId => 0
  | .indexingType => 4
  | .cellType => 5
  | .typeInfoFlags => 6
  | .gcMark => 7
  | .butterfly | .stringImpl | .typedArrayVector | .stringObjectValue => 8
  | .inlineStorage => 16
  | .publicLength => -8
  | .vectorLength => -4
  | .stringImplLength => 4
  | .stringImplData => 8
  | .stringImplFlags => 16
  | .typedArrayLength => 16
  | .scopeNext => 16
  | .activationSymbolTable => 24
  | .activationVariables => 32
  | .functionScope => 16
  | .functionExecutable => 24
  | .directArgumentsLength => 16
  | .directArgumentsCallee => 24
  | .directArgumentsMapped => 32
  | .directArgumentsStorage => 40

end CellField

/-- Flags of a string's characters. -/
def stringIs8Bit : Int := 0x1
def stringIsAtomic : Int := 0x2

/-- Where the fields of cells are, and which tags belong to objects. -/
structure ObjectLayout where
  fieldOffset : CellField → Int := CellField.standardOffset
  firstObjectTag : Nat := CellType.firstObjectTag

namespace ObjectLayout

instance : Inhabited ObjectLayout := ⟨{}⟩

/-- The usual layout. -/
def standard : ObjectLayout := {}

/-- A layout with one more header word before the inline properties and with a gap in the tags. -/
def shifted : ObjectLayout where
  fieldOffset f := f.standardOffset + if f = .inlineStorage then 8 else 0
  firstObjectTag := 0x30

variable (l : ObjectLayout)

def tagOffset : Int := l.fieldOffset .cellType

/-- Where a property is: after the cell's header, or before the butterfly. -/
def propertyOffset (o : PropertyOffset) : Except Fault Int :=
  if o.isInline then Offset.slot (l.fieldOffset .inlineStorage) o.index
  else do
    let bytes ← Fault.checkI32 (8 * Offset.ofIndex o.outOfLineIndex)
    Fault.checkI32 (-16 - bytes)

def closureVarOffset (index : Nat) : Except Fault Int :=
  Offset.slot (l.fieldOffset .activationVariables) index

def directArgumentOffset (index : Nat) : Except Fault Int :=
  Offset.slot (l.fieldOffset .directArgumentsStorage) index

/-- The bytes of an object with the given number of inline properties. -/
def objectSize (inlineCapacity : Nat) : Except Fault Nat := do
  let bytes ← Fault.checkU32 (8 * inlineCapacity)
  Fault.checkU32 (l.fieldOffset .inlineStorage % 0x100000000 + bytes)

/-- The bytes before the elements of a butterfly: the lengths and the out-of-line properties. -/
def butterflyPreamble (outOfLine : Nat) : Except Fault Nat := do
  let bytes ← Fault.checkU32 (8 * outOfLine)
  Fault.checkU32 (8 + bytes)

end ObjectLayout

/-! ## Frames and the execution context -/

namespace Frame

/-- Slots of the frame header. -/
def calleeSlot : Int := 1
def argumentCountSlot : Int := 2
def headerSlots : Nat := 3

/-- The slot of a variable: arguments above the header, locals below the frame. -/
def slot : Operand → Except Fault Int
  | .arg i => Fault.checkI32 (headerSlots + Offset.ofIndex i)
  | .loc i => .ok (-1 - Offset.ofIndex i)

/-- The byte offset of a variable. -/
def offset (v : Operand) : Except Fault Int := do Fault.checkI32 (8 * (← slot v))

end Frame

namespace Context

/-- Fields of the execution context. -/
def exitIndexOffset : Int := 0
def invalidatedOffset : Int := 4
def stackLimitOffset : Int := 24
def linearCursorOffset : Int := 32
def linearEndOffset : Int := 40
def freeListsOffset : Int := 48

def numSizeClasses : Nat := 8
def sizeClassStep : Nat := 16

/-- The free list that serves cells of a given size, if there is one. -/
def sizeClass? (bytes : Nat) : Option Nat :=
  let cls := (bytes + sizeClassStep - 1) / sizeClassStep - 1
  if cls < numSizeClasses then some cls else none

def freeListOffset (cls : Nat) : Int := freeListsOffset + 8 * cls

end Context

end SpecJit
