import SpecJit.Lowering.Forms

/-!
# Code that allocates

Small cells come from a free list of the context and storage from a linear area of it; the runtime
steps in when these are used up. A fresh cell has its header, no butterfly, and `undefined` in every
slot.
-/

namespace SpecJit

/-- The least power of two that is not below a number. -/
def leastPowerOfTwo (n : Nat) : Nat := if n ≤ 1 then 1 else Nat.pow 2 ((n - 1).log2 + 1)

/-- The out-of-line slots allocated for a number of out-of-line properties: a power of two of at
least 4, or none. -/
def outOfLineCapacity (used : Nat) : Nat := if used = 0 then 0 else max (leastPowerOfTwo used) 4

def Structure.outOfLineCapacity (s : Structure) : Nat := SpecJit.outOfLineCapacity s.outOfLineSize

namespace Lowering

open Lir

/-! ## Fields -/

def loadField64 (cell : Reg) (field : CellField) : Lower Reg :=
  do Emit.load64 cell (← fieldOffset field)

def loadField32 (cell : Reg) (field : CellField) : Lower Reg :=
  do Emit.load32 cell (← fieldOffset field)

def loadField8 (cell : Reg) (field : CellField) : Lower Reg :=
  do Emit.load8 cell (← fieldOffset field)

def storeField (width : MemWidth) (value cell : Reg) (field : CellField) : Lower Unit := do
  Emit.store width value cell (← fieldOffset field)

/-- Gives a cell the structure with the given id. -/
def storeStructureId (cell : Reg) (id : StructureId) : Lower Unit := do
  let r ← Emit.int32 (Offset.ofIndex id.index)
  storeField .w32 r cell .structureId

/-! ## Cells and storage -/

/-- A fresh cell of the given size. -/
def allocateCell (bytes : Nat) : Lower Reg := do
  let byRuntime : Lower Reg := do callHelper .allocateCell [← Emit.int64 bytes]
  match Context.sizeClass? bytes with
  | none => byRuntime
  | some cls =>
    let context := (← read).context
    let list := Context.freeListOffset cls
    let head ← Emit.load64 context list
    let empty ← Emit.icmpImm .eq head 0
    diamond .i64 empty .takenRare byRuntime do
      let next ← Emit.load64 head 0
      Emit.store64 next context list
      return head

/-- Fresh storage of the size in a register. -/
def allocateStorage (bytes : Reg) : Lower Reg := do
  let context := (← read).context
  let cursor ← Emit.load64 context Context.linearCursorOffset
  let limit ← Emit.load64 context Context.linearEndOffset
  let bumped ← Emit.binary .add cursor bytes
  let fits ← Emit.icmp .ule bumped limit
  diamond .i64 fits .normal
    (do
      Emit.store64 bumped context Context.linearCursorOffset
      return cursor)
    (callHelper .allocateStorage [bytes])

/-- Writes the header of a cell of a structure. -/
def initializeHeader (cell : Reg) (s : Structure) : Lower Unit := do
  storeStructureId cell s.id
  storeField .w8 (← Emit.int32 s.indexing.byte.toNat) cell .indexingType
  let tag ← Emit.int32 s.cellType.tag
  Emit.store .w8 tag cell (← read).layout.tagOffset
  storeField .w8 (← Emit.int32 s.flags.byte.toNat) cell .typeInfoFlags
  storeField .w8 (← Emit.int32 0) cell .gcMark

/-- A fresh butterfly with the given out-of-line slots and lengths. -/
def allocateButterfly (outOfLine : Nat) (publicLength vectorLength : Reg) : Lower Reg := do
  let preamble ← ObjectLayout.butterflyPreamble outOfLine
  let wide ← Emit.zeroExtend vectorLength
  let elements ← Emit.binaryImm .shl wide 3
  let bytes ← Emit.binaryImm .add elements preamble
  let base ← allocateStorage bytes
  let butterfly ← Emit.binaryImm .add base preamble
  storeField .w32 publicLength butterfly .publicLength
  storeField .w32 vectorLength butterfly .vectorLength
  return butterfly

/-- A fresh butterfly without elements, made the butterfly of an object. -/
def attachButterfly (object : Reg) (outOfLine : Nat) : Lower Reg := do
  let zero ← Emit.int32 0
  let butterfly ← allocateButterfly outOfLine zero zero
  storeField .w64 butterfly object .butterfly
  return butterfly

/-! ## Objects -/

/-- Stores a register into the inline slots of a cell. -/
def fillInlineSlots (cell value : Reg) (capacity : Nat) : Lower Unit := do
  let layout := (← read).layout
  (List.range capacity).forM fun slot => do
    Emit.store64 value cell (← layout.propertyOffset ⟨slot⟩)

/-- A fresh object of a structure. -/
def allocateObject (s : Structure) : Lower Reg := do
  let object ← allocateCell (← (← read).layout.objectSize s.inlineCapacity)
  initializeHeader object s
  storeField .w64 (← Emit.int64 0) object .butterfly
  fillInlineSlots object (← Emit.word Value.undefined) s.inlineCapacity
  return object

/-- A fresh activation of a structure, below a scope. -/
def allocateActivation (s : Structure) (scope : Reg) : Lower Reg := do
  let layout := (← read).layout
  let bytes ← layout.closureVarOffset s.inlineCapacity
  let activation ← allocateCell (bytes % 0x100000000).toNat
  initializeHeader activation s
  storeField .w64 scope activation .scopeNext
  storeField .w64 (← Emit.int64 0) activation .activationSymbolTable
  let undefined ← Emit.word Value.undefined
  (List.range s.inlineCapacity).forM fun index => do
    Emit.store64 undefined activation (← layout.closureVarOffset index)
  return activation

end Lowering

end SpecJit
