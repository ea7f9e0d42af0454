import SpecJit.Lowering.Allocation

/-!
# Code for structures and properties

Checks of the structure of a cell, accesses to properties whose place is known from the structure,
and dispatch over several structures.
-/

namespace SpecJit.Lowering

open Lir

/-! ## Checks -/

def loadStructureId (cell : Reg) : Lower Reg := loadField32 cell .structureId

/-- 1 if a structure id is in a set. -/
def structureIn (id : Reg) (set : StructureSet) : Emit Reg := do
  match set.ids with
  | [] => Emit.int32 0
  | first :: rest =>
    let initial ← Emit.icmpImm .eq id first.index
    rest.foldlM (fun found s => do Emit.binary .or found (← Emit.icmpImm .eq id s.index)) initial

def lowerCheckStructure (node : Node) (set : StructureSet) : Lower Unit := do
  let e ← node.child 0
  let cell ← asCell e
  let known ← factOf e.node
  let kind : ExitKind := match known.value with
    | some (.cell _) => .badConstantCache
    | _ => .badCache
  if known.structures.isSubsetOf set then elided
  else if set.isEmpty then terminate kind
  else
    let id ← loadStructureId cell
    let found ← structureIn id set
    speculate kind (some cell) (← negated found)

def lowerCheckCell (node : Node) (expected : FrozenValue) : Lower Unit := do
  let e ← node.child 0
  let value ← asValue e
  if (← factOf e.node).value = some expected then elided
  else
    let failing ← Emit.icmpImm .ne value (wordImm (Value.ofFrozen expected))
    speculate .badCell (some value) failing

def lowerCheckNotEmpty (node : Node) : Lower Unit := do
  let e ← node.child 0
  let value ← asValue e
  if !(← typeOfNode e.node).overlaps .empty then elided
  else speculate .tdzFailure none (← Emit.icmpImm .eq value (wordImm Value.empty))

def lowerCheckHasInstance (node : Node) : Lower Unit := do
  let cell ← asCell (← node.child 0)
  let flags ← loadField8 cell .typeInfoFlags
  let isDefault ← Emit.binaryImm .and flags TypeInfoFlags.defaultHasInstance.toNat
  speculate .uncountable none (← negated isDefault)

/-! ## Storage -/

def lowerGetButterfly (id : NodeId) (node : Node) : Lower Unit := do
  setResult id (← loadField64 (← asCell (← node.child 0)) .butterfly)

def lowerAllocatePropertyStorage (id : NodeId) (node : Node) (t : Transition) : Lower Unit := do
  let object ← asCell (← node.child 0)
  let next ← getStructure t.next
  setResult id (← attachButterfly object next.outOfLineCapacity)

/-- Storage of the given number of slots with what an object had in its storage. -/
def reallocateStorage (object : Reg) (slots : Nat) : Lower Reg := do
  callHelper .reallocateStorage [object, ← Emit.int64 slots]

def lowerReallocatePropertyStorage (id : NodeId) (node : Node) (t : Transition) : Lower Unit := do
  let object ← asCell (← node.child 0)
  let next ← getStructure t.next
  setResult id (← reallocateStorage object next.outOfLineCapacity)

/-! ## Properties -/

/-- The address that the offset of a property counts from, given the cell. -/
def slotBase (cell : Reg) (offset : PropertyOffset) : Lower Reg :=
  if offset.isInline then pure cell else loadField64 cell .butterfly

/-- The same, given the cell or its storage. -/
def slotBaseOf (storage : Edge) (r : Reg) (offset : PropertyOffset) : Lower Reg := do
  if (← getNode storage.node).result == .storage then return r else slotBase r offset

def loadProperty (base : Reg) (offset : PropertyOffset) : Lower Reg := do
  Emit.load64 base (← (← read).layout.propertyOffset offset)

def storeProperty (value base : Reg) (offset : PropertyOffset) : Lower Unit := do
  Emit.store64 value base (← (← read).layout.propertyOffset offset)

/-- Tells the collector of a store into a cell, if the value may be a cell. -/
def barrierFor (value : NodeId) (cell : Reg) : Lower Unit := do
  if (← typeOfNode value).overlaps .cell then writeBarrier cell

def lowerGetByOffset (id : NodeId) (node : Node) (offset : PropertyOffset) : Lower Unit := do
  let e ← node.child 0
  let storage ← asStorageOrCell e
  setResult id (← loadProperty (← slotBaseOf e storage offset) offset)

/-- The storage, the cell and the value of a write; with two uses the cell stands for its storage.
-/
def writeUses (node : Node) : Except Fault (Edge × Edge × Edge) := do
  if node.children.length = 2 then return (← node.child 0, ← node.child 0, ← node.child 1)
  else return (← node.child 0, ← node.child 1, ← node.child 2)

def lowerPutByOffset (node : Node) (offset : PropertyOffset) : Lower Unit := do
  let (storageUse, baseUse, valueUse) ← writeUses node
  let storage ← asStorageOrCell storageUse
  let base ← asCell baseUse
  let value ← asValue valueUse
  storeProperty value (← slotBaseOf storageUse storage offset) offset
  barrierFor valueUse.node base

/-! ## Dispatch over structures -/

/-- Tries cases in order: the first one whose test yields 1 computes the arguments of a jump to
`join`. The last case of an exhaustive list is not tested; behind a list that is not, `miss` stands.
-/
def dispatch {α : Type} (join : BlockId) (exhaustive : Bool) (test : α → Lower Reg)
    (body : α → Lower (List Reg)) (miss : Lower Unit) : List α → Lower Unit
  | [] => miss
  | c :: rest => do
    if exhaustive && rest.isEmpty then Emit.jump join (← body c)
    else
      let found ← test c
      let hit ← Emit.createBlock false
      let next ← Emit.createBlock false
      Emit.branch found hit next .normal
      Emit.switchTo hit
      Emit.jump join (← body c)
      Emit.switchTo next
      dispatch join exhaustive test body miss rest

/-- A structure that a cell may have according to what is known. -/
def structurePossible (known : StructureFact) (id : StructureId) : Bool :=
  match known with
  | .top => true
  | .known set => set.contains id

/-- The cases that can apply. -/
def possibleCases {α : Type} (known : StructureFact) (structures : α → StructureSet)
    (cases : List α) : List α :=
  cases.filter fun c => (structures c).ids.any (structurePossible known)

/-- Every structure that a cell may have is in one of the cases. -/
def coveredBy {α : Type} (known : StructureFact) (structures : α → StructureSet) (cases : List α) :
    Bool :=
  known.isSubsetOf (cases.foldl (fun all c => (all.merge (structures c)).1) {})

/-- One case of a polymorphic read. -/
def readCase (base : Reg) : ReadMethod → Lower Reg
  | .load offset => do loadProperty (← slotBase base offset) offset
  | .constant v => Emit.word (Value.ofFrozen v)

def lowerMultiGetByOffset (id : NodeId) (node : Node) (cases : List ReadCase) : Lower Unit := do
  let e ← node.child 0
  let base ← asCell e
  let known := (← factOf e.node).structures
  let cases := possibleCases known ReadCase.structures cases
  if cases.isEmpty then terminate .badCache
  else
    let join ← Emit.createBlock false
    let result ← Emit.blockParam join .i64
    let current ← loadStructureId base
    inArm <| dispatch join (coveredBy known ReadCase.structures cases)
      (fun c => structureIn current c.structures)
      (fun c => return [← readCase base c.method])
      (exitHere .badCache (some base)) cases
    Emit.switchTo join
    setResult id result

/-- A write into one of these structures needs more out-of-line slots than the cell has. -/
def needsGrowth (c : WriteCase) : Lower Bool :=
  c.oldStructures.ids.anyM fun old => do
    return (← getStructure old).outOfLineCapacity ≤ c.offset.outOfLineIndex

/-- The address that a write goes to; storage that is too small is replaced first. -/
def writeBase (base : Reg) (c : WriteCase) : Lower Reg := do
  match c.newStructure with
  | some next =>
    if c.offset.isInline then slotBase base c.offset
    else if ← needsGrowth c then reallocateStorage base (← getStructure next).outOfLineCapacity
    else slotBase base c.offset
  | none => slotBase base c.offset

/-- One case of a polymorphic write. -/
def writeCase (base value : Reg) (c : WriteCase) : Lower Unit := do
  storeProperty value (← writeBase base c) c.offset
  match c.newStructure with
  | some next => storeStructureId base next
  | none => return ()

def lowerMultiPutByOffset (node : Node) (cases : List WriteCase) : Lower Unit := do
  let baseUse ← node.child 0
  let valueUse ← node.child 1
  let base ← asCell baseUse
  let value ← asValue valueUse
  let known := (← factOf baseUse.node).structures
  let cases := possibleCases known WriteCase.oldStructures cases
  if cases.isEmpty then terminate .badCache
  else
    let join ← Emit.createBlock false
    let current ← loadStructureId base
    inArm <| dispatch join (coveredBy known WriteCase.oldStructures cases)
      (fun c => structureIn current c.oldStructures)
      (fun c => do writeCase base value c; return [])
      (exitHere .badCache (some base)) cases
    Emit.switchTo join
    barrierFor valueUse.node base

def lowerPutStructure (node : Node) (t : Transition) : Lower Unit := do
  storeStructureId (← asCell (← node.child 0)) t.next

end SpecJit.Lowering
