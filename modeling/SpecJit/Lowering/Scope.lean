import SpecJit.Lowering.Property

/-!
# Code for scopes, functions, arguments objects and new objects

Allocations that were put off and are done after all (`lowerMaterializeNewObject`,
`lowerMaterializeActivation`) give the object the fields that its uses list.
-/

namespace SpecJit.Lowering

open Lir

/-! ## Variables -/

def lowerGetGlobalVar (id : NodeId) (address : Word) : Lower Unit := do
  setResult id (← Emit.load64 (← Emit.word address) 0)

def lowerPutGlobalVar (node : Node) (address : Word) : Lower Unit := do
  let value ← asValue (← node.child 0)
  Emit.store64 value (← Emit.word address) 0

/-- Follows a link from a cell to another one. -/
def lowerLoadLink (id : NodeId) (node : Node) (field : CellField) : Lower Unit := do
  setResult id (← loadField64 (← asCell (← node.child 0)) field)

/-- Reads a slot of a cell. -/
def lowerGetSlot (id : NodeId) (node : Node) (offset : Except Fault Int) : Lower Unit := do
  let cell ← asCell (← node.child 0)
  setResult id (← Emit.load64 cell (← offset))

/-- Writes a slot of a cell. -/
def lowerPutSlot (node : Node) (offset : Except Fault Int) : Lower Unit := do
  let cell ← asCell (← node.child 0)
  let valueUse ← node.child 1
  let value ← asValue valueUse
  Emit.store64 value cell (← offset)
  barrierFor valueUse.node cell

def lowerGetClosureVar (id : NodeId) (node : Node) (index : Nat) : Lower Unit := do
  lowerGetSlot id node ((← read).layout.closureVarOffset index)

def lowerPutClosureVar (node : Node) (index : Nat) : Lower Unit := do
  lowerPutSlot node ((← read).layout.closureVarOffset index)

def lowerGetFromArguments (id : NodeId) (node : Node) (index : Nat) : Lower Unit := do
  lowerGetSlot id node ((← read).layout.directArgumentOffset index)

def lowerPutToArguments (node : Node) (index : Nat) : Lower Unit := do
  lowerPutSlot node ((← read).layout.directArgumentOffset index)

/-! ## New objects -/

def lowerNewObject (id : NodeId) (structureId : StructureId) : Lower Unit := do
  setResult id (← allocateObject (← getStructure structureId))

def lowerNewFunction (id : NodeId) (node : Node) : Lower Unit := do
  let scope ← asCell (← node.child 0)
  let executable ← asValue (← node.child 1)
  setResult id (← callHelper .newFunction [executable, scope])

def lowerCreateActivation (id : NodeId) (node : Node) (structureId : StructureId) : Lower Unit := do
  let scope ← asCell (← node.child 0)
  setResult id (← allocateActivation (← getStructure structureId) scope)

/-- An arguments object that the runtime makes from the frame alone. -/
def lowerCreateArguments (id : NodeId) (helper : Helper) : Lower Unit := do
  setResult id (← callHelper helper [(← read).frame])

def lowerCreateScopedArguments (id : NodeId) (node : Node) : Lower Unit := do
  let scope ← asCell (← node.child 0)
  setResult id (← callHelper .createScopedArguments [(← read).frame, scope])

/-! ## Allocations that were put off -/

/-- The values of the fields: all uses but the first. -/
def fieldValues (node : Node) : Lower (List Reg) :=
  match node.children with
  | [] => check (.error .outOfRange)
  | _ :: fields => fields.mapM asValue

/-- Stores the named properties among the fields of a fresh object. -/
def storeNamedFields (object : Reg) (s : Structure) (locations : List PromotedLocation)
    (values : List Reg) :
    Lower Unit := do
  let capacity := s.outOfLineCapacity
  let butterfly ← if 0 < capacity then attachButterfly object capacity else pure object
  (locations.zip values).forM fun (location, value) =>
    match location with
    | .namedProperty identifier => do
      match s.offsetOf? identifier with
      | none => crash (.noSlotFor s.id ((← read).graph.identifier identifier))
      | some offset => storeProperty value (if offset.isInline then object else butterfly) offset
    | _ => return ()

/-- A fresh object of a structure with its fields. -/
def materializeAs (s : Structure) (locations : List PromotedLocation) (values : List Reg) :
    Lower Reg := do
  let object ← allocateObject s
  storeNamedFields object s locations values
  return object

def lowerMaterializeNewObject (id : NodeId) (node : Node) (data : MaterializeData) :
    Lower Unit := do
  let values ← fieldValues node
  let structures ← data.structures.ids.mapM getStructure
  match structures with
  | [] => crash .noStructureToBuild
  | [s] => setResult id (← materializeAs s data.locations values)
  | many =>
    let current ← asInt32 (← node.child 0)
    let join ← Emit.createBlock false
    let result ← Emit.blockParam join .i64
    inArm <| dispatch join true
      (fun s => Emit.icmpImm .eq current s.id.index)
      (fun s => return [← materializeAs s data.locations values])
      (pure ()) many
    Emit.switchTo join
    setResult id result

def lowerMaterializeActivation (id : NodeId) (node : Node) (data : MaterializeData) :
    Lower Unit := do
  match data.structures.only? with
  | none => crash .activationStructures
  | some structureId =>
    let scope ← asCell (← node.child 0)
    let values ← fieldValues node
    let activation ← allocateActivation (← getStructure structureId) scope
    (data.locations.zip values).forM fun (location, value) =>
      match location with
      | .closureVar index =>
        do Emit.store64 value activation (← (← read).layout.closureVarOffset index)
      | .activationSymbolTable => storeField .w64 value activation .activationSymbolTable
      | _ => return ()
    setResult id activation

end SpecJit.Lowering
