import SpecJit.Lowering.Exits

/-!
# Checks of use kinds

A use checks its value unless the facts prove what it needs. A check that can only fail ends the
block. After a check the facts about the node are narrowed to what was checked.
-/

namespace SpecJit.Lowering

open Lir

/-- Checks that a node is of the given kinds; `failing` computes 1 if it is not. -/
def typeCheck (id : NodeId) (mask : SpecType) (kind : ExitKind) (profile : Option Reg)
    (failing : Lower Reg) : Lower Unit := do
  let known ← factOf id
  let inArm := (← get).armDepth != 0
  if known.isType mask then elided
  else if known.isNotType mask && !inArm then terminate kind
  else
    speculate kind profile (← failing)
    if !inArm then
      let s ← get
      let facts ← s.facts.filter (← read).graph id mask
      set { s with facts }

/-- Checks the type of a boxed value. -/
def typeCheckValue (id : NodeId) (value : Reg) (mask : SpecType) (failing : Lower Reg) :
    Lower Unit :=
  typeCheck id mask .badType (some value) failing

def checkInt32 (id : NodeId) (value : Reg) : Lower Unit :=
  typeCheckValue id value .int32 (Emit.icmpImm .ult value (wordImm Value.numberTag))

def checkCell (id : NodeId) (value : Reg) : Lower Unit :=
  typeCheckValue id value .cell do negated (← isCell value)

def checkBoolean (id : NodeId) (value : Reg) : Lower Unit :=
  typeCheckValue id value .boolean do negated (← isBoolean value)

/-- Checks that a value is a cell of one type. -/
def checkCellType (id : NodeId) (value : Reg) (mask : SpecType) (cellType : CellType) :
    Lower Unit := do
  checkCell id value
  typeCheckValue id value mask do Emit.icmpImm .ne (← cellTag value) cellType.tag

/-- 1 if a value is no number, or is NaN. -/
def isNotRealNumber (value : Reg) : Lower Reg := do
  let int ← isInt32 value
  diamond .i32 int .normal
    (Emit.int32 0)
    (do
      let number ← isNumber value
      diamond .i32 number .normal
        (do
          let double ← unboxDouble value
          Emit.fcmp .unordered double double)
        (Emit.int32 1))

/-- 1 if a value is neither an object nor `null` or `undefined`. -/
def isNotObjectOrOther (value : Reg) : Lower Reg := do
  let cell ← isCell value
  diamond .i32 cell .normal
    (do isNotObjectTag (← cellTag value))
    (do negated (← isOther value))

/-- Checks a boxed value as a use kind asks for. -/
def checkUse (e : Edge) (value : Reg) : Lower Unit := do
  let id := e.node
  match e.useKind with
  | .untyped | .knownInt32 | .knownBoolean | .knownCell | .knownString | .int52Rep | .doubleRep
  | .doubleRepReal | .doubleRepMachineInt => return ()
  | .int32 => checkInt32 id value
  | .number | .machineInt => typeCheckValue id value .bytecodeNumber do negated (← isNumber value)
  | .realNumber => typeCheckValue id value .bytecodeRealNumber (isNotRealNumber value)
  | .boolean => checkBoolean id value
  | .cell => checkCell id value
  | .object =>
    checkCell id value
    typeCheckValue id value .object do isNotObjectTag (← cellTag value)
  | .function => checkCellType id value .function .function
  | .finalObject => checkCellType id value .finalObject .finalObject
  | .string => checkCellType id value .string .string
  | .stringObject => checkCellType id value .stringObject .stringObject
  | .stringIdent =>
    checkCellType id value .string .string
    typeCheckValue id value .stringIdent (isNotIdentString value)
  | .stringOrStringObject =>
    checkCell id value
    typeCheckValue id value (.union .string .stringObject) do
      let tag ← cellTag value
      let notString ← Emit.icmpImm .ne tag CellType.string.tag
      let notObject ← Emit.icmpImm .ne tag CellType.stringObject.tag
      Emit.binary .and notString notObject
  | .notStringVar => typeCheckValue id value SpecType.stringVar.complement (isStringVar value)
  | .objectOrOther => typeCheckValue id value (.union .object .other) (isNotObjectOrOther value)
  | .notCell => typeCheckValue id value SpecType.cell.complement (isCell value)
  | .other => typeCheckValue id value .other do negated (← isOther value)
  | .misc => typeCheckValue id value .misc do negated (← isMisc value)

end SpecJit.Lowering
