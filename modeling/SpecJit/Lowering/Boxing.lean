import SpecJit.Lowering.Basic

/-!
# Code that tells boxed values apart, boxes them and unboxes them

Each function emits code that computes, at run time, what its namesake in `Value` computes on a
word. Tests yield 1 or 0.
-/

namespace SpecJit.Lowering

open Lir

/-! ## Kinds of words -/

def isInt32 (value : Reg) : Emit Reg := Emit.icmpImm .uge value (wordImm Value.numberTag)

def isNumber (value : Reg) : Emit Reg := do
  let tag ← Emit.binaryImm .and value (wordImm Value.numberTag)
  Emit.icmpImm .ne tag 0

def isCell (value : Reg) : Emit Reg := do
  let tag ← Emit.binaryImm .and value (wordImm Value.notCellMask)
  Emit.icmpImm .eq tag 0

def isBoolean (value : Reg) : Emit Reg := do
  let falseReg ← Emit.word Value.falseWord
  let flipped ← Emit.binary .xor value falseReg
  let rest ← Emit.binaryImm .and flipped (-2)
  Emit.icmpImm .eq rest 0

def isOther (value : Reg) : Emit Reg := do
  let cleared ← Emit.binaryImm .and value (wordImm (~~~Value.undefinedTag))
  Emit.icmpImm .eq cleared (wordImm Value.null)

def isMisc (value : Reg) : Emit Reg := do
  let boolean ← isBoolean value
  let other ← isOther value
  Emit.binary .or boolean other

/-- 1 if a test is 0. -/
def negated (test : Reg) : Emit Reg := Emit.icmpImm .eq test 0

/-! ## Boxing -/

def boxInt32 (value : Reg) : Emit Reg := do
  let wide ← Emit.zeroExtend value
  Emit.binaryImm .or wide (wordImm Value.numberTag)

def boxBoolean (value : Reg) : Emit Reg := do
  let wide ← Emit.zeroExtend value
  Emit.binaryImm .or wide (wordImm Value.falseWord)

/-- Boxes a double; a NaN that may not be canonical is replaced first. -/
def boxDouble (value : Reg) (couldBeImpureNaN : Bool) : Emit Reg := do
  let bits ← Emit.bitcastToInt value
  if couldBeImpureNaN then
    let nan ← Emit.fcmp .unordered value value
    let pureNaN ← Emit.word Double.pureNaN.bits
    let bits ← Emit.select nan pureNaN bits
    Emit.binaryImm .add bits (wordImm Value.doubleOffset)
  else Emit.binaryImm .add bits (wordImm Value.doubleOffset)

def unboxDouble (boxed : Reg) : Emit Reg := do
  let bits ← Emit.binaryImm .add boxed (wordImm (0 - Value.doubleOffset))
  Emit.bitcastToDouble bits

/-! ## Cells -/

/-- The tag of a cell. -/
def cellTag (cell : Reg) : Lower Reg := do Emit.load8 cell (← read).layout.tagOffset

def isObjectTag (tag : Reg) : Lower Reg := do Emit.icmpImm .uge tag (← read).layout.firstObjectTag

def isNotObjectTag (tag : Reg) : Lower Reg :=
  do Emit.icmpImm .ult tag (← read).layout.firstObjectTag

def hasCellType (cell : Reg) (cellType : CellType) : Lower Reg := do
  let tag ← cellTag cell
  Emit.icmpImm .eq tag cellType.tag

/-- A string cell is not interned: it is a rope, or its characters are not marked as interned. -/
def isNotIdentString (string : Reg) : Lower Reg := do
  let impl ← Emit.load64 string (← fieldOffset .stringImpl)
  let rope ← Emit.icmpImm .eq impl 0
  diamond .i32 rope .takenRare
    (Emit.int32 1)
    (do
      let flags ← Emit.load32 impl (← fieldOffset .stringImplFlags)
      let atomic ← Emit.binaryImm .and flags stringIsAtomic
      Emit.icmpImm .eq atomic 0)

/-- A value is a string that is not interned. -/
def isStringVar (value : Reg) : Lower Reg := do
  let cell ← isCell value
  diamond .i32 cell .normal
    (do
      let string ← hasCellType value .string
      diamond .i32 string .normal (isNotIdentString value) (Emit.int32 0))
    (Emit.int32 0)

end SpecJit.Lowering
