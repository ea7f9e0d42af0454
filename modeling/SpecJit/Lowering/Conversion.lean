import SpecJit.Lowering.Forms

/-!
# Code for conversions

Nodes that convert between machine forms, and the two ways of turning a double into an int32: the
exact one leaves when the double is no int32, the wrapping one takes the integer part modulo `2^32`.
-/

namespace SpecJit.Lowering

open Lir

/-- A node that stands for its use. -/
def lowerIdentity (id : NodeId) (node : Node) : Lower Unit := do
  let e ← node.child 0
  match node.result with
  | .int32 => setResult id (← asInt32 e)
  | .int52 => setResult id (← asStrictInt52 e)
  | .double => setResult id (← asDouble e)
  | .boolean => setResult id (← asBoolean e)
  | .storage => setResult id (← asStorage e)
  | .cell | .jsValue => setResult id (← asValue e)
  | .none => return ()

/-- Does the checks of a use without needing the value; a node that yields nothing is passed over.
-/
def dischargeUse (e : Edge) : Lower Unit := do
  if e.useKind == .untyped || e.useKind.isProven then return
  if !(← isRecorded e.node) && (← getNode e.node).op.constantWord?.isNone then return
  match e.useKind with
  | .int52Rep => let _ ← asStrictInt52 e
  | .doubleRep | .doubleRepReal | .doubleRepMachineInt => let _ ← asDouble e
  | .int32 => if (← held? e.node .int32).isNone then let _ ← asValue e
  | .boolean => if (← held? e.node .boolean).isNone then let _ ← asValue e
  | _ => let _ ← asValue e

/-- Does the checks of all uses. -/
def dischargeUses (node : Node) : Lower Unit := node.children.forM dischargeUse

/-- The number that a value other than a cell converts to, as a double. -/
def notCellToDouble (id : NodeId) (boxed : Reg) : Lower Reg := do
  if (← factOf id).isType .bytecodeNumber then unboxNumber id boxed
  else
    let number ← isNumber boxed
    diamond .f64 number .normal (unboxNumber id boxed) do
      let isTrue ← Emit.icmpImm .eq boxed (wordImm Value.trueWord)
      let isFalse ← Emit.icmpImm .eq boxed (wordImm Value.falseWord)
      let isNull ← Emit.icmpImm .eq boxed (wordImm Value.null)
      let zeroish ← Emit.binary .or isFalse isNull
      let one ← Emit.fconst (Double.ofInt 1)
      let zero ← Emit.fconst (Double.zero false)
      let nan ← Emit.fconst Double.pureNaN
      let otherwise ← Emit.select zeroish zero nan
      Emit.select isTrue one otherwise

def lowerDoubleRep (id : NodeId) (node : Node) : Lower Unit := do
  let e ← node.child 0
  let fromInt32 (narrow : Reg) : Lower Reg := Emit.intToDouble true narrow
  match e.useKind with
  | .int52Rep => setResult id (← fromInt32 (← asStrictInt52 e))
  | .int32 | .knownInt32 =>
    if (← held? e.node .int32).isSome then setResult id (← fromInt32 (← asInt32 e))
    else setResult id (← unboxNumber e.node (← asValue e))
  | .notCell => setResult id (← notCellToDouble e.node (← asValue e))
  | .number | .realNumber => setResult id (← unboxNumber e.node (← asValue e))
  | useKind => crash (.unreadableUse "DoubleRep through" useKind)

def lowerValueRep (id : NodeId) (node : Node) : Lower Unit := do
  let e ← node.child 0
  match e.useKind with
  | .doubleRep | .doubleRepReal | .doubleRepMachineInt =>
    let double ← asDouble e
    setResult id (← boxDouble double (← factOf e.node).ty.couldBeImpureNaN)
  | .int52Rep => setResult id (← boxStrictInt52 e.node (← asStrictInt52 e))
  | .int32 | .knownInt32 => setResult id (← boxInt32 (← asInt32 e))
  | .boolean | .knownBoolean => setResult id (← boxBoolean (← asBoolean e))
  | useKind => crash (.unreadableUse "ValueRep through" useKind)

/-- The integer in a boxed number; leaves if the number is no integer of 52 bits. -/
def boxedToInt52 (id : NodeId) (boxed : Reg) : Lower Reg := do
  let ofInt32 : Emit Reg := do Emit.signExtend (← Emit.truncate boxed)
  if (← factOf id).isType .int32 then ofInt32
  else
    let int ← isInt32 boxed
    diamond .i64 int .normal ofInt32 do
      let double ← unboxDouble boxed
      let bits ← Emit.bitcastToInt double
      let converted ← callHelper .convertDoubleToInt52 [bits]
      let notInt52 ← Emit.icmpImm .eq converted (wordImm Helper.notInt52)
      speculate .badType (some boxed) notInt52
      return converted

def lowerInt52Rep (id : NodeId) (node : Node) : Lower Unit := do
  let e ← node.child 0
  match e.useKind with
  | .int32 | .knownInt32 => setResult id (← Emit.signExtend (← asInt32 e))
  | .doubleRepMachineInt => setResult id (← Emit.doubleToInt .i64 (← asDouble e))
  | .machineInt => setResult id (← boxedToInt52 e.node (← asValue e))
  | useKind => crash (.unreadableUse "Int52Rep through" useKind)

def lowerBooleanToNumber (id : NodeId) (node : Node) : Lower Unit := do
  let e ← node.child 0
  match e.useKind with
  | .boolean | .knownBoolean =>
    let flag ← asBoolean e
    setResult id (← if node.result == .int32 then pure flag else liftM (boxInt32 flag))
  | _ =>
    let boxed ← asValue e
    let boolean ← isBoolean boxed
    let bit ← Emit.binaryImm .and boxed 1
    let number ← Emit.binaryImm .or bit (wordImm Value.numberTag)
    setResult id (← Emit.select boolean number boxed)

/-- The int32 equal to a double; leaves if there is none, or at the negative zero if that is asked.
-/
def doubleToInt32Exact (double : Reg) (checkNegativeZero : Bool) : Lower Reg := do
  let narrow ← Emit.doubleToInt .i32 double
  let back ← Emit.intToDouble true narrow
  let lossy ← Emit.fcmp .ne back double
  speculate .overflow none lossy
  if checkNegativeZero then
    let zero ← Emit.icmpImm .eq narrow 0
    let bits ← Emit.bitcastToInt double
    let sign ← Emit.icmpImm .slt bits 0
    let negativeZero ← Emit.binary .and zero sign
    speculate .negativeZero none negativeZero
  return narrow

def lowerDoubleAsInt32 (id : NodeId) (node : Node) (mode : ArithMode) : Lower Unit := do
  let double ← asDouble (← node.child 0)
  setResult id (← doubleToInt32Exact double mode.checksNegativeZero)

/-- The integer part of a double modulo `2^32`. -/
def doubleToInt32Wrapping (double : Reg) : Lower Reg := do
  let low ← Emit.fconst (Double.ofInt (-0x80000000))
  let high ← Emit.fconst (Double.ofInt 0x80000000)
  let above ← Emit.fcmp .ge double low
  let below ← Emit.fcmp .lt double high
  let inRange ← Emit.binary .and above below
  diamond .i32 inRange .notTakenRare
    (Emit.doubleToInt .i32 double)
    (do
      let bits ← Emit.bitcastToInt double
      Emit.truncate (← callHelper .doubleToInt32 [bits]))

/-- The int32 that a value other than a cell converts to. -/
def notCellToInt32 (id : NodeId) (boxed : Reg) : Lower Reg := do
  if (← factOf id).isType .int32 then Emit.truncate boxed
  else
    let int ← isInt32 boxed
    diamond .i32 int .normal (Emit.truncate boxed) do
      doubleToInt32Wrapping (← notCellToDouble id boxed)

def lowerValueToInt32 (id : NodeId) (node : Node) : Lower Unit := do
  let e ← node.child 0
  match e.useKind with
  | .int32 | .knownInt32 => setResult id (← asInt32 e)
  | .int52Rep => setResult id (← Emit.truncate (← asStrictInt52 e))
  | .doubleRep | .doubleRepReal | .doubleRepMachineInt =>
    setResult id (← doubleToInt32Wrapping (← asDouble e))
  | .number | .notCell => setResult id (← notCellToInt32 e.node (← asValue e))
  | _ => setResult id (← Emit.truncate (← callHelper .toInt32 [← asValue e]))

def lowerUInt32ToNumber (id : NodeId) (node : Node) (mode : ArithMode) : Lower Unit := do
  let narrow ← asInt32 (← node.child 0)
  match node.result with
  | .int32 =>
    if mode.checksOverflow then
      speculate .overflow none (← Emit.icmpImm .slt narrow 0)
    setResult id narrow
  | .int52 => setResult id (← Emit.zeroExtend narrow)
  | .double => setResult id (← Emit.intToDouble false narrow)
  | _ => setResult id (← boxDouble (← Emit.intToDouble false narrow) false)

end SpecJit.Lowering
