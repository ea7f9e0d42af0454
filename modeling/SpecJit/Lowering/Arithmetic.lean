import SpecJit.Lowering.Conversion

/-!
# Code for arithmetic

Integer arithmetic leaves when the result does not fit or is the negative zero, as far as its mode
asks for that. Integers of 52 bits are kept shifted left, so that an overflow of theirs is one of
the machine word.
-/

namespace SpecJit

open Lir

/-- The instruction of a bit operation. -/
def BitOp.instruction : BitOp → BinaryOp
  | .and => .and
  | .or => .or
  | .xor => .xor
  | .leftShift => .shl
  | .rightShift => .sshr
  | .unsignedRightShift => .ushr

namespace Lowering

/-- The node has a result that its operation cannot have. -/
def unexpectedResult {α : Type} (node : Node) : Lower α := crash (.resultForm node.op node.result)

/-- Both uses in one form. -/
def asBoth (form : Edge → Lower Reg) (node : Node) : Lower (Reg × Reg) := do
  let lhs ← form (← node.child 0)
  let rhs ← form (← node.child 1)
  return (lhs, rhs)

/-- Arithmetic on two doubles. -/
def lowerDoubleArith (id : NodeId) (node : Node) (op : FBinaryOp) : Lower Unit := do
  let (lhs, rhs) ← asBoth asDouble node
  setResult id (← Emit.fbinary op lhs rhs)

/-- Leaves when an operation overflows, if its mode asks for that. -/
def checkOverflow (mode : ArithMode) (kind : ExitKind) (op : OverflowOp) (lhs rhs : Reg) :
    Lower Unit := do
  if mode.checksOverflow then
    speculate kind none (← Emit.overflows op lhs rhs)

/-- Leaves when both tests hold, if the mode asks for a check of the negative zero. -/
def checkNegativeZero (mode : ArithMode) (isZero isNegative : Emit Reg) : Lower Unit := do
  if mode.checksNegativeZero then
    let zero ← isZero
    let negative ← isNegative
    speculate .negativeZero none (← Emit.binary .and zero negative)

/-- 1 if one of two integers is negative. -/
def eitherNegative (lhs rhs : Reg) : Emit Reg := do
  Emit.icmpImm .slt (← Emit.binary .or lhs rhs) 0

/-- Addition and subtraction. -/
def lowerAddSub (id : NodeId) (node : Node) (mode : ArithMode) (op : BinaryOp)
    (overflow : OverflowOp) (double : FBinaryOp) : Lower Unit := do
  match node.result with
  | .int32 =>
    let (lhs, rhs) ← asBoth asInt32 node
    if (← read).exitOnly.contains id then return
    checkOverflow mode .overflow overflow lhs rhs
    setResult id (← Emit.binary op lhs rhs)
  | .int52 =>
    let (lhs, rhs) ← asBoth asInt52 node
    checkOverflow mode .int52Overflow overflow lhs rhs
    record id .int52 (← Emit.binary op lhs rhs)
  | .double => lowerDoubleArith id node double
  | _ => unexpectedResult node

/-- A product of two integers, with its checks. -/
def multiply (mode : ArithMode) (kind : ExitKind) (lhs rhs : Reg) : Lower Reg := do
  checkOverflow mode kind .mul lhs rhs
  let result ← Emit.binary .mul lhs rhs
  checkNegativeZero mode (Emit.icmpImm .eq result 0) (eitherNegative lhs rhs)
  return result

def lowerMul (id : NodeId) (node : Node) (mode : ArithMode) : Lower Unit := do
  match node.result with
  | .int32 =>
    let (lhs, rhs) ← asBoth asInt32 node
    setResult id (← multiply mode .overflow lhs rhs)
  | .int52 =>
    let lhs ← asInt52 (← node.child 0)
    let rhs ← asStrictInt52 (← node.child 1)
    record id .int52 (← multiply mode .int52Overflow lhs rhs)
  | .double => lowerDoubleArith id node .mul
  | _ => unexpectedResult node

/-- Leaves when a quotient of int32 values does not exist or is not an int32. -/
def checkDivision (mode : ArithMode) (numerator denominator : Reg) : Lower Unit := do
  if mode.checksOverflow then
    let zero ← Emit.icmpImm .eq denominator 0
    let min ← Emit.icmpImm .eq numerator (-0x80000000)
    let minusOne ← Emit.icmpImm .eq denominator (-1)
    let minByMinusOne ← Emit.binary .and min minusOne
    speculate .overflow none (← Emit.binary .or zero minByMinusOne)

def lowerDiv (id : NodeId) (node : Node) (mode : ArithMode) : Lower Unit := do
  match node.result with
  | .int32 =>
    let (numerator, denominator) ← asBoth asInt32 node
    checkDivision mode numerator denominator
    checkNegativeZero mode (Emit.icmpImm .eq numerator 0) (Emit.icmpImm .slt denominator 0)
    let quotient ← Emit.binary .sdiv numerator denominator
    if mode.checksOverflow then
      let product ← Emit.binary .mul quotient denominator
      speculate .overflow none (← Emit.icmp .ne product numerator)
    setResult id quotient
  | .double => lowerDoubleArith id node .div
  | _ => unexpectedResult node

/-- A call of a helper on the bits of doubles that returns the bits of one. -/
def callOnDoubles (helper : Helper) (args : List Reg) : Lower Reg := do
  let bits ← args.mapM fun r => liftM (Emit.bitcastToInt r)
  Emit.bitcastToDouble (← callHelper helper bits)

def lowerMod (id : NodeId) (node : Node) (mode : ArithMode) : Lower Unit := do
  match node.result with
  | .int32 =>
    let (numerator, denominator) ← asBoth asInt32 node
    checkDivision mode numerator denominator
    let remainder ← Emit.binary .srem numerator denominator
    checkNegativeZero mode (Emit.icmpImm .eq remainder 0) (Emit.icmpImm .slt numerator 0)
    setResult id remainder
  | .double =>
    let (lhs, rhs) ← asBoth asDouble node
    setResult id (← callOnDoubles .fmod [lhs, rhs])
  | _ => unexpectedResult node

/-- Leaves at 0, whose negation is the negative zero, if the mode asks for that. -/
def checkNegatedZero (mode : ArithMode) (value : Reg) : Lower Unit := do
  if mode.checksNegativeZero then
    speculate .negativeZero none (← Emit.icmpImm .eq value 0)

def lowerNegate (id : NodeId) (node : Node) (mode : ArithMode) : Lower Unit := do
  match node.result with
  | .int32 =>
    let value ← asInt32 (← node.child 0)
    if mode.checksOverflow then
      speculate .overflow none (← Emit.icmpImm .eq value (-0x80000000))
    checkNegatedZero mode value
    setResult id (← Emit.unary .neg value)
  | .int52 =>
    let value ← asInt52 (← node.child 0)
    if mode.checksOverflow then
      let zero ← Emit.int64 0
      speculate .int52Overflow none (← Emit.overflows .sub zero value)
    checkNegatedZero mode value
    record id .int52 (← Emit.unary .neg value)
  | .double => setResult id (← Emit.funary .neg (← asDouble (← node.child 0)))
  | _ => unexpectedResult node

def lowerAbs (id : NodeId) (node : Node) (mode : ArithMode) : Lower Unit := do
  match node.result with
  | .int32 =>
    let value ← asInt32 (← node.child 0)
    let sign ← Emit.binaryImm .sshr value 31
    let flipped ← Emit.binary .xor value sign
    let result ← Emit.binary .sub flipped sign
    if mode.checksOverflow then
      speculate .overflow none (← Emit.icmpImm .slt result 0)
    setResult id result
  | .double => setResult id (← Emit.funary .abs (← asDouble (← node.child 0)))
  | _ => unexpectedResult node

/-- Arithmetic with an overflow mode. -/
def lowerArith (id : NodeId) (node : Node) (op : ArithOp) (mode : ArithMode) : Lower Unit :=
  match op with
  | .add => lowerAddSub id node mode .add .add .add
  | .sub => lowerAddSub id node mode .sub .sub .sub
  | .mul => lowerMul id node mode
  | .div => lowerDiv id node mode
  | .mod => lowerMod id node mode
  | .negate => lowerNegate id node mode
  | .abs => lowerAbs id node mode

/-- The smaller or larger of two numbers. -/
def lowerMinMax (id : NodeId) (node : Node) (pickLeft : IntCC) (double : FBinaryOp) :
    Lower Unit := do
  match node.result with
  | .int32 =>
    let (lhs, rhs) ← asBoth asInt32 node
    let left ← Emit.icmp pickLeft lhs rhs
    setResult id (← Emit.select left lhs rhs)
  | .double => lowerDoubleArith id node double
  | _ => unexpectedResult node

/-- A function of one double that the machine has. -/
def lowerDoubleUnary (id : NodeId) (node : Node) (op : FUnaryOp) : Lower Unit := do
  setResult id (← Emit.funary op (← asDouble (← node.child 0)))

/-- A function of one double that the runtime has. -/
def lowerMathCall (id : NodeId) (node : Node) (helper : Helper) : Lower Unit := do
  setResult id (← callOnDoubles helper [← asDouble (← node.child 0)])

def lowerPow (id : NodeId) (node : Node) : Lower Unit := do
  let (base, exponent) ← asBoth asDouble node
  setResult id (← callOnDoubles .pow [base, exponent])

/-- Rounds to the nearest integer, halves up. -/
def lowerRound (id : NodeId) (node : Node) (mode : RoundingMode) : Lower Unit := do
  let value ← asDouble (← node.child 0)
  let ceiling ← Emit.funary .ceil value
  let half ← Emit.fconst Double.half
  let one ← Emit.fconst (Double.ofInt 1)
  let threshold ← Emit.fbinary .sub ceiling half
  let tooHigh ← Emit.fcmp .gt threshold value
  let lowered ← Emit.fbinary .sub ceiling one
  let rounded ← Emit.select tooHigh lowered ceiling
  match mode with
  | .double => setResult id rounded
  | .int32 => setResult id (← doubleToInt32Exact rounded false)
  | .int32WithNegativeZeroCheck => setResult id (← doubleToInt32Exact rounded true)

def lowerClz32 (id : NodeId) (node : Node) : Lower Unit := do
  setResult id (← Emit.unary .clz (← asInt32 (← node.child 0)))

def lowerBit (id : NodeId) (node : Node) (op : BitOp) : Lower Unit := do
  let (lhs, rhs) ← asBoth asInt32 node
  setResult id (← Emit.binary op.instruction lhs rhs)

/-- A call of a helper on two boxed values. -/
def callOnBoth (helper : Helper) (node : Node) : Lower Reg := do
  let (lhs, rhs) ← asBoth asValue node
  callHelper helper [lhs, rhs]

def lowerValueAdd (id : NodeId) (node : Node) : Lower Unit := do
  setResult id (← callOnBoth .valueAdd node)

end Lowering

end SpecJit
