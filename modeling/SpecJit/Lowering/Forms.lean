import SpecJit.Lowering.Checks

/-!
# Nodes in machine forms

`asInt32`, `asDouble` and their like give the register that holds a used node in one form. They take
the form recorded for the node, convert from another one, or load a constant, and they check what
the kind of the use asks for.
-/

namespace SpecJit.Lowering

open Lir

/-- The node was never produced in a form that gives the one asked for. -/
def missingForm {α : Type} (e : Edge) (form : Form) : Lower α := crash (.missingForm e.node form)

/-! ## Boxed values -/

/-- Boxes an integer of 52 bits; the runtime does it unless the integer is known to have 32. -/
def boxStrictInt52 (id : NodeId) (strict : Reg) : Lower Reg := do
  if (← factOf id).isType .int32 then boxInt32 (← Emit.truncate strict)
  else callHelper .boxInt52 [strict]

/-- The node as an integer of 52 bits. -/
def asStrictInt52 (e : Edge) : Lower Reg := do
  let id := e.node
  match ← held? id .strictInt52 with
  | some r => return r
  | none =>
    match ← held? id .int52 with
    | some shifted =>
      let r ← Emit.binaryImm .sshr shifted Value.int52Shift
      record id .strictInt52 r
      return r
    | none =>
      match (← getNode id).op with
      | .int52Constant n => Emit.int64 n.toInt
      | .jsConstant (.int32 n) => Emit.int64 n.toInt
      | _ =>
        match ← held? id .int32 with
        | some narrow => Emit.signExtend narrow
        | none => missingForm e .strictInt52

/-- The node as an integer of 52 bits, shifted left. -/
def asInt52 (e : Edge) : Lower Reg := do
  match ← held? e.node .int52 with
  | some r => return r
  | none =>
    let strict ← asStrictInt52 e
    let r ← Emit.binaryImm .shl strict Value.int52Shift
    record e.node .int52 r
    return r

/-- Boxes the form in which a node is held. -/
def boxHeld (id : NodeId) : Lower Reg := do
  match ← held? id .int32 with
  | some r => boxInt32 r
  | none =>
    match ← held? id .boolean with
    | some r => boxBoolean r
    | none =>
      match ← held? id .double with
      | some r => boxDouble r (← factOf id).ty.couldBeImpureNaN
      | none =>
        if (← held? id .strictInt52).isSome || (← held? id .int52).isSome then
          boxStrictInt52 id (← asStrictInt52 { node := id })
        else crash (.nothingToBox id)

/-- The node as a boxed value, unchecked. -/
def boxedNode (id : NodeId) : Lower Reg := do
  match ← held? id .jsValue with
  | some r => return r
  | none =>
    let r ← match (← getNode id).op.constantWord? with
      | some w => liftM (Emit.word w)
      | none => boxHeld id
    record id .jsValue r
    return r

/-- The node as a boxed value. -/
def asValue (e : Edge) : Lower Reg := do
  let value ← boxedNode e.node
  checkUse e value
  return value

/-- The node as a cell; the kind of the use has to be one of cells. -/
def asCell (e : Edge) : Lower Reg := do
  if e.useKind.isCell then asValue e else crash (.notACell e.node e.useKind)

/-! ## Unboxed values -/

/-- The constant of a node is not of the kind that the code needs: leaves. -/
def badConstant : Lower Reg := do
  terminate .badType
  Emit.int32 0

/-- The node as an int32. -/
def asInt32 (e : Edge) : Lower Reg := do
  let id := e.node
  match ← held? id .int32 with
  | some r => return r
  | none =>
    match (← getNode id).op with
    | .jsConstant (.int32 n) => Emit.int32 n.toInt
    | .jsConstant _ | .doubleConstant _ | .int52Constant _ => badConstant
    | _ =>
      if (← held? id .jsValue).isNone then missingForm e .int32
      let boxed ← boxedNode id
      checkInt32 id boxed
      let r ← Emit.truncate boxed
      record id .int32 r
      return r

/-- The node as 0 or 1. -/
def asBoolean (e : Edge) : Lower Reg := do
  let id := e.node
  match ← held? id .boolean with
  | some r => return r
  | none =>
    match (← getNode id).op with
    | .jsConstant (.boolean b) => Emit.int32 (if b then 1 else 0)
    | .jsConstant _ => badConstant
    | _ =>
      if (← held? id .jsValue).isNone then missingForm e .boolean
      let boxed ← boxedNode id
      checkBoolean id boxed
      let r ← Emit.icmpImm .eq boxed (wordImm Value.trueWord)
      record id .boolean r
      return r

/-- 1 if a double is no integer of 52 bits, or is the negative zero. -/
def isNotInt52 (value : Reg) : Emit Reg := do
  let integer ← Emit.doubleToInt .i64 value
  let back ← Emit.intToDouble true integer
  let lossy ← Emit.fcmp .ne back value
  let biased ← Emit.binaryImm .add integer (-Value.int52Min)
  let outOfRange ← Emit.icmpImm .ugt biased (Value.int52Max - Value.int52Min)
  let zero ← Emit.icmpImm .eq integer 0
  let bits ← Emit.bitcastToInt value
  let negative ← Emit.icmpImm .slt bits 0
  let negativeZero ← Emit.binary .and zero negative
  let bad ← Emit.binary .or lossy outOfRange
  Emit.binary .or bad negativeZero

/-- The node as a double, unchecked. -/
def doubleOf (e : Edge) : Lower Reg := do
  match ← held? e.node .double with
  | some r => return r
  | none =>
    match (← getNode e.node).op with
    | .doubleConstant d => Emit.fconst d
    | .int52Constant n => Emit.fconst (Double.ofInt n.toInt)
    | .jsConstant v =>
      match v.asNumber? with
      | some d => Emit.fconst d
      | none => missingForm e .double
    | _ =>
      match ← held? e.node .int32 with
      | some narrow => Emit.intToDouble true narrow
      | none => missingForm e .double

/-- The node as a double. -/
def asDouble (e : Edge) : Lower Reg := do
  let value ← doubleOf e
  match e.useKind with
  | .doubleRepReal => typeCheck e.node .doubleReal .badType none (Emit.fcmp .unordered value value)
  | .doubleRepMachineInt => typeCheck e.node .int52AsDouble .badType none (isNotInt52 value)
  | _ => pure ()
  return value

/-- The node as an address of storage. -/
def asStorage (e : Edge) : Lower Reg := do
  match ← held? e.node .storage with
  | some r => return r
  | none => missingForm e .storage

/-- The node as an address, of storage or of a cell. -/
def asStorageOrCell (e : Edge) : Lower Reg := do
  if (← getNode e.node).result == .storage then asStorage e else asValue e

/-- The number in a boxed value, as a double. -/
def unboxNumber (id : NodeId) (boxed : Reg) : Lower Reg := do
  let ofInt32 : Emit Reg := do Emit.intToDouble true (← Emit.truncate boxed)
  let ty ← typeOfNode id
  if ty.isSubsetOf .int32 then ofInt32
  else if !ty.overlaps .int32 then unboxDouble boxed
  else
    let int ← isInt32 boxed
    diamond .f64 int .normal ofInt32 (unboxDouble boxed)

end SpecJit.Lowering
