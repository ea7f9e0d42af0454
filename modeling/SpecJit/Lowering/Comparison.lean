import SpecJit.Lowering.Arithmetic

/-!
# Code for comparisons, conditions and type queries

Operands of a kind that the machine can compare are compared in place; anything else is left to the
runtime.
-/

namespace SpecJit

open Lir

/-- The order tests of a comparison on integers and on doubles, and the helper for anything else. -/
def Comparison.tests : Comparison → IntCC × FloatCC × Helper
  | .less => (.slt, .lt, .compareLess)
  | .lessEq => (.sle, .le, .compareLessEq)
  | .greater => (.sgt, .gt, .compareGreater)
  | .greaterEq => (.sge, .ge, .compareGreaterEq)
  | .eq => (.eq, .eq, .compareEq)
  | .strictEq => (.eq, .eq, .compareStrictEq)

namespace Lowering

/-! ## Comparisons -/

/-- Both uses are of an acceptable kind. -/
def bothUses (accept : UseKind → Bool) (left right : Edge) : Bool :=
  accept left.useKind && accept right.useKind

/-- Compares two integers or two doubles, if the kinds of the uses say that they are. -/
def compareNumbers? (node : Node) (left right : Edge) (intCC : IntCC) (floatCC : FloatCC) :
    Lower (Option Reg) := do
  if bothUses UseKind.isInt32 left right then
    let (lhs, rhs) ← asBoth asInt32 node
    return some (← Emit.icmp intCC lhs rhs)
  else if bothUses (· == .int52Rep) left right then
    let (lhs, rhs) ← asBoth asStrictInt52 node
    return some (← Emit.icmp intCC lhs rhs)
  else if bothUses UseKind.isDoubleRep left right then
    let (lhs, rhs) ← asBoth asDouble node
    return some (← Emit.fcmp floatCC lhs rhs)
  else return none

/-- Two strings are equal. -/
def compareStrings (node : Node) : Lower Reg := do
  let (lhs, rhs) ← asBoth asValue node
  let same ← Emit.icmp .eq lhs rhs
  diamond .i32 same .normal (Emit.int32 1) do
    Emit.truncate (← callHelper .stringEq [lhs, rhs])

/-- Two interned strings are equal: they share their characters. -/
def compareIdents (node : Node) : Lower Reg := do
  let (lhs, rhs) ← asBoth asValue node
  let offset ← fieldOffset .stringImpl
  let lhs ← Emit.load64 lhs offset
  let rhs ← Emit.load64 rhs offset
  Emit.icmp .eq lhs rhs

/-- Two words are equal. -/
def compareWords (node : Node) : Lower Reg := do
  let (lhs, rhs) ← asBoth asValue node
  Emit.icmp .eq lhs rhs

/-- Equality of values that are no numbers. -/
def compareOtherwise (node : Node) (left right : Edge) (op : Comparison) (helper : Helper) :
    Lower Reg := do
  let isEquality := op == .eq || op == .strictEq
  if isEquality && bothUses UseKind.isBoolean left right then
    let (lhs, rhs) ← asBoth asBoolean node
    Emit.icmp .eq lhs rhs
  else if isEquality && bothUses (· == .stringIdent) left right then compareIdents node
  else if isEquality && bothUses UseKind.isString left right then compareStrings node
  else if isEquality && bothUses UseKind.isObject left right then compareWords node
  else if op == .strictEq && (left.useKind.comparesByWord || right.useKind.comparesByWord) then
    compareWords node
  else Emit.truncate (← callOnBoth helper node)

def lowerCompare (id : NodeId) (node : Node) (op : Comparison) : Lower Unit := do
  let left ← node.child 0
  let right ← node.child 1
  let (intCC, floatCC, helper) := op.tests
  match ← compareNumbers? node left right intCC floatCC with
  | some r => setResult id r
  | none => setResult id (← compareOtherwise node left right op helper)

/-! ## Conditions -/

/-- 1 if an object claims to be `undefined`. -/
def masquerades (cell : Reg) : Lower Reg := do
  let flags ← Emit.load8 cell (← fieldOffset .typeInfoFlags)
  Emit.binaryImm .and flags TypeInfoFlags.masqueradesAsUndefined.toNat

/-- 1 if a value passes `plain` or is an object that claims to be `undefined`. -/
def undefinedLike (id : NodeId) (value : Reg) (plain : Emit Reg) : Lower Reg := do
  if !(← typeOfNode id).overlaps .objectOther then plain
  else
    let cell ← isCell value
    diamond .i32 cell .normal (do Emit.icmpImm .ne (← masquerades value) 0) plain

/-- 1 if a value is loosely equal to `null`. -/
def lowerEqNull (id : NodeId) (node : Node) : Lower Unit := do
  let e ← node.child 0
  let value ← asValue e
  setResult id (← undefinedLike e.node value (isOther value))

/-- 1 if a double is neither zero nor NaN. -/
def doubleTruth (value : Reg) : Emit Reg := do
  let zero ← Emit.fconst (Double.zero false)
  let isZero ← Emit.fcmp .eq value zero
  let ordered ← Emit.fcmp .eq value value
  let nonZero ← negated isZero
  Emit.binary .and ordered nonZero

/-- 1 if a string is not empty; a rope never is. -/
def stringTruth (string : Reg) : Lower Reg := do
  let impl ← Emit.load64 string (← fieldOffset .stringImpl)
  let rope ← Emit.icmpImm .eq impl 0
  diamond .i32 rope .takenRare (Emit.int32 1) do
    let length ← Emit.load32 impl (← fieldOffset .stringImplLength)
    Emit.icmpImm .ne length 0

/-- 1 if a boxed value is true as a condition. -/
def valueTruth (id : NodeId) (value : Reg) : Lower Reg := do
  let ofBoolean : Emit Reg := Emit.icmpImm .eq value (wordImm Value.trueWord)
  let ofInt32 : Emit Reg := do Emit.icmpImm .ne (← Emit.truncate value) 0
  let ty ← typeOfNode id
  if ty.isSubsetOf .boolean then ofBoolean
  else if ty.isSubsetOf .int32 then ofInt32
  else if ty.isSubsetOf .other then Emit.int32 0
  else
    let boolean ← isBoolean value
    diamond .i32 boolean .normal ofBoolean do
      let int ← isInt32 value
      diamond .i32 int .normal ofInt32 do
        Emit.truncate (← callHelper .toBoolean [value])

/-- 1 if the used value is true as a condition. -/
def truth (e : Edge) : Lower Reg := do
  match e.useKind with
  | .boolean | .knownBoolean => asBoolean e
  | .int32 | .knownInt32 => Emit.icmpImm .ne (← asInt32 e) 0
  | .int52Rep => Emit.icmpImm .ne (← asStrictInt52 e) 0
  | .doubleRep | .doubleRepReal | .doubleRepMachineInt => doubleTruth (← asDouble e)
  | .object | .function | .finalObject =>
    let _ ← asValue e
    Emit.int32 1
  | .objectOrOther => isCell (← asValue e)
  | .string | .knownString | .stringIdent => stringTruth (← asValue e)
  | _ => valueTruth e.node (← asValue e)

def lowerLogicalNot (id : NodeId) (node : Node) : Lower Unit := do
  setResult id (← negated (← truth (← node.child 0)))

/-! ## Type queries -/

/-- 1 if a value is a cell that passes a query. -/
def cellQuery (value : Reg) (query : Lower Reg) : Lower Reg := do
  let cell ← isCell value
  diamond .i32 cell .normal query (Emit.int32 0)

/-- 1 if a cell is an object that is not callable and does not claim to be `undefined`. -/
def isPlainObject (cell : Reg) : Lower Reg := do
  let tag ← cellTag cell
  let object ← isObjectTag tag
  let callable ← Emit.icmpImm .eq tag CellType.function.tag
  let masquerade ← masquerades cell
  let notCallable ← negated callable
  let visible ← negated masquerade
  let result ← Emit.binary .and object notCallable
  Emit.binary .and result visible

def lowerTypeQuery (id : NodeId) (node : Node) (query : TypeQuery) : Lower Unit := do
  let e ← node.child 0
  let value ← asValue e
  match query with
  | .undefined =>
    setResult id (← undefinedLike e.node value (Emit.icmpImm .eq value (wordImm Value.undefined)))
  | .boolean => setResult id (← isBoolean value)
  | .number => setResult id (← isNumber value)
  | .string => setResult id (← cellQuery value (hasCellType value .string))
  | .function => setResult id (← cellQuery value (hasCellType value .function))
  | .arrayObject =>
    setResult id (← if e.useKind.isCell then hasCellType value .array
      else cellQuery value (hasCellType value .array))
  | .object => setResult id (← cellQuery value (isPlainObject value))
  | .objectOrNull =>
    let null ← Emit.icmpImm .eq value (wordImm Value.null)
    let object ← cellQuery value (isPlainObject value)
    setResult id (← Emit.binary .or null object)

def lowerTypeOf (id : NodeId) (node : Node) : Lower Unit := do
  setResult id (← callHelper .typeOf [← asValue (← node.child 0)])

end Lowering

end SpecJit
