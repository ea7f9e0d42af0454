import SpecJit.Lowering.Comparison
import SpecJit.Lowering.Property

/-!
# Code for conversions of objects and strings
-/

namespace SpecJit.Lowering

open Lir

/-- The structures known of a value belong to objects that are their own `this`. -/
def keepsThis (g : Graph) (known : AbstractValue) : Bool :=
  known.ty.isSubsetOf .object &&
    match known.structures with
    | .top => false
    | .known set => set.ids.all fun id =>
      (g.structures.get? id).any fun s => !s.flags.contains TypeInfoFlags.overridesToThis

def lowerToThis (id : NodeId) (node : Node) : Lower Unit := do
  let e ← node.child 0
  let value ← asValue e
  if keepsThis (← read).graph (← factOf e.node) then setResult id value
  else
    let cell ← isCell value
    let fast ← diamond .i32 cell .normal
      (do
        let tag ← cellTag value
        let object ← isObjectTag tag
        let flags ← loadField8 value .typeInfoFlags
        let overrides ← Emit.binaryImm .and flags TypeInfoFlags.overridesToThis.toNat
        let plain ← negated overrides
        Emit.binary .and object plain)
      (Emit.int32 0)
    setResult id (← diamond .i64 fast .normal (pure value) (callHelper .toThis [value]))

def lowerToPrimitive (id : NodeId) (node : Node) : Lower Unit := do
  let e ← node.child 0
  let value ← asValue e
  if !(← typeOfNode e.node).overlaps .object then setResult id value
  else
    let object ← cellQuery value do isObjectTag (← cellTag value)
    setResult id (← diamond .i64 object .normal (callHelper .toPrimitive [value]) (pure value))

def lowerToString (id : NodeId) (node : Node) : Lower Unit := do
  let e ← node.child 0
  let value ← asValue e
  if (← typeOfNode e.node).isSubsetOf .string then setResult id value
  else
    let string ← if e.useKind.isCell then hasCellType value .string
      else cellQuery value (hasCellType value .string)
    setResult id (← diamond .i64 string .normal (pure value) (callHelper .convertToString [value]))

/-- Joins two or three strings. -/
def lowerMakeRope (id : NodeId) (node : Node) : Lower Unit := do
  let (first, second) ← asBoth asValue node
  let third ← match node.children[2]? with
    | some e => asValue e
    | none => liftM (Emit.word Value.empty)
  setResult id (← callHelper .makeRope [first, second, third])

def lowerInstanceOf (id : NodeId) (node : Node) : Lower Unit := do
  let value ← asValue (← node.child 0)
  let prototype ← asCell (← node.child 1)
  setResult id (← Emit.truncate (← callHelper .instanceOf [value, prototype]))

end SpecJit.Lowering
