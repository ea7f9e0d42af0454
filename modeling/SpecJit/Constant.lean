import SpecJit.SpecType
import SpecJit.Structure

/-!
# Constants

A constant of the program is frozen: its value is known when the graph is built. Of a cell the
address and the structure are known, and of a string also its text.
-/

namespace SpecJit

/-- What is known of a string constant. -/
structure StringConstant where
  text : String
  /-- the address of the interned characters, for an interned string -/
  internedImpl : Option UInt64
deriving DecidableEq, Hashable, Inhabited, Repr

/-- A cell known when the graph is built. -/
structure CellConstant where
  address : UInt64
  structureId : StructureId
  string : Option StringConstant
deriving DecidableEq, Hashable, Inhabited, Repr

/-- A constant. -/
inductive FrozenValue where
  | empty
  | undefined
  | null
  | boolean (b : Bool)
  | int32 (n : Int32)
  | double (d : Double)
  | cell (c : CellConstant)
deriving DecidableEq, Hashable, Inhabited, Repr

instance : Encode StringConstant where
  encode s := .obj [("text", encode s.text), ("interned_impl", encode s.internedImpl)]

instance : Decode StringConstant where
  decode j := do
    let f ← Json.fields? ["text", "interned_impl"] j
    return { text := ← f.get "text", internedImpl := ← f.opt "interned_impl" }

instance : Encode CellConstant where
  encode c := .obj [("address", encode c.address), ("structure", encode c.structureId),
    ("string", encode c.string)]

instance : Decode CellConstant where
  decode j := do
    let f ← Json.fields? ["address", "structure", "string"] j
    return { address := ← f.get "address", structureId := ← f.get "structure",
             string := ← f.opt "string" }

namespace FrozenValue

instance : Encode FrozenValue where
  encode
    | .empty => .str "Empty"
    | .undefined => .str "Undefined"
    | .null => .str "Null"
    | .boolean b => Json.variant "Boolean" (encode b)
    | .int32 n => Json.variant "Int32" (encode n)
    | .double d => Json.variant "Double" (encode d)
    | .cell c => Json.variant "Cell" (encode c)

instance : Decode FrozenValue where
  decode j := do
    let t ← Json.tagged? j
    match t.name with
    | "Empty" => t.unit?; return .empty
    | "Undefined" => t.unit?; return .undefined
    | "Null" => t.unit?; return .null
    | "Boolean" => return .boolean (← t.one?)
    | "Int32" => return .int32 (← t.one?)
    | "Double" => return .double (← t.one?)
    | "Cell" => return .cell (← t.one?)
    | _ => none

/-- The number, if the constant is one. -/
def asNumber? : FrozenValue → Option Double
  | .int32 n => some (Double.ofInt n.toInt)
  | .double d => some d
  | _ => none

/-- The number as an int32, if it is one and not the negative zero. -/
def asInt32? : FrozenValue → Option Int32
  | .int32 n => some n
  | .double d =>
    let n := d.toInt32
    if (Double.ofInt n.toInt).numEq d && !d.isNegativeZero then some n else none
  | _ => none

def asBoolean? : FrozenValue → Option Bool
  | .boolean b => some b
  | _ => none

def asCell? : FrozenValue → Option CellConstant
  | .cell c => some c
  | _ => none

/-- The value as a condition, when it is known. -/
def truthy? : FrozenValue → Option Bool
  | .empty => none
  | .undefined | .null => some false
  | .boolean b => some b
  | .int32 n => some (n != 0)
  | .double d => some !(d.numEq (Double.zero false) || d.isNaN)
  | .cell c => c.string.map fun s => !s.text.isEmpty

/-- The kind of a cell constant. -/
def cellSpecType (registry : Registry) (c : CellConstant) : SpecType :=
  match c.string with
  | some s => if s.internedImpl.isSome then .stringIdent else .stringVar
  | none =>
    match registry.get? c.structureId with
    | none => .cell
    | some s => if s.cellType = .string then .stringVar else .ofCellType s.cellType

/-- The kind of a constant. -/
def specType (registry : Registry) : FrozenValue → SpecType
  | .empty => .empty
  | .undefined | .null => .other
  | .boolean _ => .boolean
  | .int32 n => .ofInt32 n
  | .double d => .ofDouble d
  | .cell c => cellSpecType registry c

end FrozenValue

end SpecJit
