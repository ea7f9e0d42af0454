import SpecJit.Graph.Basic
import SpecJit.Lir.Basic

/-!
# Machine forms of values
-/

namespace SpecJit

/-- A machine form in which the value of a node can be held. -/
inductive Form where
  | int32
  /-- an integer of 52 bits, shifted left -/
  | int52
  /-- an integer of 52 bits as it is -/
  | strictInt52
  | double
  | boolean
  /-- boxed -/
  | jsValue
  /-- an address that is no value of the program -/
  | storage
deriving DecidableEq, Hashable, Inhabited, Repr

namespace Form

def name : Form → String
  | .int32 => "Int32"
  | .int52 => "Int52"
  | .strictInt52 => "StrictInt52"
  | .double => "Double"
  | .boolean => "Boolean"
  | .jsValue => "JsValue"
  | .storage => "Storage"

end Form

namespace NodeResult

/-- The form in which a node yields its result. -/
def form? : NodeResult → Option Form
  | .int32 => some .int32
  | .int52 => some .strictInt52
  | .double => some .double
  | .boolean => some .boolean
  | .cell | .jsValue => some .jsValue
  | .storage => some .storage
  | .none => Option.none

/-- The machine type of a phi with such a result. -/
def machineType : NodeResult → Lir.Ty
  | .int32 | .boolean => .i32
  | .double => .f64
  | _ => .i64

end NodeResult

end SpecJit
