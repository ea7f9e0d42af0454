import SpecJit.Op.Payload

/-!
# Exit tables

When a speculation fails, compiled code leaves through an exit. The table says for each exit why it
is taken and how to get the value of each source variable back: from a constant, from the frame,
from the values captured at the exit, or by building an object whose allocation was put off.
-/

namespace SpecJit

/-- Why an exit is taken. -/
inductive ExitKind where
  | badType
  | badCache
  | badConstantCache
  | badCell
  | badIndexingType
  | overflow
  | int52Overflow
  | negativeZero
  | outOfBounds
  | loadFromHole
  | uncountable
  | uncountableInvalidation
  | exoticObjectMode
  | varargsOverflow
  | inadequateCoverage
  | tdzFailure
deriving DecidableEq, Hashable, Inhabited, Repr

namespace ExitKind

def all : List ExitKind :=
  [.badType, .badCache, .badConstantCache, .badCell, .badIndexingType, .overflow, .int52Overflow,
    .negativeZero, .outOfBounds, .loadFromHole, .uncountable, .uncountableInvalidation,
    .exoticObjectMode, .varargsOverflow, .inadequateCoverage, .tdzFailure]

def name : ExitKind → String
  | .badType => "BadType"
  | .badCache => "BadCache"
  | .badConstantCache => "BadConstantCache"
  | .badCell => "BadCell"
  | .badIndexingType => "BadIndexingType"
  | .overflow => "Overflow"
  | .int52Overflow => "Int52Overflow"
  | .negativeZero => "NegativeZero"
  | .outOfBounds => "OutOfBounds"
  | .loadFromHole => "LoadFromHole"
  | .uncountable => "Uncountable"
  | .uncountableInvalidation => "UncountableInvalidation"
  | .exoticObjectMode => "ExoticObjectMode"
  | .varargsOverflow => "VarargsOverflow"
  | .inadequateCoverage => "InadequateCoverage"
  | .tdzFailure => "TdzFailure"

/-- The offending value is worth recording. -/
def recordsValueProfile : ExitKind → Bool
  | .badType | .badCache | .badConstantCache | .badCell => true
  | _ => false

instance : ToString ExitKind := ⟨name⟩
instance : Encode ExitKind := ⟨fun k => .str k.name⟩
instance : Decode ExitKind := ⟨Json.enum? all name⟩

end ExitKind

/-- Name of an exit. -/
structure ExitId where
  index : Nat
deriving DecidableEq, Hashable, Ord, Inhabited, Repr

instance : ToString ExitId := ⟨fun e => s!"exit{e.index}"⟩
instance : Encode ExitId := ⟨fun n => encode n.index⟩
instance : Decode ExitId := ⟨fun j => (decode j).map ExitId.mk⟩

/-- Name of an object that exits build. -/
structure MaterializationId where
  index : Nat
deriving DecidableEq, Hashable, Ord, Inhabited, Repr

instance : Encode MaterializationId := ⟨fun n => encode n.index⟩
instance : Decode MaterializationId := ⟨fun j => (decode j).map MaterializationId.mk⟩

/-- The machine form of a captured value. -/
inductive ValueFormat where
  | int32
  /-- shifted left -/
  | int52
  | strictInt52
  | double
  | boolean
  | cell
  | jsValue
deriving DecidableEq, Hashable, Inhabited, Repr

namespace ValueFormat

def all : List ValueFormat := [.int32, .int52, .strictInt52, .double, .boolean, .cell, .jsValue]

def name : ValueFormat → String
  | .int32 => "Int32"
  | .int52 => "Int52"
  | .strictInt52 => "StrictInt52"
  | .double => "Double"
  | .boolean => "Boolean"
  | .cell => "Cell"
  | .jsValue => "JsValue"

/-- The form of a flushed slot that holds a value. -/
def ofFlush? : FlushFormat → Option ValueFormat
  | .int32 => some .int32
  | .int52 => some .int52
  | .double => some .double
  | .boolean => some .boolean
  | .cell => some .cell
  | .jsValue => some .jsValue
  | .dead | .conflicting => none

instance : Encode ValueFormat := ⟨fun f => .str f.name⟩
instance : Decode ValueFormat := ⟨Json.enum? all name⟩

end ValueFormat

/-- Arithmetic that an exit redoes. -/
inductive RecoveryOp where
  | add
  | sub
deriving DecidableEq, Hashable, Inhabited, Repr

namespace RecoveryOp

def all : List RecoveryOp := [.add, .sub]

def name : RecoveryOp → String
  | .add => "Add"
  | .sub => "Sub"

instance : Encode RecoveryOp := ⟨fun o => .str o.name⟩
instance : Decode RecoveryOp := ⟨Json.enum? all name⟩

end RecoveryOp

/-- How an exit gets the value of a variable back. -/
inductive ExitValue where
  /-- nobody reads it -/
  | dead
  | constant (w : UInt64)
  /-- in a slot of the frame -/
  | inStack (slot : Operand) (format : ValueFormat)
  /-- among the captured values -/
  | argument (index : Nat) (format : ValueFormat)
  /-- computed from two captured values -/
  | recovery (op : RecoveryOp) (left right : Nat) (format : ValueFormat)
  | materialize (id : MaterializationId)
deriving DecidableEq, Hashable, Inhabited, Repr

/-- A word in hexadecimal digits. -/
def hexText (w : UInt64) : String := "0x" ++ String.ofList (Nat.toDigits 16 w.toNat)

namespace ExitValue

def isDead : ExitValue → Bool
  | .dead => true
  | _ => false

/-- The captured values it reads. -/
def argumentIndices : ExitValue → List Nat
  | .argument index _ => [index]
  | .recovery _ left right _ => [left, right]
  | _ => []

/-- The object it needs. -/
def materialization? : ExitValue → Option MaterializationId
  | .materialize id => some id
  | _ => none

instance : ToString ExitValue where
  toString
    | .dead => "dead"
    | .constant w => s!"const({hexText w})"
    | .inStack slot format => s!"stack({slot}, {format.name})"
    | .argument index format => s!"arg({index}, {format.name})"
    | .recovery op left right format => s!"recover({op.name}, {left}, {right}, {format.name})"
    | .materialize id => s!"materialize({id.index})"

instance : Encode ExitValue where
  encode
    | .dead => .str "Dead"
    | .constant w => Json.variant "Constant" (encode w)
    | .inStack slot format =>
      Json.variant "InJsStack" (.obj [("slot", encode slot), ("format", encode format)])
    | .argument index format =>
      Json.variant "Argument" (.obj [("index", encode index), ("format", encode format)])
    | .recovery op left right format =>
      Json.variant "Recovery" (.obj [("op", encode op), ("left", encode left),
        ("right", encode right),
        ("format", encode format)])
    | .materialize id => Json.variant "Materialize" (encode id)

instance : Decode ExitValue where
  decode j := do
    let t ← Json.tagged? j
    match t.name with
    | "Dead" => t.unit?; return .dead
    | "Constant" => return .constant (← t.one?)
    | "InJsStack" =>
      let f ← Json.fields? ["slot", "format"] (← t.payload)
      return .inStack (← f.get "slot") (← f.get "format")
    | "Argument" =>
      let f ← Json.fields? ["index", "format"] (← t.payload)
      return .argument (← f.get "index") (← f.get "format")
    | "Recovery" =>
      let f ← Json.fields? ["op", "left", "right", "format"] (← t.payload)
      return .recovery (← f.get "op") (← f.get "left") (← f.get "right") (← f.get "format")
    | "Materialize" => return .materialize (← t.one?)
    | _ => none

end ExitValue

/-- Objects that exits build. -/
inductive MaterializationKind where
  | newObject
  | newFunction
  | createActivation
  | directArguments
  | clonedArguments
deriving DecidableEq, Hashable, Inhabited, Repr

namespace MaterializationKind

def all : List MaterializationKind :=
  [.newObject, .newFunction, .createActivation, .directArguments, .clonedArguments]

def name : MaterializationKind → String
  | .newObject => "NewObject"
  | .newFunction => "NewFunction"
  | .createActivation => "CreateActivation"
  | .directArguments => "DirectArguments"
  | .clonedArguments => "ClonedArguments"

instance : Encode MaterializationKind := ⟨fun k => .str k.name⟩
instance : Decode MaterializationKind := ⟨Json.enum? all name⟩

end MaterializationKind

/-- An object that exits build, with its fields. -/
structure Materialization where
  kind : MaterializationKind
  origin : CodeOrigin
  properties : List (PromotedLocation × ExitValue) := []
deriving DecidableEq, Inhabited, Repr

namespace Materialization

def property? (m : Materialization) (location : PromotedLocation) : Option ExitValue :=
  m.properties.lookup location

/-- The objects among its fields. -/
def dependencies (m : Materialization) : List MaterializationId :=
  m.properties.filterMap fun p => p.2.materialization?

instance : Encode Materialization where
  encode m :=
    .obj [("kind", encode m.kind), ("origin", encode m.origin), ("properties", encode m.properties)]

instance : Decode Materialization where
  decode j := do
    let f ← Json.fields? ["kind", "origin", "properties"] j
    return { kind := ← f.get "kind", origin := ← f.get "origin",
             properties := ← f.get "properties" }

end Materialization

/-- An exit. -/
structure OsrExit where
  kind : ExitKind
  origin : CodeOrigin
  /-- the captured value to record in the profile -/
  profileValue : Option Nat
  values : Operands ExitValue
deriving DecidableEq, Inhabited, Repr

namespace OsrExit

def value (e : OsrExit) (v : Operand) : ExitValue := (e.values.get? v).getD .dead

/-- The objects that variables hold. -/
def materializationRoots (e : OsrExit) : List MaterializationId :=
  e.values.toList.filterMap fun p => p.2.materialization?

instance : Encode OsrExit where
  encode e := .obj [("kind", encode e.kind), ("origin", encode e.origin),
    ("profile_value", encode e.profileValue), ("values", encode e.values)]

instance : Decode OsrExit where
  decode j := do
    let f ← Json.fields? ["kind", "origin", "profile_value", "values"] j
    return {
      kind := ← f.get "kind"
      origin := ← f.get "origin"
      profileValue := ← f.opt "profile_value"
      values := ← f.get "values" }

end OsrExit

/-- The exits of a function, and the objects they build. -/
structure ExitTable where
  exits : Array OsrExit := #[]
  materializations : Array Materialization := #[]
deriving DecidableEq, Inhabited, Repr

namespace ExitTable

variable (t : ExitTable)

def pushExit (e : OsrExit) : ExitId × ExitTable :=
  (⟨t.exits.size⟩, { t with exits := t.exits.push e })

def pushMaterialization (m : Materialization) : MaterializationId × ExitTable :=
  (⟨t.materializations.size⟩, { t with materializations := t.materializations.push m })

def exit? (id : ExitId) : Option OsrExit := t.exits[id.index]?

def materialization? (id : MaterializationId) : Option Materialization :=
  t.materializations[id.index]?

/-- Adds an object and what it needs to the objects found so far; ids without a record are skipped.
The first argument bounds the depth. -/
def collect : Nat → List MaterializationId → MaterializationId → List MaterializationId
  | 0, found, _ => found
  | depth + 1, found, id =>
    match t.materialization? id with
    | none => found
    | some m =>
      if found.contains id then found else m.dependencies.foldl (collect depth) (id :: found)

/-- The objects that an exit builds. -/
def needed (e : OsrExit) : List MaterializationId :=
  e.materializationRoots.foldl (t.collect t.materializations.size) []

/-- The captured values that an exit reads. -/
def capturedIndices (e : OsrExit) : List Nat :=
  e.values.toList.flatMap (fun p => p.2.argumentIndices) ++ e.profileValue.toList
    ++ (t.needed e).flatMap fun id =>
      match t.materialization? id with
      | some m => m.properties.flatMap fun p => p.2.argumentIndices
      | none => []

/-- The number of captured values that an exit needs. -/
def stackmapLength? (id : ExitId) : Option Nat :=
  (t.exit? id).map fun e => ((t.capturedIndices e).map (· + 1)).foldl max 0

instance : Encode ExitTable where
  encode t := .obj [("exits", encode t.exits), ("materializations", encode t.materializations)]

instance : Decode ExitTable where
  decode j := do
    let f ← Json.fields? ["exits", "materializations"] j
    return { exits := ← f.get "exits", materializations := ← f.get "materializations" }

end ExitTable

end SpecJit
