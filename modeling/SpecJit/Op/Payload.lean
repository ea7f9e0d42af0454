import SpecJit.Constant
import SpecJit.Text.Quoted
import SpecJit.UseKind

/-!
# Payloads of the operations

What an operation carries besides its uses: modes, accesses, cases and targets. Each type stands
with its interchange form.
-/

namespace SpecJit

/-! ## Arithmetic -/

/-- How integer arithmetic treats results it cannot represent. -/
inductive ArithMode where
  /-- they cannot occur, or wrap unnoticed -/
  | unchecked
  | checkOverflow
  | checkOverflowAndNegativeZero
  /-- the caller wants them wrapped -/
  | doOverflow
deriving DecidableEq, Hashable, Inhabited, Repr

namespace ArithMode

def all : List ArithMode := [.unchecked, .checkOverflow, .checkOverflowAndNegativeZero, .doOverflow]

def name : ArithMode → String
  | .unchecked => "Unchecked"
  | .checkOverflow => "CheckOverflow"
  | .checkOverflowAndNegativeZero => "CheckOverflowAndNegativeZero"
  | .doOverflow => "DoOverflow"

def checksOverflow : ArithMode → Bool
  | .checkOverflow | .checkOverflowAndNegativeZero => true
  | _ => false

def checksNegativeZero : ArithMode → Bool
  | .checkOverflowAndNegativeZero => true
  | _ => false

instance : Encode ArithMode := ⟨fun m => .str m.name⟩
instance : Decode ArithMode := ⟨Json.enum? all name⟩

end ArithMode

/-- The form of a rounded result. -/
inductive RoundingMode where
  | int32
  | int32WithNegativeZeroCheck
  | double
deriving DecidableEq, Hashable, Inhabited, Repr

namespace RoundingMode

def all : List RoundingMode := [.int32, .int32WithNegativeZeroCheck, .double]

def name : RoundingMode → String
  | .int32 => "Int32"
  | .int32WithNegativeZeroCheck => "Int32WithNegativeZeroCheck"
  | .double => "Double"

instance : Encode RoundingMode := ⟨fun m => .str m.name⟩
instance : Decode RoundingMode := ⟨Json.enum? all name⟩

end RoundingMode

/-! ## Frame and property accesses -/

/-- An access to a frame slot. -/
structure StackAccess where
  /-- the source variable -/
  operand : Operand
  /-- the slot that holds it -/
  slot : Operand
  format : FlushFormat
deriving DecidableEq, Hashable, Inhabited, Repr

instance : Encode StackAccess where
  encode a := .obj [("local", encode a.operand), ("machine_local", encode a.slot),
    ("format", encode a.format)]

instance : Decode StackAccess where
  decode j := do
    let f ← Json.fields? ["local", "machine_local", "format"] j
    return { operand := ← f.get "local", slot := ← f.get "machine_local",
             format := ← f.get "format" }

/-- An access to a property whose place is known. -/
structure StorageAccess where
  offset : PropertyOffset
  identifier : IdentifierIndex
deriving DecidableEq, Hashable, Inhabited, Repr

instance : Encode StorageAccess where
  encode a := .obj [("offset", encode a.offset), ("identifier", encode a.identifier)]

instance : Decode StorageAccess where
  decode j := do
    let f ← Json.fields? ["offset", "identifier"] j
    return { offset := ← f.get "offset", identifier := ← f.get "identifier" }

/-- How one case of a polymorphic read gets its value. -/
inductive ReadMethod where
  | load (offset : PropertyOffset)
  | constant (value : FrozenValue)
deriving DecidableEq, Hashable, Inhabited, Repr

instance : Encode ReadMethod where
  encode
    | .load o => Json.variant "Load" (encode o)
    | .constant v => Json.variant "Constant" (encode v)

instance : Decode ReadMethod where
  decode j := do
    let t ← Json.tagged? j
    match t.name with
    | "Load" => return .load (← t.one?)
    | "Constant" => return .constant (← t.one?)
    | _ => none

/-- A case of a polymorphic read: cells of these structures are read this way. -/
structure ReadCase where
  structures : StructureSet
  method : ReadMethod
deriving DecidableEq, Hashable, Inhabited, Repr

instance : Encode ReadCase where
  encode c := .obj [("structures", encode c.structures), ("method", encode c.method)]

instance : Decode ReadCase where
  decode j := do
    let f ← Json.fields? ["structures", "method"] j
    return { structures := ← f.get "structures", method := ← f.get "method" }

/-- A case of a polymorphic write; with a new structure the write adds the property. -/
structure WriteCase where
  oldStructures : StructureSet
  newStructure : Option StructureId
  offset : PropertyOffset
deriving DecidableEq, Hashable, Inhabited, Repr

instance : Encode WriteCase where
  encode c :=
    .obj [("old_structures", encode c.oldStructures), ("new_structure", encode c.newStructure),
    ("offset", encode c.offset)]

instance : Decode WriteCase where
  decode j := do
    let f ← Json.fields? ["old_structures", "new_structure", "offset"] j
    return {
      oldStructures := ← f.get "old_structures"
      newStructure := ← f.opt "new_structure"
      offset := ← f.get "offset" }

/-- A step of a cell from one structure to another. -/
structure Transition where
  previous : StructureId
  next : StructureId
deriving DecidableEq, Hashable, Inhabited, Repr

instance : Encode Transition where
  encode t := .obj [("previous", encode t.previous), ("next", encode t.next)]

instance : Decode Transition where
  decode j := do
    let f ← Json.fields? ["previous", "next"] j
    return { previous := ← f.get "previous", next := ← f.get "next" }

/-! ## Arrays -/

/-- What an indexed access expects of its base. -/
inductive ArrayType where
  | int32
  | double
  | contiguous
  | string
  | directArguments
  | scopedArguments
  | typedArray (kind : ElementKind)
  /-- anything: the runtime does it -/
  | generic
  /-- never executed so far -/
  | forceExit
deriving DecidableEq, Hashable, Inhabited, Repr

namespace ArrayType

def plain : List ArrayType :=
  [.int32, .double, .contiguous, .string, .directArguments, .scopedArguments, .generic, .forceExit]

def name : ArrayType → String
  | .int32 => "Int32"
  | .double => "Double"
  | .contiguous => "Contiguous"
  | .string => "String"
  | .directArguments => "DirectArguments"
  | .scopedArguments => "ScopedArguments"
  | .typedArray _ => "TypedArray"
  | .generic => "Generic"
  | .forceExit => "ForceExit"

/-- The name, with the element kind of a typed array. -/
def debug : ArrayType → String
  | .typedArray kind => s!"TypedArray({kind.name})"
  | t => t.name

instance : Encode ArrayType where
  encode
    | .typedArray kind => Json.variant "TypedArray" (encode kind)
    | t => .str t.name

instance : Decode ArrayType where
  decode j := do
    let t ← Json.tagged? j
    if t.name == "TypedArray" then return .typedArray (← t.one?)
    Json.enum? plain name j

end ArrayType

/-- What an indexed access does outside the bounds or on a hole. -/
inductive ArraySpeculation where
  /-- leaves -/
  | inBounds
  /-- reads `undefined` -/
  | saneChain
  /-- asks the runtime -/
  | outOfBounds
deriving DecidableEq, Hashable, Inhabited, Repr

namespace ArraySpeculation

def all : List ArraySpeculation := [.inBounds, .saneChain, .outOfBounds]

def name : ArraySpeculation → String
  | .inBounds => "InBounds"
  | .saneChain => "SaneChain"
  | .outOfBounds => "OutOfBounds"

instance : Encode ArraySpeculation := ⟨fun s => .str s.name⟩
instance : Decode ArraySpeculation := ⟨Json.enum? all name⟩

end ArraySpeculation

/-- Everything an indexed access speculates on. -/
structure ArrayMode where
  arrayType : ArrayType
  speculation : ArraySpeculation := .inBounds
  /-- the base is a proper array -/
  isArray : Bool := true
  /-- holes are known not to occur -/
  dense : Bool := false
deriving DecidableEq, Hashable, Inhabited, Repr

namespace ArrayMode

/-- The access stays in bounds. -/
def inBounds (arrayType : ArrayType) : ArrayMode := { arrayType }

def usesButterfly (m : ArrayMode) : Bool :=
  match m.arrayType with
  | .int32 | .double | .contiguous => true
  | _ => false

/-- The shape byte of butterfly storage. -/
def indexingShape? (m : ArrayMode) : Option UInt8 :=
  match m.arrayType with
  | .int32 => some IndexingType.int32Shape
  | .double => some IndexingType.doubleShape
  | .contiguous => some IndexingType.contiguousShape
  | _ => none

/-- Text that spells out the mode. -/
def debug (m : ArrayMode) : String :=
  s!"ArrayMode \x7b array_type: {m.arrayType.debug}, speculation: {m.speculation.name}, " ++
    s!"is_array: {m.isArray}, dense: {m.dense} \x7d"

instance : Encode ArrayMode where
  encode m := .obj [("array_type", encode m.arrayType), ("speculation", encode m.speculation),
    ("is_array", encode m.isArray), ("dense", encode m.dense)]

instance : Decode ArrayMode where
  decode j := do
    let f ← Json.fields? ["array_type", "speculation", "is_array", "dense"] j
    return {
      arrayType := ← f.get "array_type"
      speculation := ← f.get "speculation"
      isArray := ← f.get "is_array"
      dense := ← f.get "dense" }

end ArrayMode

/-- The structure and indexing byte of a new array. -/
structure NewArrayData where
  structureId : StructureId
  indexing : IndexingType
deriving DecidableEq, Hashable, Inhabited, Repr

instance : Encode NewArrayData where
  encode d := .obj [("structure", encode d.structureId), ("indexing", encode d.indexing)]

instance : Decode NewArrayData where
  decode j := do
    let f ← Json.fields? ["structure", "indexing"] j
    return { structureId := ← f.get "structure", indexing := ← f.get "indexing" }

/-! ## Control -/

/-- What a switch compares. -/
inductive SwitchKind where
  | imm
  | char
  | string
  | cell
deriving DecidableEq, Hashable, Inhabited, Repr

namespace SwitchKind

def all : List SwitchKind := [.imm, .char, .string, .cell]

def name : SwitchKind → String
  | .imm => "Imm"
  | .char => "Char"
  | .string => "String"
  | .cell => "Cell"

instance : Encode SwitchKind := ⟨fun k => .str k.name⟩
instance : Decode SwitchKind := ⟨Json.enum? all name⟩

end SwitchKind

/-- The key of a case. -/
inductive SwitchValue where
  | int (n : Int32)
  | char (c : UInt16)
  | string (s : String)
  | cell (address : UInt64)
deriving DecidableEq, Hashable, Inhabited, Repr

/-- Text that spells out the key. -/
def SwitchValue.debug : SwitchValue → String
  | .int n => s!"Int({n.toInt})"
  | .char c => s!"Char({c.toNat})"
  | .string s => s!"String({Text.quote s})"
  | .cell a => s!"Cell({a.toNat})"

instance : Encode SwitchValue where
  encode
    | .int n => Json.variant "Int" (encode n)
    | .char c => Json.variant "Char" (encode c)
    | .string s => Json.variant "String" (encode s)
    | .cell a => Json.variant "Cell" (encode a)

instance : Decode SwitchValue where
  decode j := do
    let t ← Json.tagged? j
    match t.name with
    | "Int" => return .int (← t.one?)
    | "Char" => return .char (← t.one?)
    | "String" => return .string (← t.one?)
    | "Cell" => return .cell (← t.one?)
    | _ => none

structure SwitchCase where
  value : SwitchValue
  target : BlockIndex
deriving DecidableEq, Hashable, Inhabited, Repr

/-- The number that a case compares with. -/
def SwitchCase.number? (c : SwitchCase) : Option Int32 :=
  match c.value with
  | .int n => some n
  | .char code => some (Int32.ofNat code.toNat)
  | _ => none

instance : Encode SwitchCase where
  encode c := .obj [("value", encode c.value), ("target", encode c.target)]

instance : Decode SwitchCase where
  decode j := do
    let f ← Json.fields? ["value", "target"] j
    return { value := ← f.get "value", target := ← f.get "target" }

/-- The cases of a switch, the first match winning. -/
structure SwitchData where
  kind : SwitchKind
  cases : List SwitchCase
  fallThrough : BlockIndex
  /-- the runtime's number of the table -/
  tableIndex : Nat
deriving DecidableEq, Hashable, Inhabited, Repr

instance : Encode SwitchData where
  encode d := .obj [("kind", encode d.kind), ("cases", encode d.cases),
    ("fall_through", encode d.fallThrough), ("table_index", encode d.tableIndex)]

instance : Decode SwitchData where
  decode j := do
    let f ← Json.fields? ["kind", "cases", "fall_through", "table_index"] j
    return {
      kind := ← f.get "kind"
      cases := ← f.get "cases"
      fallThrough := ← f.get "fall_through"
      tableIndex := ← f.get "table_index" }

structure BranchData where
  taken : BlockIndex
  notTaken : BlockIndex
deriving DecidableEq, Hashable, Inhabited, Repr

instance : Encode BranchData where
  encode d := .obj [("taken", encode d.taken), ("not_taken", encode d.notTaken)]

instance : Decode BranchData where
  decode j := do
    let f ← Json.fields? ["taken", "not_taken"] j
    return { taken := ← f.get "taken", notTaken := ← f.get "not_taken" }

/-! ## Variable argument lists -/

/-- Which arguments a call spreads. -/
structure VarargsData where
  firstVarargOffset : Nat
  /-- the largest number of arguments -/
  limit : Nat
deriving DecidableEq, Hashable, Inhabited, Repr

instance : Encode VarargsData where
  encode d := .obj [("first_vararg_offset", encode d.firstVarargOffset), ("limit", encode d.limit)]

instance : Decode VarargsData where
  decode j := do
    let f ← Json.fields? ["first_vararg_offset", "limit"] j
    return { firstVarargOffset := ← f.get "first_vararg_offset", limit := ← f.get "limit" }

/-- Where a list of arguments is spread to in the frame. -/
structure LoadVarargsData where
  start : Operand
  count : Operand
  offset : Nat
  limit : Nat
  mandatoryMinimum : Nat
deriving DecidableEq, Hashable, Inhabited, Repr

instance : Encode LoadVarargsData where
  encode d :=
    .obj [("start", encode d.start), ("count", encode d.count), ("offset", encode d.offset),
    ("limit", encode d.limit), ("mandatory_minimum", encode d.mandatoryMinimum)]

instance : Decode LoadVarargsData where
  decode j := do
    let f ← Json.fields? ["start", "count", "offset", "limit", "mandatory_minimum"] j
    return {
      start := ← f.get "start"
      count := ← f.get "count"
      offset := ← f.get "offset"
      limit := ← f.get "limit"
      mandatoryMinimum := ← f.get "mandatory_minimum" }

/-! ## Allocations that were sunk -/

/-- A field of an object whose allocation was put off. -/
inductive PromotedLocation where
  | structureId
  | namedProperty (identifier : IdentifierIndex)
  | argument (index : Nat)
  | argumentCount
  | argumentsCallee
  | functionExecutable
  | functionActivation
  | activationScope
  | activationSymbolTable
  | closureVar (index : Nat)
deriving DecidableEq, Hashable, Inhabited, Repr

namespace PromotedLocation

/-- The fields without an index. -/
def plain : List PromotedLocation :=
  [.structureId, .argumentCount, .argumentsCallee, .functionExecutable, .functionActivation,
    .activationScope, .activationSymbolTable]

def name : PromotedLocation → String
  | .structureId => "Structure"
  | .namedProperty _ => "NamedProperty"
  | .argument _ => "Argument"
  | .argumentCount => "ArgumentCount"
  | .argumentsCallee => "ArgumentsCallee"
  | .functionExecutable => "FunctionExecutable"
  | .functionActivation => "FunctionActivation"
  | .activationScope => "ActivationScope"
  | .activationSymbolTable => "ActivationSymbolTable"
  | .closureVar _ => "ClosureVar"

/-- The place of the kind of field in the order of fields. -/
def rank : PromotedLocation → Nat
  | .structureId => 0
  | .namedProperty _ => 1
  | .argument _ => 2
  | .argumentCount => 3
  | .argumentsCallee => 4
  | .functionExecutable => 5
  | .functionActivation => 6
  | .activationScope => 7
  | .activationSymbolTable => 8
  | .closureVar _ => 9

/-- The index of a field within its kind. -/
def index : PromotedLocation → Nat
  | .namedProperty i => i.index
  | .argument i | .closureVar i => i
  | _ => 0

instance : Encode PromotedLocation where
  encode
    | .namedProperty i => Json.variant "NamedProperty" (encode i)
    | .argument i => Json.variant "Argument" (encode i)
    | .closureVar i => Json.variant "ClosureVar" (encode i)
    | l => .str l.name

instance : Decode PromotedLocation where
  decode j := do
    let t ← Json.tagged? j
    match t.name with
    | "NamedProperty" => return .namedProperty (← t.one?)
    | "Argument" => return .argument (← t.one?)
    | "ClosureVar" => return .closureVar (← t.one?)
    | _ => Json.enum? plain name j

end PromotedLocation

/-- The fields given to an object that is allocated after all. -/
structure MaterializeData where
  structures : StructureSet
  locations : List PromotedLocation
deriving DecidableEq, Hashable, Inhabited, Repr

instance : Encode MaterializeData where
  encode d := .obj [("structures", encode d.structures), ("locations", encode d.locations)]

instance : Decode MaterializeData where
  decode j := do
    let f ← Json.fields? ["structures", "locations"] j
    return { structures := ← f.get "structures", locations := ← f.get "locations" }

end SpecJit
