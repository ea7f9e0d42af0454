import SpecJit.Json.Codec

/-!
# Kinds of heap cells

A cell's header carries a type tag, an indexing byte and flags; these are their decoded forms.
-/

namespace SpecJit

/-- Element kind of a typed array. -/
inductive ElementKind where
  | int8
  | int16
  | int32
  | uint8
  | uint8Clamped
  | uint16
  | uint32
  | float32
  | float64
deriving DecidableEq, Hashable, Inhabited, Repr

namespace ElementKind

/-- In the order of their tags. -/
def all : List ElementKind :=
  [.int8, .int16, .int32, .uint8, .uint8Clamped, .uint16, .uint32, .float32, .float64]

def name : ElementKind → String
  | .int8 => "Int8"
  | .int16 => "Int16"
  | .int32 => "Int32"
  | .uint8 => "Uint8"
  | .uint8Clamped => "Uint8Clamped"
  | .uint16 => "Uint16"
  | .uint32 => "Uint32"
  | .float32 => "Float32"
  | .float64 => "Float64"

/-- Bytes per element. -/
def size : ElementKind → Nat
  | .int8 | .uint8 | .uint8Clamped => 1
  | .int16 | .uint16 => 2
  | .int32 | .uint32 | .float32 => 4
  | .float64 => 8

def isFloat : ElementKind → Bool
  | .float32 | .float64 => true
  | _ => false

def isSigned : ElementKind → Bool
  | .int8 | .int16 | .int32 => true
  | _ => false

instance : Encode ElementKind := ⟨fun k => .str k.name⟩
instance : Decode ElementKind := ⟨Json.enum? all name⟩

end ElementKind

/-- Kind of a heap cell. -/
inductive CellType where
  | cellOther
  | string
  | symbol
  | structureCell
  | executable
  | symbolTable
  | finalObject
  | objectOther
  | function
  | array
  | directArguments
  | scopedArguments
  | clonedArguments
  | stringObject
  | activation
  | globalObject
  | typedArray (kind : ElementKind)
deriving DecidableEq, Hashable, Inhabited, Repr

namespace CellType

/-- Tags at or above this one belong to objects. -/
def firstObjectTag : Nat := 0x10

/-- The tag of the first typed array kind; the others follow. -/
def firstTypedArrayTag : Nat := 0x20

/-- The kinds that are no typed arrays. -/
def plain : List CellType :=
  [.cellOther, .string, .symbol, .structureCell, .executable, .symbolTable, .finalObject,
    .objectOther,
    .function, .array, .directArguments, .scopedArguments, .clonedArguments, .stringObject,
    .activation, .globalObject]

/-- Every kind. -/
def all : List CellType := plain ++ ElementKind.all.map .typedArray

/-- The type tag stored in the header. -/
def tag : CellType → Nat
  | .cellOther => 0x00
  | .string => 0x01
  | .symbol => 0x02
  | .structureCell => 0x03
  | .executable => 0x04
  | .symbolTable => 0x05
  | .finalObject => 0x10
  | .objectOther => 0x11
  | .function => 0x12
  | .array => 0x13
  | .directArguments => 0x14
  | .scopedArguments => 0x15
  | .clonedArguments => 0x16
  | .stringObject => 0x17
  | .activation => 0x18
  | .globalObject => 0x19
  | .typedArray kind => firstTypedArrayTag + ElementKind.all.idxOf kind

/-- The kind with a given tag. -/
def ofTag? (t : Nat) : Option CellType := all.find? fun c => c.tag == t

def isObject (c : CellType) : Bool := firstObjectTag ≤ c.tag

/-- The name of the kind, without the element kind of a typed array. -/
def name : CellType → String
  | .cellOther => "CellOther"
  | .string => "String"
  | .symbol => "Symbol"
  | .structureCell => "Structure"
  | .executable => "Executable"
  | .symbolTable => "SymbolTable"
  | .finalObject => "FinalObject"
  | .objectOther => "ObjectOther"
  | .function => "Function"
  | .array => "Array"
  | .directArguments => "DirectArguments"
  | .scopedArguments => "ScopedArguments"
  | .clonedArguments => "ClonedArguments"
  | .stringObject => "StringObject"
  | .activation => "Activation"
  | .globalObject => "GlobalObject"
  | .typedArray _ => "TypedArray"

instance : Encode CellType where
  encode
    | .typedArray kind => Json.variant "TypedArray" (encode kind)
    | c => .str c.name

instance : Decode CellType where
  decode j := do
    let t ← Json.tagged? j
    if t.name == "TypedArray" then return .typedArray (← t.one?)
    Json.enum? plain name j

end CellType

/-- The indexing byte of a cell: the shape of its elements, and whether it is an array. -/
structure IndexingType where
  byte : UInt8
deriving DecidableEq, Hashable, Inhabited, Repr

namespace IndexingType

def isArrayBit : UInt8 := 0x01
def shapeMask : UInt8 := 0x0e
/-- No indexed elements. -/
def noIndexing : UInt8 := 0x00
/-- Boxed int32 elements. -/
def int32Shape : UInt8 := 0x02
/-- Raw double elements. -/
def doubleShape : UInt8 := 0x04
/-- Boxed elements. -/
def contiguousShape : UInt8 := 0x06

def ofShape (shape : UInt8) (isArray : Bool) : IndexingType :=
  ⟨shape ||| if isArray then isArrayBit else 0⟩

def shape (t : IndexingType) : UInt8 := t.byte &&& shapeMask

def isArray (t : IndexingType) : Bool := t.byte &&& isArrayBit != 0

instance : Encode IndexingType := ⟨fun t => encode t.byte⟩
instance : Decode IndexingType := ⟨fun j => (decode j).map IndexingType.mk⟩

end IndexingType

/-- Flags of a structure. -/
structure TypeInfoFlags where
  byte : UInt8 := 0
deriving DecidableEq, Hashable, Inhabited, Repr

namespace TypeInfoFlags

/-- `instanceof` may walk the prototype chain. -/
def defaultHasInstance : UInt8 := 0x01
/-- The object is loosely equal to `undefined`. -/
def masqueradesAsUndefined : UInt8 := 0x02
/-- Converting to `this` calls into the runtime. -/
def overridesToThis : UInt8 := 0x04

def contains (f : TypeInfoFlags) (flag : UInt8) : Bool := f.byte &&& flag != 0

instance : Encode TypeInfoFlags := ⟨fun f => encode f.byte⟩
instance : Decode TypeInfoFlags := ⟨fun j => (decode j).map TypeInfoFlags.mk⟩

end TypeInfoFlags

end SpecJit
