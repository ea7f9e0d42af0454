import SpecJit.CellType
import SpecJit.Double

/-!
# The lattice of speculated types

A speculated type is a set of kinds of values, one bit per kind. Inclusion is `isSubsetOf`, and the
lattice operations are `union`, `intersect` and `without`. Bits outside `fullTop` name no kind; they
are carried along but never shown.
-/

namespace SpecJit

/-- A set of kinds of values. -/
structure SpecType where
  bits : UInt64 := 0
deriving DecidableEq, Hashable, Inhabited, Repr

namespace SpecType

/-! ## Named sets -/

def none : SpecType := ⟨0⟩
def finalObject : SpecType := ⟨0x00000001⟩
def array : SpecType := ⟨0x00000002⟩
def function : SpecType := ⟨0x00000004⟩
def int8Array : SpecType := ⟨0x00000008⟩
def int16Array : SpecType := ⟨0x00000010⟩
def int32Array : SpecType := ⟨0x00000020⟩
def uint8Array : SpecType := ⟨0x00000040⟩
def uint8ClampedArray : SpecType := ⟨0x00000080⟩
def uint16Array : SpecType := ⟨0x00000100⟩
def uint32Array : SpecType := ⟨0x00000200⟩
def float32Array : SpecType := ⟨0x00000400⟩
def float64Array : SpecType := ⟨0x00000800⟩
def directArguments : SpecType := ⟨0x00001000⟩
def scopedArguments : SpecType := ⟨0x00002000⟩
def stringObject : SpecType := ⟨0x00004000⟩
def objectOther : SpecType := ⟨0x00008000⟩
def object : SpecType := ⟨0x0000ffff⟩
/-- Interned strings. -/
def stringIdent : SpecType := ⟨0x00010000⟩
/-- Strings that are not interned. -/
def stringVar : SpecType := ⟨0x00020000⟩
def string : SpecType := ⟨0x00030000⟩
def symbol : SpecType := ⟨0x00040000⟩
def cellOther : SpecType := ⟨0x00080000⟩
def cell : SpecType := ⟨0x000fffff⟩
/-- The int32 values 0 and 1. -/
def boolInt32 : SpecType := ⟨0x00100000⟩
def nonBoolInt32 : SpecType := ⟨0x00200000⟩
def int32 : SpecType := ⟨0x00300000⟩
/-- Integers of 52 bits that are not of 32 bits. -/
def int52 : SpecType := ⟨0x00400000⟩
def machineInt : SpecType := ⟨0x00700000⟩
/-- Doubles that hold an integer of 52 bits. -/
def int52AsDouble : SpecType := ⟨0x00800000⟩
def nonIntAsDouble : SpecType := ⟨0x01000000⟩
def doubleReal : SpecType := ⟨0x01800000⟩
/-- The canonical NaN. -/
def doublePureNaN : SpecType := ⟨0x02000000⟩
/-- Every other NaN. -/
def doubleImpureNaN : SpecType := ⟨0x04000000⟩
def bytecodeDouble : SpecType := ⟨0x03800000⟩
def fullDouble : SpecType := ⟨0x07800000⟩
def bytecodeRealNumber : SpecType := ⟨0x01b00000⟩
def bytecodeNumber : SpecType := ⟨0x03b00000⟩
def fullNumber : SpecType := ⟨0x07f00000⟩
def boolean : SpecType := ⟨0x10000000⟩
/-- `null` and `undefined`. -/
def other : SpecType := ⟨0x20000000⟩
def misc : SpecType := ⟨0x30000000⟩
/-- What the heap can hold. -/
def heapTop : SpecType := ⟨0x33bfffff⟩
/-- The empty value. -/
def empty : SpecType := ⟨0x40000000⟩
def bytecodeTop : SpecType := ⟨0x73bfffff⟩
def fullTop : SpecType := ⟨0x77ffffff⟩

/-! ## Lattice -/

variable (a b : SpecType)

def isEmpty : Bool := a.bits == 0
def isSubsetOf : Bool := a.bits &&& ~~~b.bits == 0
def overlaps : Bool := a.bits &&& b.bits != 0
def union : SpecType := ⟨a.bits ||| b.bits⟩
def intersect : SpecType := ⟨a.bits &&& b.bits⟩
def without : SpecType := ⟨a.bits &&& ~~~b.bits⟩
/-- Every kind that is not in the set. -/
def complement : SpecType := ⟨~~~a.bits &&& fullTop.bits⟩

instance : OrOp SpecType := ⟨union⟩
instance : AndOp SpecType := ⟨intersect⟩

/-- The set is inhabited and every member of it is in `b`. -/
def isOnly : Bool := !a.isEmpty && a.isSubsetOf b

def isInt32 : Bool := a.isOnly int32
def isMachineInt : Bool := a.isOnly machineInt
def isDouble : Bool := a.isOnly fullDouble
def isNumber : Bool := a.isOnly fullNumber
def isBoolean : Bool := a.isOnly boolean
def isCell : Bool := a.isOnly cell
def isObject : Bool := a.isOnly object
def isString : Bool := a.isOnly string
def isOther : Bool := a.isOnly other
def couldBeImpureNaN : Bool := a.overlaps doubleImpureNaN

/-! ## The kind of a value -/

def ofElementKind : ElementKind → SpecType
  | .int8 => int8Array
  | .int16 => int16Array
  | .int32 => int32Array
  | .uint8 => uint8Array
  | .uint8Clamped => uint8ClampedArray
  | .uint16 => uint16Array
  | .uint32 => uint32Array
  | .float32 => float32Array
  | .float64 => float64Array

/-- The kinds that a cell of a given type may have. -/
def ofCellType : CellType → SpecType
  | .finalObject => finalObject
  | .array => array
  | .function => function
  | .typedArray kind => ofElementKind kind
  | .directArguments => directArguments
  | .scopedArguments => scopedArguments
  | .stringObject => stringObject
  | .clonedArguments | .activation | .globalObject | .objectOther => objectOther
  | .string => string
  | .symbol => symbol
  | .structureCell | .executable | .symbolTable | .cellOther => cellOther

/-- `2^51`: int52 values held by a double are smaller in magnitude. -/
def int52Bound : Double := Double.ofInt 0x8000000000000

def ofDouble (d : Double) : SpecType :=
  if d.isNaN then if d == Double.pureNaN then doublePureNaN else doubleImpureNaN
  else if d.isIntegral && d.abs.numLt int52Bound then int52AsDouble
  else nonIntAsDouble

def ofInt32 (n : Int32) : SpecType := if n == 0 || n == 1 then boolInt32 else nonBoolInt32

/-! ## Text -/

/-- The kinds with their names, in the order of their bits. -/
def leaves : List (SpecType × String) :=
  [(finalObject, "Final"), (array, "Array"), (function, "Function"), (int8Array, "Int8Array"),
    (int16Array, "Int16Array"), (int32Array, "Int32Array"), (uint8Array, "Uint8Array"),
    (uint8ClampedArray, "Uint8ClampedArray"), (uint16Array, "Uint16Array"),
    (uint32Array, "Uint32Array"), (float32Array, "Float32Array"), (float64Array, "Float64Array"),
    (directArguments, "DirectArguments"), (scopedArguments, "ScopedArguments"),
    (stringObject, "StringObject"), (objectOther, "ObjectOther"), (stringIdent, "StringIdent"),
    (stringVar, "StringVar"), (symbol, "Symbol"), (cellOther, "CellOther"),
    (boolInt32, "BoolInt32"), (nonBoolInt32, "NonBoolInt32"), (int52, "Int52"),
    (int52AsDouble, "Int52AsDouble"), (nonIntAsDouble, "NonIntAsDouble"),
    (doublePureNaN, "DoublePureNaN"), (doubleImpureNaN, "DoubleImpureNaN"), (boolean, "Bool"),
    (other, "Other"), (empty, "Empty")]

/-- The names of the kinds in the set; three sets have a name of their own. -/
def text (t : SpecType) : String :=
  if t.isEmpty then "None"
  else if t == fullTop then "Top"
  else if t == heapTop then "HeapTop"
  else "|".intercalate ((leaves.filter fun leaf => t.overlaps leaf.1).map (·.2))

instance : ToString SpecType := ⟨text⟩

instance : Encode SpecType := ⟨fun t => encode t.bits⟩
instance : Decode SpecType := ⟨fun j => (decode j).map SpecType.mk⟩

end SpecType

end SpecJit
