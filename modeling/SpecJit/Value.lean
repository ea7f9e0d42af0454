import SpecJit.Constant

/-!
# Boxed values

A value of the running program is one 64-bit word. An int32 has the upper 16 bits set, a double is
its bits plus `2^48`, a cell is its address, and the remaining values are small constants. NaNs
whose bits would wrap around when boxed are replaced by the canonical NaN first, so that no double
turns into a value of another kind.
-/

namespace SpecJit

/-- A machine word. -/
abbrev Word := UInt64

namespace Value

/-! ## Encoding -/

/-- All set in an int32, some set in a double, none in anything else. -/
def numberTag : Word := 0xffff000000000000
/-- Added to the bits of a double. -/
def doubleOffset : Word := 0x0001000000000000
def otherTag : Word := 0x2
def boolTag : Word := 0x4
def undefinedTag : Word := 0x8
/-- No bit of it is set in a cell. -/
def notCellMask : Word := 0xffff000000000002

def empty : Word := 0x0
def null : Word := 0x2
def undefined : Word := 0xa
def falseWord : Word := 0x6
def trueWord : Word := 0x7

/-- Int52 values are kept shifted left by this much. -/
def int52Shift : Nat := 12
def int52Max : Int := 0x7ffffffffffff
def int52Min : Int := -0x8000000000000

/-- Bit patterns from here on are NaNs that wrap around when boxed. -/
def impureNaNThreshold : Word := 0xfffe000000000000

/-! ## Kinds -/

def isInt32 (w : Word) : Bool := w &&& numberTag == numberTag
def isNumber (w : Word) : Bool := w &&& numberTag != 0
def isDouble (w : Word) : Bool := isNumber w && !isInt32 w
def isCell (w : Word) : Bool := w &&& notCellMask == 0
def isBoolean (w : Word) : Bool := w &&& ~~~1 == falseWord
/-- `null` or `undefined`. -/
def isOther (w : Word) : Bool := w &&& ~~~undefinedTag == null
def isMisc (w : Word) : Bool := isBoolean w || isOther w
def isImpureNaN (w : Word) : Bool := impureNaNThreshold ≤ w

/-! ## Boxing -/

def boxInt32 (n : Int32) : Word := numberTag ||| n.toUInt32.toUInt64
def unboxInt32 (w : Word) : Int32 := w.toUInt32.toInt32

/-- Replaces a NaN that cannot be boxed by the canonical one. -/
def purifyNaN (d : Double) : Double := if isImpureNaN d.bits then Double.pureNaN else d

def boxDouble (d : Double) : Word := (purifyNaN d).bits + doubleOffset
def unboxDouble (w : Word) : Double := ⟨w - doubleOffset⟩

def boxBoolean (b : Bool) : Word := if b then trueWord else falseWord
def unboxBoolean (w : Word) : Bool := w &&& 1 != 0

/-- The int32 equal to a double, the negative zero apart. -/
def int32OfDouble? (d : Double) : Option Int32 :=
  let n := d.toInt32
  if (Double.ofInt n.toInt).numEq d && !d.isNegativeZero then some n else none

/-- Boxes a number as an int32 where that is possible. -/
def boxNumber (d : Double) : Word :=
  match int32OfDouble? d with
  | some n => boxInt32 n
  | none => boxDouble d

/-- Boxes an integer as an int32 if it fits. -/
def boxInt52 (n : Int64) : Word :=
  if n.toInt32.toInt64 == n then boxInt32 n.toInt32 else boxDouble (Double.ofInt n.toInt)

def isInt52 (n : Int64) : Bool := int52Min ≤ n.toInt && n.toInt ≤ int52Max

/-- The int52 equal to a double, the negative zero apart. -/
def doubleAsInt52? (d : Double) : Option Int64 :=
  let n := d.toInt64
  if (Double.ofInt n.toInt).numEq d && isInt52 n && !d.isNegativeZero then some n else none

/-- The number that a word holds. -/
def asNumber? (w : Word) : Option Double :=
  if isInt32 w then some (Double.ofInt (unboxInt32 w).toInt)
  else if isNumber w then some (unboxDouble w)
  else none

/-- The word of a constant. -/
def ofFrozen : FrozenValue → Word
  | .empty => empty
  | .undefined => undefined
  | .null => null
  | .boolean b => boxBoolean b
  | .int32 n => boxInt32 n
  | .double d => boxDouble d
  | .cell c => c.address

/-! ## Decoding -/

/-- What a word holds. -/
inductive Decoded where
  | empty
  | int32 (n : Int32)
  | double (d : Double)
  | boolean (b : Bool)
  | null
  | undefined
  | cell (address : Word)
  | invalid (w : Word)
deriving DecidableEq, Inhabited, Repr

def decode (w : Word) : Decoded :=
  if isInt32 w then .int32 (unboxInt32 w)
  else if isNumber w then .double (unboxDouble w)
  else if w == empty then .empty
  else if isCell w then .cell w
  else if isBoolean w then .boolean (unboxBoolean w)
  else if w == null then .null
  else if w == undefined then .undefined
  else .invalid w

/-- The kind of value a word holds, as profiling sees it: every NaN counts as canonical, and cells
are not told apart. -/
def specType (w : Word) : SpecType :=
  match decode w with
  | .empty => .empty
  | .int32 n => .ofInt32 n
  | .double d =>
    if d.isNaN then .doublePureNaN
    else if (doubleAsInt52? d).isSome then .int52AsDouble
    else .nonIntAsDouble
  | .boolean _ => .boolean
  | .null | .undefined => .other
  | .cell _ => .cell
  | .invalid _ => .heapTop

end Value

end SpecJit
