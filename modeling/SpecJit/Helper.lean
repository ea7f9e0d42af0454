import SpecJit.Json.Codec

/-!
# Runtime helpers

The functions of the runtime that compiled code calls. Each takes a fixed number of words besides
the context and returns a word.
-/

namespace SpecJit

/-- A function of the runtime. -/
inductive Helper where
  | convertDoubleToInt52
  | boxInt52
  | toBoolean
  | toInt32
  | doubleToInt32
  | valueAdd
  | compareEq
  | compareStrictEq
  | compareLess
  | compareLessEq
  | compareGreater
  | compareGreaterEq
  | stringEq
  | typeOf
  | toPrimitive
  | convertToString
  | toThis
  | makeRope
  | instanceOf
  | pow
  | sin
  | cos
  | log
  | fmod
  | allocateCell
  | allocateStorage
  | reallocateStorage
  | writeBarrier
  | newArrayWithSize
  | newFunction
  | createDirectArguments
  | createScopedArguments
  | createClonedArguments
  | getByValGeneric
  | putByValGeneric
  | arrayPush
  | arrayPop
  | hasIndexedProperty
  | singleCharacterString
  | stringCharCodeAt
  | typedArrayByteOffset
  | sizeFrameForVarargs
  | loadVarargs
  | checkStackForVarargs
  | switchStringLookup
  | throwValue
  | throwReferenceError
deriving DecidableEq, Hashable, Inhabited, Repr

namespace Helper

/-- The helpers in the order of their indices. -/
def all : List Helper :=
  [.convertDoubleToInt52, .boxInt52, .toBoolean, .toInt32, .doubleToInt32, .valueAdd, .compareEq,
    .compareStrictEq, .compareLess, .compareLessEq, .compareGreater, .compareGreaterEq, .stringEq,
    .typeOf, .toPrimitive, .convertToString, .toThis, .makeRope, .instanceOf, .pow, .sin, .cos,
    .log,
    .fmod, .allocateCell, .allocateStorage, .reallocateStorage, .writeBarrier, .newArrayWithSize,
    .newFunction, .createDirectArguments, .createScopedArguments, .createClonedArguments,
    .getByValGeneric, .putByValGeneric, .arrayPush, .arrayPop, .hasIndexedProperty,
    .singleCharacterString, .stringCharCodeAt, .typedArrayByteOffset, .sizeFrameForVarargs,
    .loadVarargs, .checkStackForVarargs, .switchStringLookup, .throwValue, .throwReferenceError]

def name : Helper → String
  | .convertDoubleToInt52 => "ConvertDoubleToInt52"
  | .boxInt52 => "BoxInt52"
  | .toBoolean => "ToBoolean"
  | .toInt32 => "ToInt32"
  | .doubleToInt32 => "DoubleToInt32"
  | .valueAdd => "ValueAdd"
  | .compareEq => "CompareEq"
  | .compareStrictEq => "CompareStrictEq"
  | .compareLess => "CompareLess"
  | .compareLessEq => "CompareLessEq"
  | .compareGreater => "CompareGreater"
  | .compareGreaterEq => "CompareGreaterEq"
  | .stringEq => "StringEq"
  | .typeOf => "TypeOf"
  | .toPrimitive => "ToPrimitive"
  | .convertToString => "ToString"
  | .toThis => "ToThis"
  | .makeRope => "MakeRope"
  | .instanceOf => "InstanceOf"
  | .pow => "Pow"
  | .sin => "Sin"
  | .cos => "Cos"
  | .log => "Log"
  | .fmod => "Fmod"
  | .allocateCell => "AllocateCell"
  | .allocateStorage => "AllocateStorage"
  | .reallocateStorage => "ReallocateStorage"
  | .writeBarrier => "WriteBarrier"
  | .newArrayWithSize => "NewArrayWithSize"
  | .newFunction => "NewFunction"
  | .createDirectArguments => "CreateDirectArguments"
  | .createScopedArguments => "CreateScopedArguments"
  | .createClonedArguments => "CreateClonedArguments"
  | .getByValGeneric => "GetByValGeneric"
  | .putByValGeneric => "PutByValGeneric"
  | .arrayPush => "ArrayPush"
  | .arrayPop => "ArrayPop"
  | .hasIndexedProperty => "HasIndexedProperty"
  | .singleCharacterString => "SingleCharacterString"
  | .stringCharCodeAt => "StringCharCodeAt"
  | .typedArrayByteOffset => "TypedArrayByteOffset"
  | .sizeFrameForVarargs => "SizeFrameForVarargs"
  | .loadVarargs => "LoadVarargs"
  | .checkStackForVarargs => "CheckStackForVarargs"
  | .switchStringLookup => "SwitchStringLookup"
  | .throwValue => "Throw"
  | .throwReferenceError => "ThrowReferenceError"

/-- The number of words the helper takes. -/
def paramCount : Helper → Nat
  | .valueAdd | .compareEq | .compareStrictEq | .compareLess | .compareLessEq | .compareGreater
  | .compareGreaterEq | .stringEq | .instanceOf | .pow | .fmod | .reallocateStorage
  | .newArrayWithSize | .newFunction | .createScopedArguments | .getByValGeneric | .arrayPush
  | .hasIndexedProperty | .stringCharCodeAt | .sizeFrameForVarargs | .switchStringLookup => 2
  | .makeRope | .putByValGeneric => 3
  | .loadVarargs => 4
  | _ => 1

/-- The place of the helper in the table. -/
def index (h : Helper) : Nat := all.idxOf h

/-- The linker name: the words of the name in lower case, joined by underscores. -/
def symbol (h : Helper) : String :=
  h.name.foldl (fun s c => if c.isUpper then (s.push '_').push c.toLower else s.push c) "strata"

instance : ToString Helper := ⟨name⟩
instance : Encode Helper := ⟨fun h => .str h.name⟩
instance : Decode Helper := ⟨Json.enum? all name⟩

/-- What the runtime returns for a double that is no int52. -/
def notInt52 : UInt64 := 0x0010000000000000

end Helper

/-- The helpers that an embedder provides. -/
structure HelperSet where
  registered : List Helper := []
deriving Inhabited, Repr

namespace HelperSet

def contains (s : HelperSet) (h : Helper) : Bool := s.registered.contains h

/-- Text that tells how many helpers are there. -/
def debug (s : HelperSet) : String :=
  s!"RuntimeHelpers \x7b registered: {s.registered.eraseDups.length} \x7d"

end HelperSet

end SpecJit
