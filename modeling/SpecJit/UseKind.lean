import SpecJit.SpecType

/-!
# Use kinds

A node states with each of its uses what it needs to know of the value (`UseKind`). A kind is either
*proven*, so that earlier code guarantees it, or *speculative*, so that the use itself has to check
it and leave when the check fails.
-/

namespace SpecJit

/-- What a use needs to know of its value. -/
inductive UseKind where
  | untyped
  | int32
  | knownInt32
  | int52Rep
  | machineInt
  | number
  | realNumber
  | doubleRep
  | doubleRepReal
  | doubleRepMachineInt
  | boolean
  | knownBoolean
  | cell
  | knownCell
  | object
  | function
  | finalObject
  | objectOrOther
  | string
  | knownString
  | stringIdent
  | stringObject
  | stringOrStringObject
  | notStringVar
  | notCell
  | other
  | misc
deriving DecidableEq, Hashable, Inhabited, Repr

/-- The machine form in which a use reads its value. -/
inductive Representation where
  | int32
  | int52
  | double
  | boolean
  | jsValue
deriving DecidableEq, Hashable, Inhabited, Repr

namespace Representation

def name : Representation → String
  | .int32 => "Int32"
  | .int52 => "Int52"
  | .double => "Double"
  | .boolean => "Boolean"
  | .jsValue => "JsValue"

instance : Encode Representation := ⟨fun r => .str r.name⟩

end Representation

namespace UseKind

def all : List UseKind :=
  [.untyped, .int32, .knownInt32, .int52Rep, .machineInt, .number, .realNumber, .doubleRep,
    .doubleRepReal, .doubleRepMachineInt, .boolean, .knownBoolean, .cell, .knownCell, .object,
    .function, .finalObject, .objectOrOther, .string, .knownString, .stringIdent, .stringObject,
    .stringOrStringObject, .notStringVar, .notCell, .other, .misc]

def name : UseKind → String
  | .untyped => "Untyped"
  | .int32 => "Int32"
  | .knownInt32 => "KnownInt32"
  | .int52Rep => "Int52Rep"
  | .machineInt => "MachineInt"
  | .number => "Number"
  | .realNumber => "RealNumber"
  | .doubleRep => "DoubleRep"
  | .doubleRepReal => "DoubleRepReal"
  | .doubleRepMachineInt => "DoubleRepMachineInt"
  | .boolean => "Boolean"
  | .knownBoolean => "KnownBoolean"
  | .cell => "Cell"
  | .knownCell => "KnownCell"
  | .object => "Object"
  | .function => "Function"
  | .finalObject => "FinalObject"
  | .objectOrOther => "ObjectOrOther"
  | .string => "String"
  | .knownString => "KnownString"
  | .stringIdent => "StringIdent"
  | .stringObject => "StringObject"
  | .stringOrStringObject => "StringOrStringObject"
  | .notStringVar => "NotStringVar"
  | .notCell => "NotCell"
  | .other => "Other"
  | .misc => "Misc"

instance : ToString UseKind := ⟨name⟩
instance : Encode UseKind := ⟨fun k => .str k.name⟩
instance : Decode UseKind := ⟨Json.enum? all name⟩

/-- The types a value can have once the use has happened. -/
def typeFilter : UseKind → SpecType
  | .untyped => .fullTop
  | .int32 | .knownInt32 => .int32
  | .int52Rep | .machineInt => .machineInt
  | .number => .bytecodeNumber
  | .realNumber => .bytecodeRealNumber
  | .doubleRep => .fullDouble
  | .doubleRepReal => .doubleReal
  | .doubleRepMachineInt => .int52AsDouble
  | .boolean | .knownBoolean => .boolean
  | .cell | .knownCell => .cell
  | .object => .object
  | .function => .function
  | .finalObject => .finalObject
  | .objectOrOther => .union .object .other
  | .string | .knownString => .string
  | .stringIdent => .stringIdent
  | .stringObject => .stringObject
  | .stringOrStringObject => .union .string .stringObject
  | .notStringVar => SpecType.stringVar.complement
  | .notCell => SpecType.cell.complement
  | .other => .other
  | .misc => .misc

/-- The use relies on earlier code and checks nothing. -/
def isProven : UseKind → Bool
  | .untyped | .knownInt32 | .knownBoolean | .knownCell | .knownString | .int52Rep | .doubleRep =>
    true
  | _ => false

/-- The form in which the use reads its value. -/
def representation : UseKind → Representation
  | .int32 | .knownInt32 => .int32
  | .int52Rep => .int52
  | .doubleRep | .doubleRepReal | .doubleRepMachineInt => .double
  | .boolean | .knownBoolean => .boolean
  | _ => .jsValue

def isDoubleRep : UseKind → Bool
  | .doubleRep | .doubleRepReal | .doubleRepMachineInt => true
  | _ => false

def isInt32 : UseKind → Bool
  | .int32 | .knownInt32 => true
  | _ => false

def isBoolean : UseKind → Bool
  | .boolean | .knownBoolean => true
  | _ => false

def isString : UseKind → Bool
  | .string | .knownString | .stringIdent => true
  | _ => false

def isObject : UseKind → Bool
  | .object | .function | .finalObject => true
  | _ => false

/-- Values of the kind are strictly equal to a value exactly if their words are equal. -/
def comparesByWord : UseKind → Bool
  | .object | .function | .finalObject | .misc | .other | .boolean | .knownBoolean => true
  | _ => false

/-- Every value that passes is a cell. -/
def isCell : UseKind → Bool
  | .cell | .knownCell | .object | .function | .finalObject | .string | .knownString | .stringIdent
  | .stringObject | .stringOrStringObject => true
  | _ => false

end UseKind

end SpecJit
