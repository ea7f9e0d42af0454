import SpecJit.Report.Basic
import SpecJit.UseKind

/-!
# Reports on values, types and structures
-/

namespace SpecJit.Report

def decoded : Value.Decoded → Json
  | .empty => .str "Empty"
  | .int32 n => Json.variant "Int32" (encode n)
  | .double d => Json.variant "Double" (double d)
  | .boolean b => Json.variant "Boolean" (encode b)
  | .null => .str "Null"
  | .undefined => .str "Undefined"
  | .cell a => Json.variant "Cell" (word a)
  | .invalid w => Json.variant "Invalid" (word w)

/-- Everything that can be asked of a word. -/
def value (w : Word) : Json :=
  .obj [("int32", encode (Value.isInt32 w)), ("number", encode (Value.isNumber w)),
    ("double", encode (Value.isDouble w)), ("cell", encode (Value.isCell w)),
    ("boolean", encode (Value.isBoolean w)), ("other", encode (Value.isOther w)),
    ("misc", encode (Value.isMisc w)), ("impure_nan", encode (Value.isImpureNaN w)),
    ("decoded", decoded (Value.decode w)), ("as_number", option double (Value.asNumber? w)),
    ("unbox_int32", encode (Value.unboxInt32 w)), ("unbox_boolean", encode (Value.unboxBoolean w)),
    ("unbox_double", double (Value.unboxDouble w)), ("speculation", specType (Value.specType w))]

/-- What can be asked of a set of kinds. -/
def specTypeQueries (a : SpecType) : Json :=
  .obj [("type", specType a), ("empty", encode a.isEmpty), ("int32", encode a.isInt32),
    ("machine_int", encode a.isMachineInt), ("double", encode a.isDouble),
    ("number", encode a.isNumber),
    ("boolean", encode a.isBoolean), ("cell", encode a.isCell), ("object", encode a.isObject),
    ("string", encode a.isString), ("other", encode a.isOther),
    ("impure_nan", encode a.couldBeImpureNaN),
    ("not", specType a.complement), ("debug", .str a.text)]

/-- The lattice operations on two sets of kinds. -/
def specTypePair (a b : SpecType) : Json :=
  .obj [("union", specType (a.union b)), ("intersect", specType (a.intersect b)),
    ("without", specType (a.without b)), ("subset", encode (a.isSubsetOf b)),
    ("overlaps", encode (a.overlaps b)), ("or_assign", encode (a ||| b)),
    ("and_assign", encode (a &&& b))]

def useKind (k : UseKind) : Json :=
  .obj [("filter", specType k.typeFilter), ("proven", encode k.isProven),
    ("representation", encode k.representation), ("double_rep", encode k.isDoubleRep),
    ("cell", encode k.isCell)]

def cellType (c : CellType) : Json :=
  let element := match c with
    | .typedArray k =>
      [("element", Json.obj [("size", nat k.size), ("float", encode k.isFloat),
        ("signed", encode k.isSigned)])]
    | _ => []
  .obj ([("tag", nat c.tag), ("object", encode c.isObject),
    ("round_trip", encode (CellType.ofTag? c.tag))] ++ element)

/-- A constant, compared with another one if there is one. -/
def constant (registry : Registry) (v : FrozenValue) (other : Option FrozenValue) : Json :=
  .obj [("value", encode v), ("number", option double v.asNumber?), ("int32", encode v.asInt32?),
    ("boolean", encode v.asBoolean?), ("cell", option (fun c => word c.address) v.asCell?),
    ("truthy", encode v.truthy?), ("type", specType (v.specType registry)),
    ("boxed", word (Value.ofFrozen v)),
    ("equals", option (fun o => encode (decide (v = o))) other)]

def structureSet (result : Json) (s : StructureSet) : Json :=
  .obj [("result", result), ("set", encode s.ids), ("len", nat s.size), ("empty", encode s.isEmpty),
    ("only", encode s.only?)]

def propertyOffset (o : PropertyOffset) : Json :=
  .obj [("offset", encode o), ("inline", encode o.isInline),
    ("out_of_line", if o.isInline then .null else nat o.outOfLineIndex)]

/-- A structure and where one of its properties is. -/
def structureLookup (registry : Registry) (id : StructureId) (identifier : IdentifierIndex) :
    Json :=
  match registry.get? id with
  | none => .null
  | some s =>
    .obj [("structure", encode s), ("offset", option propertyOffset (s.offsetOf? identifier)),
      ("out_of_line_size", nat s.outOfLineSize), ("shape", encode s.indexing.shape),
      ("is_array", encode s.indexing.isArray),
      ("flags", list (fun flag => encode (s.flags.contains flag))
        [TypeInfoFlags.defaultHasInstance, TypeInfoFlags.masqueradesAsUndefined,
          TypeInfoFlags.overridesToThis])]

/-- A registry and the answers to some look-ups. -/
def registry (r : Registry) (queries : List (StructureId × IdentifierIndex)) : Json :=
  .obj [("ids", encode (r.toList.map (·.id))),
    ("lookups", list (fun q => structureLookup r q.1 q.2) queries),
    ("serialized", encode r)]

/-- The values of all variables. -/
def operandEntries (o : Operands Int64) : Json :=
  list (fun (v, a) => .arr [shown v, encode a]) o.toList

/-- The members of a report on the values of all variables. -/
def operandMembers (o : Operands Int64) : List (String × Json) :=
  [("len", nat o.size), ("empty", encode (o.size == 0)), ("num_arguments", nat o.arguments.size),
    ("num_locals", nat o.locals.size), ("serialized", encode o)]

end SpecJit.Report
