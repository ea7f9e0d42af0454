import SpecJit.Constant
import SpecJit.Text.Quoted

/-!
# Abstract values

What is known of a value at a point of the program: the kinds it may have, the structures it may
have if it is a cell, and its exact value if it is a constant. The facts form a lattice in which
`merge` goes up and the filters go down.
-/

namespace SpecJit

namespace FrozenValue

/-- Text that spells out the constant. -/
def debug : FrozenValue → String
  | .empty => "Empty"
  | .undefined => "Undefined"
  | .null => "Null"
  | .boolean b => s!"Boolean({b})"
  | .int32 n => s!"Int32({n.toInt})"
  | .double d => s!"Double({d.bits.toNat})"
  | .cell c =>
    let string := match c.string with
      | none => "None"
      | some s =>
        let interned := match s.internedImpl with
          | none => "None"
          | some a => s!"Some({a.toNat})"
        s!"Some(StringConstant \x7b text: {Text.quote s.text}, interned_impl: {interned} \x7d)"
    s!"Cell(CellConstant \x7b address: {c.address.toNat}, " ++
      s!"structure: StructureId({c.structureId.index}), string: {string} \x7d)"

end FrozenValue

/-- The structures that a cell may have. -/
inductive StructureFact where
  /-- any structure -/
  | top
  | known (set : StructureSet)
deriving DecidableEq, Inhabited, Repr

namespace StructureFact

def singleton (id : StructureId) : StructureFact := .known (.singleton id)

def isTop : StructureFact → Bool
  | .top => true
  | .known _ => false

def isSubsetOf (f : StructureFact) (set : StructureSet) : Bool :=
  match f with
  | .top => false
  | .known s => s.isSubsetOf set

/-- The structure, if there is only one. -/
def only? : StructureFact → Option StructureId
  | .top => none
  | .known s => s.only?

/-- No structure is possible. -/
def isClear : StructureFact → Bool
  | .top => false
  | .known s => s.isEmpty

/-- The union, given up when it has more than `limit` members; and whether the fact changed. -/
def merge (limit : Nat) : StructureFact → StructureFact → StructureFact × Bool
  | .top, _ => (.top, false)
  | .known _, .top => (.top, true)
  | .known mine, .known theirs =>
    let (s, changed) := mine.merge theirs
    if limit < s.size then (.top, true) else (.known s, changed)

def filter (set : StructureSet) : StructureFact → StructureFact
  | .top => .known set
  | .known s => .known (s.filter set).1

end StructureFact

/-- What is known of a value. -/
structure AbstractValue where
  ty : SpecType := .none
  structures : StructureFact := .known .empty
  value : Option FrozenValue := none
deriving DecidableEq, Inhabited, Repr

namespace AbstractValue

/-- No value is possible. -/
def bottom : AbstractValue := {}

def ofType (ty : SpecType) : AbstractValue := { ty, structures := .top }

/-- Nothing is known. -/
def top : AbstractValue := ofType .fullTop

def withStructure (ty : SpecType) (id : StructureId) : AbstractValue :=
  { ty, structures := .singleton id }

/-- Exactly one value is possible. -/
def constant (registry : Registry) (value : FrozenValue) : AbstractValue where
  ty := value.specType registry
  structures :=
    match value with
    | .cell c => .singleton c.structureId
    | _ => .top
  value := some value

variable (v : AbstractValue)

def isBottom : Bool := v.ty.isEmpty

/-- Every possible value is of the given kinds. -/
def isType (mask : SpecType) : Bool := v.ty.isSubsetOf mask

/-- No possible value is of the given kinds. -/
def isNotType (mask : SpecType) : Bool := !v.ty.overlaps mask

def asInt32? : Option Int32 := v.value.bind FrozenValue.asInt32?

/-- The value as a condition, if all possible values agree. -/
def truthy? : Option Bool :=
  match v.value.bind FrozenValue.truthy? with
  | some b => some b
  | none => if v.ty.isOther then some false else none

/-- The union of two facts, and whether the first one changed. -/
def merge (limit : Nat) (v other : AbstractValue) : AbstractValue × Bool :=
  if other.isBottom then (v, false)
  else if v.isBottom then (other, true)
  else
    let ty := v.ty ||| other.ty
    let (structures, structuresChanged) := v.structures.merge limit other.structures
    let dropped := v.value.isSome && v.value != other.value
    ({ ty, structures, value := if dropped then none else v.value },
      ty != v.ty || structuresChanged || dropped)

/-- The constant can be of one of the given kinds, as far as the constant itself tells. -/
def constantMatches (ty mask : SpecType) : FrozenValue → Bool
  | .cell _ => ty.overlaps .cell
  | c => (c.specType {}).overlaps mask

/-- Restricts the value to the given kinds. A contradiction gives a fact without kinds. -/
def filter (mask : SpecType) : AbstractValue :=
  let ty := v.ty &&& mask
  let possible := v.value.all (constantMatches ty mask)
  let ty := if possible then ty else .none
  { ty
    structures := if ty.overlaps .cell then v.structures else .top
    value := if possible then v.value else none }

/-- Restricts the value to cells with the given structures. -/
def filterStructures (set : StructureSet) : AbstractValue :=
  let structures := v.structures.filter set
  { v with ty := if structures.isClear then .none else v.ty &&& .cell, structures }

/-- Restricts the value to one constant. -/
def filterValue (registry : Registry) (c : FrozenValue) : AbstractValue :=
  if v.value.any (· != c) then { v with ty := .none }
  else
    let exact := constant registry c
    let v := { v with ty := v.ty &&& exact.ty }
    if v.isBottom then v
    else
      match exact.structures with
      | .top => { v with value := some c }
      | .known set =>
        let v := v.filterStructures set
        if v.isBottom then v else { v with value := some c }

/-- Forgets the structures of cells. -/
def clobberStructures : AbstractValue :=
  if v.ty.overlaps .cell then { v with structures := .top } else v

/-- Text that shows the fact. -/
def text : String :=
  let structures := match v.structures with
    | .known set =>
      if v.ty.overlaps .cell then
        let ids := ", ".intercalate (set.ids.map fun (id : StructureId) => toString id.index)
        s!", structures [{ids}]"
      else ""
    | .top => ""
  let value := match v.value with
    | some c => s!", {c.debug}"
    | none => ""
  s!"({v.ty}{structures}{value})"

end AbstractValue

end SpecJit
