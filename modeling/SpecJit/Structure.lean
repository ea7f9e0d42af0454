import SpecJit.CellType
import SpecJit.Operand

/-!
# Structures

A structure describes the layout of a family of cells: their type, their flags and where each
property is stored. `Registry` holds the structures of a program by id, and `StructureSet` is a
set of ids kept in ascending order.
-/

namespace SpecJit

/-- Name of a structure. -/
structure StructureId where
  index : Nat
deriving DecidableEq, Hashable, Ord, Inhabited, Repr

instance : Encode StructureId := ⟨fun n => encode n.index⟩
instance : Decode StructureId := ⟨fun j => (decode j).map StructureId.mk⟩

/-- Where a property is stored: in the cell itself below `firstOutOfLine`, else in the butterfly. -/
structure PropertyOffset where
  index : Nat
deriving DecidableEq, Hashable, Inhabited, Repr

namespace PropertyOffset

def firstOutOfLine : Nat := 100

def isInline (o : PropertyOffset) : Bool := o.index < firstOutOfLine

/-- The place among the out-of-line properties, for an offset that is not inline. -/
def outOfLineIndex (o : PropertyOffset) : Nat := o.index - firstOutOfLine

instance : Encode PropertyOffset := ⟨fun n => encode n.index⟩
instance : Decode PropertyOffset := ⟨fun j => (decode j).map PropertyOffset.mk⟩

end PropertyOffset

/-- A property of a structure. -/
structure PropertyEntry where
  identifier : IdentifierIndex
  offset : PropertyOffset
deriving DecidableEq, Hashable, Inhabited, Repr

instance : Encode PropertyEntry where
  encode e := .obj [("identifier", encode e.identifier), ("offset", encode e.offset)]

instance : Decode PropertyEntry where
  decode j := do
    let f ← Json.fields? ["identifier", "offset"] j
    return { identifier := ← f.get "identifier", offset := ← f.get "offset" }

/-- The layout of a family of cells. -/
structure Structure where
  id : StructureId
  cellType : CellType
  indexing : IndexingType := ⟨0⟩
  flags : TypeInfoFlags := {}
  /-- property slots in the cell itself -/
  inlineCapacity : Nat := 0
  properties : List PropertyEntry := []
deriving DecidableEq, Inhabited, Repr

namespace Structure

def offsetOf? (s : Structure) (identifier : IdentifierIndex) : Option PropertyOffset :=
  (s.properties.find? fun e => e.identifier == identifier).map (·.offset)

/-- The number of properties stored in the butterfly. -/
def outOfLineSize (s : Structure) : Nat := s.properties.countP fun e => !e.offset.isInline

instance : Encode Structure where
  encode s := .obj [("id", encode s.id), ("cell_type", encode s.cellType),
    ("indexing", encode s.indexing), ("flags", encode s.flags),
    ("inline_capacity", encode s.inlineCapacity), ("properties", encode s.properties)]

instance : Decode Structure where
  decode j := do
    let f ← Json.fields? ["id", "cell_type", "indexing", "flags", "inline_capacity", "properties"] j
    return {
      id := ← f.get "id"
      cellType := ← f.get "cell_type"
      indexing := ← f.get "indexing"
      flags := ← f.get "flags"
      inlineCapacity := ← f.get "inline_capacity"
      properties := ← f.get "properties" }

end Structure

/-- The structures of a program, by id. -/
structure Registry where
  slots : Array (Option Structure) := #[]
deriving Inhabited, Repr

namespace Registry

/-- Adds a structure under its id. -/
def insert (r : Registry) (s : Structure) : Registry :=
  let missing := s.id.index + 1 - r.slots.size
  ⟨(r.slots ++ Array.replicate missing none).setIfInBounds s.id.index (some s)⟩

def get? (r : Registry) (id : StructureId) : Option Structure := r.slots[id.index]?.join

/-- The structures in the order of their ids. -/
def toList (r : Registry) : List Structure := r.slots.toList.filterMap id

def ofList (l : List Structure) : Registry := l.foldl insert {}

instance : Encode Registry := ⟨fun r => .obj [("structures", encode r.slots)]⟩

instance : Decode Registry where
  decode j := do
    let f ← Json.fields? ["structures"] j
    return { slots := ← f.get "structures" }

end Registry

/-- A set of structure ids. All operations keep the ids ascending; a set that was read is taken as
it is. -/
structure StructureSet where
  ids : List StructureId := []
deriving DecidableEq, Hashable, Inhabited, Repr

namespace StructureSet

def empty : StructureSet := {}

def singleton (id : StructureId) : StructureSet := ⟨[id]⟩

/-- Halves a window of `size` ids that starts at `base` until one is left; in an ascending list that
is the last one of the window not above `id`, or the first if there is none. -/
def narrow (ids : List StructureId) (id : StructureId) (base size : Nat) : Nat :=
  if 1 < size then
    let half := size / 2
    let above := ids[base + half]?.any fun x => id.index < x.index
    narrow ids id (if above then base else base + half) (size - half)
  else base
termination_by size

/-- Where `id` stands (`inl`), or where it belongs (`inr`). -/
def search (s : StructureSet) (id : StructureId) : Nat ⊕ Nat :=
  let base := narrow s.ids id 0 s.ids.length
  match s.ids[base]? with
  | none => .inr 0
  | some found =>
    if found = id then .inl base else if found.index < id.index then .inr (base + 1) else .inr base

/-- Adds an id, and tells whether it is new. -/
def insert (s : StructureSet) (id : StructureId) : StructureSet × Bool :=
  match s.search id with
  | .inl _ => (s, false)
  | .inr place => (⟨s.ids.insertIdx place id⟩, true)

def ofList (ids : List StructureId) : StructureSet := ids.foldl (fun s id => (s.insert id).1) {}

def contains (s : StructureSet) (id : StructureId) : Bool := (s.search id).isLeft

def size (s : StructureSet) : Nat := s.ids.length

def isEmpty (s : StructureSet) : Bool := s.ids.isEmpty

/-- The member of a set with one member. -/
def only? (s : StructureSet) : Option StructureId :=
  match s.ids with
  | [id] => some id
  | _ => none

/-- Adds the members of `other`, and tells whether one of them is new. -/
def merge (s other : StructureSet) : StructureSet × Bool :=
  other.ids.foldl (fun (s, changed) id => let (s, isNew) := s.insert id; (s, changed || isNew))
    (s, false)

/-- Keeps the members that are in `other`, and tells whether one was dropped. -/
def filter (s other : StructureSet) : StructureSet × Bool :=
  let kept := s.ids.filter other.contains
  (⟨kept⟩, s.ids.length != kept.length)

def isSubsetOf (s other : StructureSet) : Bool := s.ids.all other.contains

instance : Encode StructureSet := ⟨fun s => .obj [("ids", encode s.ids)]⟩

instance : Decode StructureSet where
  decode j := do
    let f ← Json.fields? ["ids"] j
    return { ids := ← f.get "ids" }

end StructureSet

end SpecJit
