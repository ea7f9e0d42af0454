import SpecJit.Graph.Dominators

/-!
# Availability

Where an exit finds the value of each source variable: in a slot of the frame, in the node that
computed it, or both. For objects whose allocation was put off the same is tracked field by field.
The state at the head of each block is the meet over all paths that lead to it.
-/

namespace SpecJit

/-- A slot of the frame and the form of what it holds. -/
structure FlushedAt where
  slot : Operand
  format : FlushFormat
deriving DecidableEq, Hashable, Inhabited, Repr

/-- Where a value is. -/
structure Availability where
  flushed : Option FlushedAt := none
  node : Option NodeId := none
  /-- paths disagree on the slot -/
  conflicting : Bool := false
deriving DecidableEq, Hashable, Inhabited, Repr

namespace Availability

/-- Nowhere. -/
def unavailable : Availability := {}

def ofNode (node : NodeId) : Availability := { node := some node }

def inSlot (slot : Operand) (format : FlushFormat) (node : Option NodeId) : Availability :=
  { flushed := some ⟨slot, format⟩, node }

variable (a : Availability)

/-- The slot, if it holds a value. -/
def liveFlush? : Option FlushedAt := a.flushed.filter (·.format.isLive)

/-- The variable was declared dead. -/
def isDead : Bool := a.node.isNone && a.flushed.any (·.format == .dead)

/-- There is nothing to read the value from. -/
def isUnavailable : Bool := a.liveFlush?.isNone && a.node.isNone

/-- What two paths agree on. -/
def merge (other : Availability) : Availability where
  flushed := if a.flushed = other.flushed then a.flushed else none
  node := if a.node = other.node then a.node else none
  conflicting := a.conflicting || other.conflicting || a.flushed != other.flushed

end Availability

/-- A field of an object whose allocation was put off. -/
structure HeapField where
  allocation : NodeId
  location : PromotedLocation
deriving DecidableEq, Hashable, Inhabited, Repr

/-- The order of fields: by object, then by kind of field, then by index. -/
def HeapField.before (a b : HeapField) : Bool :=
  a.allocation.index < b.allocation.index || (a.allocation.index == b.allocation.index
    && (a.location.rank < b.location.rank || (a.location.rank == b.location.rank
      && a.location.index < b.location.index)))

/-- Where every variable and every field is. -/
structure AvailabilityMap where
  operands : Operands Availability
  /-- in the order of fields -/
  heap : List (HeapField × Availability) := []
deriving DecidableEq, Inhabited, Repr

namespace AvailabilityMap

/-- Nothing is available. -/
def empty (g : Graph) : AvailabilityMap where
  operands := .replicate g.numArguments g.numLocals .unavailable

/-- At the entry the arguments are boxed in their slots. -/
def atEntry (g : Graph) : AvailabilityMap where
  operands := (empty g).operands.map fun v a =>
    match v with
    | .arg _ => .inSlot v .jsValue none
    | .loc _ => a

variable (m : AvailabilityMap)

def get (v : Operand) : Availability := (m.operands.get? v).getD .unavailable

def setVariable (v : Operand) (a : Availability) : AvailabilityMap :=
  { m with operands := m.operands.set v a }

/-- Gives a field its entry. -/
def setField (key : HeapField) (a : Availability) : AvailabilityMap :=
  { m with heap :=
      m.heap.filter (fun e => e.1.before key) ++ [(key, a)] ++ m.heap.filter fun e =>
        key.before e.1 }

/-- The fields of an object, in their order. -/
def fieldsOf (allocation : NodeId) : List (PromotedLocation × Availability) :=
  (m.heap.filter fun e => e.1.allocation == allocation).map fun e => (e.1.location, e.2)

/-- The operands that a spread of arguments writes, as far as the frame has them. -/
def spreadLocals (first limit numLocals : Nat) : List Operand :=
  (List.range (min limit (numLocals - first))).map fun i => .loc (first + i)

/-- The effect of spreading arguments over the frame. -/
def spread (d : LoadVarargsData) : Except Fault AvailabilityMap :=
  let m := m.setVariable d.count (.inSlot d.count .int32 none)
  match d.start with
  | .arg _ => .ok m
  | .loc first =>
    if 0 < d.limit ∧ 0x100000000 < first + d.limit then .error .overflow
    else
      .ok ((spreadLocals first d.limit m.operands.locals.size).foldl
        (fun m v => m.setVariable v (.inSlot v .jsValue none)) m)

/-- The effect of a node. -/
def execute (g : Graph) (id : NodeId) : Except Fault AvailabilityMap := do
  let node ← g.node id
  match node.op with
  | .setArgument v => return m.setVariable v (.inSlot v .jsValue none)
  | .movHint v => return m.setVariable v (.ofNode (← node.child 0).node)
  | .zombieHint v => return m.setVariable v (.inSlot v .dead none)
  | .putStack d =>
    return m.setVariable d.operand (.inSlot d.slot d.format (some (← node.child 0).node))
  | .killStack v =>
    match m.operands.get? v with
    | some a => return m.setVariable v { a with flushed := none }
    | none => return m
  | .putHint location =>
    return m.setField ⟨(← node.child 0).node, location⟩ (.ofNode (← node.child 1).node)
  | .loadVarargs d | .forwardVarargs d => m.spread d
  | .phantomAllocation _ => return { m with heap := m.heap.filter fun e => e.1.allocation != id }
  | _ => return m

def executeAll (g : Graph) (ids : List NodeId) : Except Fault AvailabilityMap :=
  ids.foldlM (fun m id => m.execute g id) m

/-- What the state and a predecessor's state agree on. -/
def merge (other : AvailabilityMap) : AvailabilityMap where
  operands := m.operands.map fun v a => a.merge (other.get v)
  heap := m.heap.filterMap fun (key, a) => (other.heap.lookup key).map fun b => (key, a.merge b)

/-! ## Block heads -/

/-- Hands the state at the end of a block to a successor, and tells whether that changed anything.
-/
def flow (tail : AvailabilityMap) (s : Array (Option AvailabilityMap) × Bool) (succ : BlockIndex) :
    Array (Option AvailabilityMap) × Bool :=
  let (heads, changed) := s
  match heads[succ.index]?.join with
  | none => (heads.setIfInBounds succ.index (some tail), true)
  | some head =>
    let merged := head.merge tail
    (heads.setIfInBounds succ.index (some merged), changed || merged != head)

/-- Executes a block and hands its state on. -/
def flowBlock (g : Graph) (s : Array (Option AvailabilityMap) × Bool) (b : BlockIndex) :
    Except Fault (Array (Option AvailabilityMap) × Bool) := do
  match s.1[b.index]?.join with
  | none => return s
  | some head =>
    let tail ← head.executeAll g (← g.block b).nodes.toList
    let succs := g.successors b
    if succs.any fun t => g.blocks.size ≤ t.index then throw .outOfRange
    return succs.foldl (flow tail) s

/-- Goes over the blocks until nothing changes; the first argument bounds the rounds. -/
def settle (g : Graph) (order : List BlockIndex) :
    Nat → Array (Option AvailabilityMap) → Except Fault (Array (Option AvailabilityMap))
  | 0, heads => .ok heads
  | rounds + 1, heads => do
    let (heads, changed) ← order.foldlM (flowBlock g) (heads, false)
    if changed then settle g order rounds heads else return heads

/-- Every round but the last one reaches a block, drops a field, or gives up a slot, a node or the
agreement on a slot. -/
def maxRounds (g : Graph) : Nat :=
  g.blocks.size * (1 + 4 * (g.numArguments + g.numLocals + g.nodes.size)) + 1

/-- The state at the head of every reachable block. -/
def blockHeads (g : Graph) : Except Fault (Array (Option AvailabilityMap)) :=
  settle g g.reversePostorder (maxRounds g)
    ((Array.replicate g.blocks.size none).setIfInBounds 0 (some (atEntry g)))

/-- The state at the head of a block; nothing is available in a block that is never reached. -/
def headOrEmpty (g : Graph) (heads : Array (Option AvailabilityMap)) (b : BlockIndex) :
    AvailabilityMap :=
  heads[b.index]?.join.getD (empty g)

end AvailabilityMap

end SpecJit
