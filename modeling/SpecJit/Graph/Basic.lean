import SpecJit.Fault
import SpecJit.Liveness
import SpecJit.Op.Codec

/-!
# Graphs

A graph is a control-flow graph of basic blocks whose nodes are listed in one table. A node names
the nodes it uses by their place in the table, each use with its kind. The last node of a block is
its terminal and names the blocks control goes to.
-/

namespace SpecJit

/-- A use of a node. -/
structure Edge where
  node : NodeId
  useKind : UseKind := .untyped
  /-- the value is not used again -/
  kill : Bool := false
deriving DecidableEq, Hashable, Inhabited, Repr

instance : Encode Edge where
  encode e := .obj [("node", encode e.node), ("use_kind", encode e.useKind),
    ("kill", encode e.kill)]

instance : Decode Edge where
  decode j := do
    let f ← Json.fields? ["node", "use_kind", "kill"] j
    return { node := ← f.get "node", useKind := ← f.get "use_kind", kill := ← f.get "kill" }

/-- The form in which a node yields its value. -/
inductive NodeResult where
  | none
  | boolean
  | int32
  | int52
  | double
  | cell
  | jsValue
  | storage
deriving DecidableEq, Hashable, Inhabited, Repr

namespace NodeResult

def all : List NodeResult := [.none, .boolean, .int32, .int52, .double, .cell, .jsValue, .storage]

def name : NodeResult → String
  | .none => "None"
  | .boolean => "Boolean"
  | .int32 => "Int32"
  | .int52 => "Int52"
  | .double => "Double"
  | .cell => "Cell"
  | .jsValue => "JsValue"
  | .storage => "Storage"

/-- The types that the form can hold. -/
def typeBound : NodeResult → SpecType
  | .none | .storage => .none
  | .boolean => .boolean
  | .int32 => .int32
  | .int52 => .machineInt
  | .double => .fullDouble
  | .cell => .cell
  | .jsValue => .bytecodeTop

instance : Encode NodeResult := ⟨fun r => .str r.name⟩
instance : Decode NodeResult := ⟨Json.enum? all name⟩

end NodeResult

/-- A node of the graph. -/
structure Node where
  op : Op
  children : List Edge := []
  result : NodeResult := .none
  origin : CodeOrigin := {}
  /-- what profiling expects of the value -/
  prediction : SpecType := .heapTop
deriving Inhabited

namespace Node

def hasResult (n : Node) : Bool := n.result != .none

/-- The `i`-th use. -/
def child (n : Node) (i : Nat) : Except Fault Edge := Fault.ofOption n.children[i]?

instance : Encode Node where
  encode n :=
    .obj [("op", encode n.op), ("children", encode n.children), ("result", encode n.result),
    ("origin", encode n.origin), ("prediction", encode n.prediction)]

instance : Decode Node where
  decode j := do
    let f ← Json.fields? ["op", "children", "result", "origin", "prediction"] j
    return {
      op := ← f.get "op"
      children := ← f.get "children"
      result := ← f.get "result"
      origin := ← f.get "origin"
      prediction := ← f.get "prediction" }

end Node

/-- A basic block: its nodes in order, the terminal last. -/
structure BasicBlock where
  index : BlockIndex
  nodes : Array NodeId := #[]
  predecessors : List BlockIndex := []
deriving DecidableEq, Inhabited, Repr

instance : Encode BasicBlock where
  encode b :=
    .obj [("index", encode b.index), ("nodes", encode b.nodes),
      ("predecessors", encode b.predecessors)]

instance : Decode BasicBlock where
  decode j := do
    let f ← Json.fields? ["index", "nodes", "predecessors"] j
    return {
      index := ← f.get "index"
      nodes := ← f.get "nodes"
      predecessors := ← f.getD "predecessors" [] }

/-- The graph of one function. -/
structure Graph where
  name : String
  nodes : Array Node := #[]
  blocks : Array BasicBlock := #[]
  numArguments : Nat
  numLocals : Nat
  /-- property names -/
  identifiers : Array String := #[]
  structures : Registry := {}
  liveness : Liveness := {}
deriving Inhabited

namespace Graph

variable (g : Graph)

def node? (id : NodeId) : Option Node := g.nodes[id.index]?

def node (id : NodeId) : Except Fault Node := Fault.ofOption (g.node? id)

def block? (b : BlockIndex) : Option BasicBlock := g.blocks[b.index]?

def block (b : BlockIndex) : Except Fault BasicBlock := Fault.ofOption (g.block? b)

def blockIndices : List BlockIndex := (List.range g.blocks.size).map BlockIndex.mk

/-- The last node of a block, if it is a terminal. -/
def terminal? (b : BlockIndex) : Option NodeId := do
  let last ← (← g.block? b).nodes.back?
  if ((← g.node? last).op).isTerminal then some last else none

/-- The blocks that control may go to from a block. -/
def successors (b : BlockIndex) : List BlockIndex :=
  match (g.terminal? b).bind g.node? with
  | some t => t.op.successors
  | none => []

/-- The phi nodes of a block. -/
def phis (b : BlockIndex) : Except Fault (List NodeId) := do
  (← g.block b).nodes.toList.filterM fun id => do
    match (← g.node id).op with
    | .phi => return true
    | _ => return false

/-- The text of a property name. -/
def identifier (i : IdentifierIndex) : String := (g.identifiers[i.index]?).getD "<unknown>"

def isLiveInBytecode (operand : Operand) (origin : CodeOrigin) : Bool :=
  g.liveness.isLive origin operand

/-- Every terminal position of a block names a node of the table. -/
def lastNodesExist : Bool :=
  g.blocks.all fun b =>
    match b.nodes.back? with
    | some last => (g.node? last).isSome
    | none => true

/-- The blocks before `b`, in the order of their indices. -/
def predecessorsOf (b : BlockIndex) : List BlockIndex :=
  g.blockIndices.filter fun p => (g.successors p).contains b

/-- Computes the predecessors of every block anew. -/
def computePredecessors : Except Fault Graph :=
  if g.lastNodesExist then
    let blocks := g.blocks.mapIdx fun i b => { b with predecessors := g.predecessorsOf ⟨i⟩ }
    .ok { g with blocks }
  else .error .outOfRange

end Graph

end SpecJit
