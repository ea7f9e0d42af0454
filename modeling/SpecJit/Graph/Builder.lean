import SpecJit.Graph.Validate

/-!
# Building graphs node by node
-/

namespace SpecJit

/-- A graph under construction; new nodes get the current origin and prediction. -/
structure GraphBuilder where
  graph : Graph
  origin : CodeOrigin := {}
  prediction : SpecType := .heapTop
deriving Inhabited

namespace GraphBuilder

/-- A graph with an empty entry block. -/
def start (name : String) (numArguments numLocals : Nat) : GraphBuilder where
  graph := { name, numArguments, numLocals, blocks := #[{ index := ⟨0⟩ }] }

variable (b : GraphBuilder)

/-- The block where control starts. -/
def entry : BlockIndex := ⟨0⟩

/-- Adds an empty block. -/
def block : BlockIndex × GraphBuilder :=
  let index : BlockIndex := ⟨b.graph.blocks.size⟩
  (index, { b with graph := { b.graph with blocks := b.graph.blocks.push { index } } })

def setOrigin (bytecodeIndex : Nat) : GraphBuilder := { b with origin := ⟨bytecodeIndex⟩ }

def setPrediction (prediction : SpecType) : GraphBuilder := { b with prediction }

/-- Appends a node to a block. -/
def add (block : BlockIndex) (op : Op) (children : List Edge) (result : NodeResult) :
    Except Fault (NodeId × GraphBuilder) :=
  let id : NodeId := ⟨b.graph.nodes.size⟩
  let node : Node := { op, children, result, origin := b.origin, prediction := b.prediction }
  if block.index < b.graph.blocks.size then
    let blocks := b.graph.blocks.modify block.index fun bb => { bb with nodes := bb.nodes.push id }
    .ok (id, { b with graph := { b.graph with nodes := b.graph.nodes.push node, blocks } })
  else .error .outOfRange

/-- The index of a property name, which is added if it is new. -/
def identifier (name : String) : IdentifierIndex × GraphBuilder :=
  match b.graph.identifiers.findIdx? (· == name) with
  | some i => (⟨i⟩, b)
  | none =>
    (⟨b.graph.identifiers.size⟩,
      { b with graph := { b.graph with identifiers := b.graph.identifiers.push name } })

def addStructure (s : Structure) : GraphBuilder :=
  { b with graph := { b.graph with structures := b.graph.structures.insert s } }

def liveAt (bytecodeIndex : Nat) (operands : List Operand) : GraphBuilder :=
  { b with graph := { b.graph with liveness := b.graph.liveness.setLive bytecodeIndex operands } }

/-- The finished graph, or what is wrong with it. -/
def build : Except Fault (Except GraphError Graph) := do
  let g ← b.graph.computePredecessors
  return g.validate.map fun _ => g

end GraphBuilder

end SpecJit
