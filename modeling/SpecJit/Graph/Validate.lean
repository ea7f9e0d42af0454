import SpecJit.Graph.Basic

/-!
# Well-formed graphs

`Graph.validate` accepts a graph when every block ends in its only terminal and every name used in
a block exists. Blocks are examined in order; within a block first the nodes, then the place of the
terminal, then its targets.
-/

namespace SpecJit

/-- What is wrong with a graph. -/
inductive GraphError where
  | emptyGraph
  | danglingNode (user node : NodeId)
  | invalidBlockTarget (block target : BlockIndex)
  | missingTerminal (block : BlockIndex)
  | terminalNotLast (block : BlockIndex) (node : NodeId)
  | missingChildren (node : NodeId) (op : String) (expected actual : Nat)
deriving DecidableEq, Inhabited, Repr

namespace GraphError

def kind : GraphError → String
  | .emptyGraph => "EmptyGraph"
  | .danglingNode _ _ => "DanglingNode"
  | .invalidBlockTarget _ _ => "InvalidBlockTarget"
  | .missingTerminal _ => "MissingTerminal"
  | .terminalNotLast _ _ => "TerminalNotLast"
  | .missingChildren _ _ _ _ => "MissingChildren"

def message : GraphError → String
  | .emptyGraph => "Graph has no blocks"
  | .danglingNode user node => s!"Node {user} refers to missing node {node}"
  | .invalidBlockTarget block target => s!"Block {block} branches to missing block {target}"
  | .missingTerminal block => s!"Block {block} has no terminal"
  | .terminalNotLast block node => s!"Terminal {node} is not last in block {block}"
  | .missingChildren node op expected actual =>
    s!"Node {node} ({op}) needs {expected} children, has {actual}"

end GraphError

namespace Graph

variable (g : Graph)

/-- The name refers to a node of the table. -/
def hasNode (id : NodeId) : Bool := id.index < g.nodes.size

/-- The nodes that a node names: its uses, and for an upsilon its phi. -/
def namedBy (n : Node) : List NodeId :=
  n.children.map (·.node) ++ (match n.op with | .upsilon phi => [phi] | _ => [])

/-- Checks a node that a block lists. -/
def checkListed (id : NodeId) : Except GraphError Unit :=
  match g.node? id with
  | none => .error (.danglingNode id id)
  | some n =>
    match (namedBy n).find? fun used => !g.hasNode used with
    | some missing => .error (.danglingNode id missing)
    | none =>
      if n.children.length < n.op.minChildren then
        .error (.missingChildren id n.op.name n.op.minChildren n.children.length)
      else .ok ()

def isTerminalNode (id : NodeId) : Bool := (g.node? id).any (·.op.isTerminal)

/-- Checks one block. -/
def checkBlock (b : BasicBlock) : Except GraphError Unit := do
  match b.nodes.back? with
  | none => throw (.missingTerminal b.index)
  | some last =>
    b.nodes.toList.forM g.checkListed
    match b.nodes.pop.toList.find? g.isTerminalNode with
    | some early => throw (.terminalNotLast b.index early)
    | none =>
      if !g.isTerminalNode last then throw (.missingTerminal b.index)
      match (((g.node? last).map (·.op.successors)).getD []).find? fun t =>
        g.blocks.size ≤ t.index with
      | some target => throw (.invalidBlockTarget b.index target)
      | none => return ()

/-- Checks the whole graph and reports the first thing that is wrong. -/
def validate : Except GraphError Unit :=
  if g.blocks.isEmpty then .error .emptyGraph else g.blocks.toList.forM g.checkBlock

end Graph

end SpecJit
