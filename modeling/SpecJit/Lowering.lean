import SpecJit.Capability
import SpecJit.Lowering.Node

/-!
# Lowering of graphs

`Graph.lower` turns a graph into a function in low-level form, with its exits and inline caches. The
function starts in an entry block that reads the context and the frame; block `b` of the graph
becomes block `b + 1`, with a parameter for each phi.

A graph that `Graph.canCompile` accepts is lowered by `Graph.compile`; without that check the
lowering may stop with a crash.
-/

namespace SpecJit

open Lir

/-- A graph in low-level form. -/
structure LoweredFunction where
  lir : Lir.Function
  exits : ExitTable
  caches : InlineCacheTable
  stats : Lowering.Stats
deriving Inhabited

namespace Node

/-- A use that only informs exits, or only checks. -/
def usesForExits (n : Node) : Bool :=
  match n.op with
  | .movHint _ | .putHint _ | .phantom | .check => true
  | _ => false

/-- An int32 addition or subtraction that cannot leave. -/
def isPlainSum (n : Node) : Bool :=
  match n.op with
  | .arith .add mode | .arith .sub mode =>
    !mode.checksOverflow && n.result == .int32 && n.children.all fun e => e.useKind.isInt32
  | _ => false

end Node

namespace Graph

variable (g : Graph)

/-- Some node needs the value of `id` for more than an exit. -/
def isNeededByCode (id : NodeId) : Bool :=
  g.nodes.any fun n => !n.usesForExits && n.children.any fun e => e.node = id

/-- The sums that no code needs; an exit that does redoes them. -/
def exitOnlyNodes : List NodeId :=
  ((List.range g.nodes.size).map NodeId.mk).filter fun id =>
    (g.node? id).any Node.isPlainSum && !g.isNeededByCode id

end Graph

namespace Lowering

/-! ## Setting up -/

/-- Adds a low-level block for a block of the graph, with a parameter for each phi. -/
def declareBlock (g : Graph) (params : List (NodeId × Reg)) (b : BlockIndex) :
    Emit (List (NodeId × Reg)) := do
  let block ← Emit.createBlock false
  (← g.phis b).foldlM (fun params phi => do
    return (phi, ← Emit.blockParam block (← g.node phi).result.machineType) :: params) params

/-- What the entry block and the block parameters hold. -/
structure Prologue where
  context : Reg
  frame : Reg
  phiParams : List (NodeId × Reg)

/-- The entry block, and an empty block for each block of the graph. -/
def prologue (g : Graph) : Emit Prologue := do
  let context ← Emit.context
  let frame ← Emit.frame
  let phiParams ← g.blockIndices.foldlM (declareBlock g) []
  if !g.blocks.isEmpty then Emit.jump ⟨1⟩ []
  return { context, frame, phiParams }

/-- A lowering under way. -/
structure Session where
  env : Env
  state : State

namespace Session

/-- Runs the analyses and sets up the blocks. -/
def start (g : Graph) (options : LoweringOptions) (layout : ObjectLayout) :
    Except Fault Session := do
  let dominators := Dominators.compute g
  let facts ← AbstractState.fixpoint g options.maxStructureSetSize
  let availabilityHeads ← AvailabilityMap.blockHeads g
  let (p, builder) ← (prologue g).run (Builder.start g.name)
  let caches : InlineCacheTable := { varargsOutgoingSlots := ← g.varargsOutgoingSlots }
  return {
    env := {
      graph := g, options, layout, dominators, availabilityHeads
      phiParams := p.phiParams, exitOnly := g.exitOnlyNodes, context := p.context, frame :=
        p.frame }
    state := { builder, facts, availability := .empty g, caches } }

end Session

/-! ## Blocks -/

/-- Lowers nodes in order until control cannot go on. -/
def lowerNodes : List NodeId → Lower Unit
  | [] => return ()
  | id :: rest => do
    if (← get).facts.valid then
      lowerNode id
      lowerNodes rest

/-- Lowers a block that control reaches. -/
def lowerReachedBlock (b : BlockIndex) : Lower Unit := do
  let env ← read
  let facts ← check ((← get).facts.beginBlock b)
  let availability := AvailabilityMap.headOrEmpty env.graph env.availabilityHeads b
  modify fun s => { s with facts, availability }
  lowerNodes (← env.graph.block b).nodes.toList
  if !(← Emit.isTerminated) then
    if (← get).facts.valid then crash .fellThrough
    endUnreachable

/-- Lowers a block, unless that is done. A block that control does not reach, or whose facts were
given up, gets no code. -/
def lowerBlock (b : BlockIndex) : Lower Unit := do
  match (← read).bodyBlock b with
  | .error _ => crash (.missingBlock b)
  | .ok target =>
    Emit.switchTo target
    if ← Emit.isTerminated then return
    modify fun s => { s with block := b, node := none, upsilons := [] }
    let facts := (← get).facts
    if !(← facts.isVisited b) || (← facts.needsReverification b) then
      countStats fun st => { st with unreachableBlocks := st.unreachableBlocks + 1 }
      Emit.unreachable
    else lowerReachedBlock b

/-- Lowers every reachable block, each after its dominators. -/
def lowerAll : Lower Unit := do (← read).dominators.preOrder.forM lowerBlock

namespace Session

/-- Takes a step of the lowering. -/
def step (s : Session) (act : Lower Unit) : Except Failure Session := do
  let ((), state) ← act s.env s.state
  return { s with state }

/-- The function as it is. -/
def finish (s : Session) : LoweredFunction where
  lir := s.state.builder.func
  exits := s.state.exits
  caches := s.state.caches
  stats := s.state.stats

end Session

end Lowering

/-- Why a graph was not compiled. -/
inductive CompileFailure where
  | rejected (e : CompileError)
  | failed (f : Lowering.Failure)

namespace Graph

/-- The graph in low-level form. -/
def lower (g : Graph) (options : LoweringOptions) (layout : ObjectLayout) :
    Except Lowering.Failure LoweredFunction := do
  let s ← (Lowering.Session.start g options layout).mapError .fault
  return (← s.step Lowering.lowerAll).finish

/-- Checks that the graph can be compiled, and lowers it. -/
def compile (g : Graph) (options : LoweringOptions) (layout : ObjectLayout) :
    Except CompileFailure LoweredFunction := do
  g.canCompile.mapError .rejected
  (g.lower options layout).mapError .failed

end Graph

end SpecJit
