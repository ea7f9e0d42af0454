import SpecJit.AbstractState
import SpecJit.Availability
import SpecJit.Lir.Builder
import SpecJit.Lowering.Crash
import SpecJit.Options
import SpecJit.Value

/-!
# The state of the lowering

The lowering goes through the blocks of a graph, each one after its dominators, and replays the
analyses while it emits code. `Env` is what stays the same, `State` what changes, and `Lower` the
monad of lowering steps; building steps of low-level code are lowering steps too.

Register `r` holds node `n` in form `f` once a step has recorded that. The record counts in the
blocks dominated by the one it was made in, and nothing is recorded inside the arms of a diamond,
whose registers are not defined on every path.
-/

namespace SpecJit.Lowering

open Lir

/-- Counts of what the lowering did. -/
structure Stats where
  nodesLowered : Nat := 0
  checksEmitted : Nat := 0
  /-- checks that the analyses proved -/
  checksElided : Nat := 0
  exits : Nat := 0
  /-- blocks that end in an exit that is always taken -/
  terminatedBlocks : Nat := 0
  unreachableBlocks : Nat := 0
deriving DecidableEq, Inhabited, Repr

/-- What stays the same during a lowering. -/
structure Env where
  graph : Graph
  options : LoweringOptions
  layout : ObjectLayout
  dominators : Dominators
  /-- where variables are at the heads of the reachable blocks -/
  availabilityHeads : Array (Option AvailabilityMap)
  /-- the block parameters that hold the phis -/
  phiParams : List (NodeId × Reg)
  /-- nodes that no code needs, only exits -/
  exitOnly : List NodeId
  context : Reg
  frame : Reg

/-- What changes during a lowering. -/
structure State where
  builder : Builder
  facts : AbstractState
  availability : AvailabilityMap
  /-- the register that holds a node in a form, and the block in which that was recorded; the last
  record of a form comes first -/
  values : List ((NodeId × Form) × Reg × BlockIndex) := []
  exits : ExitTable := {}
  caches : InlineCacheTable := {}
  stats : Stats := {}
  /-- the values for phis of the blocks that follow -/
  upsilons : List (NodeId × Reg) := []
  block : BlockIndex := ⟨0⟩
  node : Option NodeId := none
  origin : CodeOrigin := {}
  /-- how many arms of diamonds are open -/
  armDepth : Nat := 0

/-- Lowering steps. -/
abbrev Lower := ReaderT Env (StateT State (Except Failure))

/-- A building step as a lowering step. -/
def emit {α : Type} (step : Emit α) : Lower α := fun _ s =>
  let builder := s.builder
  let s := { s with builder := default }
  match step builder with
  | .ok (a, builder) => .ok (a, { s with builder })
  | .error f => .error (.fault f)

/-- A step on data that may be ill-formed. -/
def check {α : Type} : Except Fault α → Lower α
  | .ok a => pure a
  | .error f => throw (.fault f)

instance : MonadLiftT Emit Lower := ⟨emit⟩
instance : MonadLiftT (Except Fault) Lower := ⟨check⟩

/-- Stops the lowering. -/
def crash {α : Type} (cause : CrashCause) : Lower α := do
  let s ← get
  let g := (← read).graph
  let op := (s.node.bind g.node?).map (·.op.name)
  throw (.crash { function := g.name, block := s.block, node := s.node, op, cause })

/-! ## Looking at the graph and the facts -/

def getNode (id : NodeId) : Lower Node := do (← read).graph.node id

/-- The offset of a field in a cell. -/
def fieldOffset (field : CellField) : Lower Int := return (← read).layout.fieldOffset field

/-- What is known of a node at this point. -/
def factOf (id : NodeId) : Lower AbstractValue := do (← get).facts.factOf (← read).graph id

/-- The kinds of a node at this point. -/
def typeOfNode (id : NodeId) : Lower SpecType := do (← get).facts.typeOf (← read).graph id

/-- A structure of the graph. -/
def getStructure (id : StructureId) : Lower Structure := do
  match (← read).graph.structures.get? id with
  | some s => return s
  | none => crash (.unknownStructure id)

def countStats (f : Stats → Stats) : Lower Unit := modify fun s => { s with stats := f s.stats }

def elided : Lower Unit := countStats fun st => { st with checksElided := st.checksElided + 1 }

/-! ## Recorded values -/

/-- The register that holds a node in a form, if it is defined here. -/
def held? (id : NodeId) (form : Form) : Lower (Option Reg) := do
  let s ← get
  match s.values.lookup (id, form) with
  | none => return none
  | some (r, recorded) =>
    return if (← read).dominators.dominates recorded s.block then some r else none

/-- Records the register that holds a node in a form. -/
def record (id : NodeId) (form : Form) (r : Reg) : Lower Unit :=
  modify fun s =>
    if s.armDepth = 0 then
      let block := s.block
      { s with values := ((id, form), r, block) :: s.values }
    else s

/-- The node is held in some form somewhere. -/
def isRecorded (id : NodeId) : Lower Bool := do
  let values := (← get).values
  return [Form.int32, .int52, .strictInt52, .double, .boolean, .jsValue, .storage].any fun form =>
    (values.lookup (id, form)).isSome

/-- Records the result of a node. -/
def setResult (id : NodeId) (r : Reg) : Lower Unit := do
  match (← getNode id).result.form? with
  | some form => record id form r
  | none => crash (.noResult id)

/-! ## Control -/

/-- Lowers an arm of a diamond. -/
def inArm {α : Type} (arm : Lower α) : Lower α := do
  modify fun s => { s with armDepth := s.armDepth + 1 }
  let a ← arm
  modify fun s => { s with armDepth := s.armDepth - 1 }
  return a

/-- Computes one of two values, depending on a condition. -/
def diamond (ty : Ty) (cond : Reg) (weight : BranchWeight) (thenArm elseArm : Lower Reg) :
    Lower Reg := do
  let thenBlock ← Emit.createBlock false
  let elseBlock ← Emit.createBlock false
  let join ← Emit.createBlock false
  let result ← Emit.blockParam join ty
  Emit.branch cond thenBlock elseBlock weight
  inArm do
    Emit.switchTo thenBlock
    Emit.jump join [← thenArm]
    Emit.switchTo elseBlock
    Emit.jump join [← elseArm]
  Emit.switchTo join
  return result

/-- Does something if a condition holds. -/
def when (cond : Reg) (weight : BranchWeight) (arm : Lower Unit) : Lower Unit := do
  let thenBlock ← Emit.createBlock false
  let join ← Emit.createBlock false
  Emit.branch cond thenBlock join weight
  inArm do
    Emit.switchTo thenBlock
    arm
    if !(← Emit.isTerminated) then Emit.jump join []
  Emit.switchTo join

/-- The low-level block of a block of the graph; block 0 is the entry, which comes before all. -/
def Env.bodyBlock (env : Env) (b : BlockIndex) : Except Fault BlockId :=
  if b.index < env.graph.blocks.size then .ok ⟨b.index + 1⟩ else .error .outOfRange

/-- The values for the phis of a block that control goes to. -/
def phiArguments (target : BlockIndex) : Lower (List Reg) := do
  let upsilons := (← get).upsilons
  (← (← read).graph.phis target).mapM fun phi =>
    match upsilons.lookup phi with
    | some r => pure r
    | none => crash (.noUpsilon phi target)

/-- A block without parameters that leads to a block of the graph. -/
def successorBlock (target : BlockIndex) : Lower BlockId := do
  let args ← phiArguments target
  let block ← (← read).bodyBlock target
  if args.isEmpty then return block
  let here ← Emit.currentBlock
  let edge ← Emit.createBlock false
  Emit.switchTo edge
  Emit.jump block args
  Emit.switchTo here
  return edge

/-- Jumps to a block of the graph. -/
def jumpTo (target : BlockIndex) : Lower Unit := do
  let args ← phiArguments target
  Emit.jump (← (← read).bodyBlock target) args

/-- Gives up what is known in the blocks below this one. -/
def invalidateDominated : Lower Unit := do
  let env ← read
  let s ← get
  let below := env.graph.blockIndices.filter (env.dominators.strictlyDominates s.block)
  let facts ← check (below.foldlM (fun f b => f.markForReverification env.graph b) s.facts)
  set { s with facts }

/-- Ends a block that control does not leave. -/
def endUnreachable : Lower Unit := do
  Emit.unreachable
  modify fun s => { s with facts := s.facts.invalidate }
  invalidateDominated

/-! ## Calls of the runtime -/

def callHelper (helper : Helper) (args : List Reg) : Lower Reg := do
  if args.length = helper.paramCount then Emit.call helper args
  else crash (.wrongArity helper args.length)

/-- Tells the collector that a marked cell was written to. -/
def writeBarrier (cell : Reg) : Lower Unit := do
  let mark ← Emit.load8 cell (← fieldOffset .gcMark)
  let marked ← Emit.icmpImm .ne mark 0
  when marked .takenRare do
    let _ ← callHelper .writeBarrier [cell]

/-- The signed integer with the bits of a word. -/
def wordImm (w : Word) : Int := w.toInt64.toInt

end SpecJit.Lowering
