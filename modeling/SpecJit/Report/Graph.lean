import SpecJit.AbstractState
import SpecJit.Availability
import SpecJit.Graph.Codec
import SpecJit.Report.Basic

/-!
# Reports on graphs and their analyses
-/

namespace SpecJit.Report

/-- A graph in its interchange form, with the live variables of each position sorted. -/
def graph (g : Graph) : Json :=
  let sorted (l : List Operand) : List Operand :=
    let key : Operand → Nat × Nat
      | .arg i => (0, i)
      | .loc i => (1, i)
    l.mergeSort fun a b => (key a).1 < (key b).1 ||
      ((key a).1 == (key b).1 && (key a).2 ≤ (key b).2)
  encode { g with liveness := ⟨g.liveness.entries.map fun (i, l) => (i, sorted l)⟩ }

/-- A block with its place in the control flow. -/
def block (g : Graph) (d : Dominators) (b : BlockIndex) : Except Fault Json := do
  let data ← g.block b
  let phis ← g.phis b
  return .obj [("predecessors", encode data.predecessors), ("successors", encode (g.successors b)),
    ("terminal", encode (g.terminal? b)), ("phis", encode phis),
    ("reachable", encode (d.isReachable b)),
    ("idom", encode (d.idom? b)), ("children", encode (d.children b)),
    ("rpo", encode (d.number? b)),
    ("dominates", encode (g.blockIndices.filter (d.dominates b))),
    ("strictly", encode (g.blockIndices.filter (d.strictlyDominates b)))]

/-- Whether a variable is live at a position. -/
def live (g : Graph) (origin : CodeOrigin) (v : Operand) : Json :=
  .arr [encode (g.isLiveInBytecode v origin), encode (g.liveness.hasEntry origin), shown origin]

def arrayMode (m : ArrayMode) : Json :=
  .obj [("butterfly", encode m.usesButterfly), ("shape", encode m.indexingShape?),
    ("type", option specType m.provenType?), ("cell_type", encode m.checkedCellType?)]

def node (n : Node) : Json :=
  let arith := match n.op with
    | .arith .add m | .arith .sub m | .arith .mul m | .arith .div m =>
      [("arith", Json.arr [encode m.checksOverflow, encode m.checksNegativeZero])]
    | _ => []
  let array := match n.op with
    | .checkArray m | .getByVal m | .putByVal m => [("array", arrayMode m)]
    | _ => []
  .obj ([("name", .str n.op.name), ("terminal", encode n.op.isTerminal),
    ("successors", encode n.op.successors),
    ("phantom", encode n.op.isPhantomAllocation), ("clobbers", encode n.op.clobbersWorld),
    ("hint", encode n.op.isHint), ("has_result", encode n.hasResult),
    ("bound", specType n.result.typeBound),
    ("node", encode n)] ++ arith ++ array)

/-! ## Facts -/

def structureFact : StructureFact → Json
  | .top => .str "Top"
  | .known s => encode s.ids

/-- An abstract value after an operation on it. -/
def abstractValue (result : Json) (v : AbstractValue) : Json :=
  .obj [("result", result), ("type", specType v.ty), ("structures", structureFact v.structures),
    ("value", encode v.value), ("bottom", encode v.isBottom), ("int32", encode v.asInt32?),
    ("truthy", encode v.truthy?), ("only", encode v.structures.only?),
    ("clear", encode v.structures.isClear),
    ("top", encode v.structures.isTop), ("display", .str v.text)]

def fact (v : AbstractValue) : Json :=
  .obj [("type", specType v.ty), ("structures", structureFact v.structures),
    ("value", encode v.value)]

/-- The way a branch is known to go before it is executed. -/
def direction (g : Graph) (s : AbstractState) (n : Node) : Except Fault (List (String × Json)) := do
  match n.op with
  | .branch _ =>
    match ← s.branchDirection? g n with
    | some b => return [("direction", encode b)]
    | none => return []
  | _ => return []

/-- The fact about a node's value, or about the first value it uses. -/
def mainFact (g : Graph) (s : AbstractState) (id : NodeId) (n : Node) :
    Except Fault (List (String × Json)) := do
  if n.hasResult then return [("fact", fact (← s.factOf g id))]
  match n.children with
  | e :: _ => return [("child1", fact (← s.factOf g e.node))]
  | [] => return []

/-- Executes a node and shows the facts after it. -/
def factsStep (g : Graph) (s : AbstractState) (id : NodeId) :
    Except Fault (AbstractState × Json) := do
  let n ← g.node id
  let before ← direction g s n
  let s ← s.execute g id
  let children ← n.children.mapM fun e => do return specType (← s.typeOf g e.node)
  return (s, .obj ([("node", encode id), ("valid", encode s.valid), ("children", .arr children)]
    ++ (← mainFact g s id n) ++ before))

/-- Executes nodes until there is a contradiction and shows the facts after each. -/
def factsSteps (g : Graph) : List NodeId → AbstractState → Except Fault (AbstractState × List Json)
  | [], s => .ok (s, [])
  | id :: rest, s => do
    let (s, step) ← factsStep g s id
    if !s.valid then return (s, [step])
    let (s, steps) ← factsSteps g rest s
    return (s, step :: steps)

/-- Replays a block and shows the facts along it. -/
def factsBlock (g : Graph) (s : AbstractState) (b : BlockIndex) :
    Except Fault (AbstractState × Json) := do
  let visited ← s.isVisited b
  let s ← s.beginBlock b
  let reached := s.valid
  let (s, steps) ← factsSteps g (← g.block b).nodes.toList s
  let reverify ← s.needsReverification b
  return (s, .obj [("block", encode b), ("visited", encode visited), ("begin", encode reached),
    ("reverify", encode reverify), ("steps", .arr steps)])

/-- The facts of the whole graph, after those at the head of some blocks were given up. -/
def facts (g : Graph) (limit : Nat) (reverify : List BlockIndex) : Except Fault Json := do
  let s ← AbstractState.fixpoint g limit
  let s ← reverify.foldlM (fun s b => s.markForReverification g b) s
  let (_, blocks) ← g.blockIndices.foldlM (fun (s, blocks) b => do
    let (s, block) ← factsBlock g s b
    return (s, blocks ++ [block])) (s, [])
  return .arr blocks

/-! ## Availability -/

def availability (a : Availability) : Json :=
  .obj [("flushed", option (fun f => .arr [encode f.slot, encode f.format]) a.flushed),
    ("node", encode a.node),
    ("conflicting", encode a.conflicting), ("dead", encode a.isDead),
    ("unavailable", encode a.isUnavailable),
    ("live_flush", encode a.liveFlush?.isSome)]

def availabilityMap (m : AvailabilityMap) : Json :=
  .obj [("locals", list (fun (v, a) => .arr [shown v, availability a]) m.operands.toList),
    ("heap", list (fun (k, a) => .arr [encode k.allocation, encode k.location, availability a])
      m.heap)]

/-- The fields of the object that a node is about. -/
def heapFields (g : Graph) (m : AvailabilityMap) (id : NodeId) : Except Fault (List Json) := do
  let n ← g.node id
  match n.op with
  | .phantomAllocation _ | .putHint _ =>
    let owner := (n.children.head?.map (·.node)).getD id
    return [.arr [encode owner, list (fun (l, a) => .arr [encode l, encode a.node])
      (m.fieldsOf owner)]]
  | _ => return []

/-- The availability at the head and the end of a block. -/
def availabilityBlock (g : Graph) (heads : Array (Option AvailabilityMap)) (b : BlockIndex) :
    Except Fault Json := do
  let head := AvailabilityMap.headOrEmpty g heads b
  let (tail, fields) ← (← g.block b).nodes.toList.foldlM (fun (m, fields) id => do
    let m ← m.execute g id
    return (m, fields ++ (← heapFields g m id))) (head, [])
  return .obj [("known", encode (heads[b.index]?.join.isSome)), ("head", availabilityMap head),
    ("fields", .arr fields), ("tail", availabilityMap tail)]

/-- The availability of the whole graph. -/
def availabilityBlocks (g : Graph) : Except Fault Json := do
  let heads ← AvailabilityMap.blockHeads g
  return .arr (← g.blockIndices.mapM (availabilityBlock g heads))

end SpecJit.Report
