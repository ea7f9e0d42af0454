import SpecJit.AbstractValue
import SpecJit.Graph.Dominators

/-!
# Abstract interpretation of a graph

`AbstractState.fixpoint` computes the facts that hold at the head of every block, and the lowering
replays a block from there node by node. Executing a node assumes that it does not leave the
function: the kinds of its uses narrow the facts about the values used, and then the node's own
effect is applied. A contradiction makes the state invalid; nothing after it is executed.

A node without a fact has not been executed on any path to this point; of it only the bound given
by the form of its result is known.
-/

namespace SpecJit

/-- The facts at a point, by node. -/
structure Facts where
  slots : Array (Option AbstractValue)
  /-- facts about names that the table of nodes does not have, each name once -/
  strays : List (NodeId × AbstractValue) := []
deriving DecidableEq, Inhabited, Repr

namespace Facts

def empty (g : Graph) : Facts := { slots := Array.replicate g.nodes.size none }

variable (f : Facts)

def get? (id : NodeId) : Option AbstractValue :=
  if id.index < f.slots.size then f.slots[id.index]?.join else f.strays.lookup id

/-- Gives a stray name its fact. -/
def setStray (strays : List (NodeId × AbstractValue)) (id : NodeId) (v : AbstractValue) :
    List (NodeId × AbstractValue) :=
  (id, v) :: strays.filter fun e => e.1 != id

def set (id : NodeId) (v : AbstractValue) : Facts :=
  if id.index < f.slots.size then { f with slots := f.slots.setIfInBounds id.index (some v) }
  else { f with strays := setStray f.strays id v }

def map (h : AbstractValue → AbstractValue) : Facts where
  slots := f.slots.map (Option.map h)
  strays := f.strays.map fun e => (e.1, h e.2)

/-- The union of what is known of one node, and whether the first part changed. -/
def mergeSlot (limit : Nat) :
    Option AbstractValue → Option AbstractValue → Option AbstractValue × Bool
  | mine, none => (mine, false)
  | none, some theirs => if theirs.isBottom then (none, false) else (some theirs, true)
  | some mine, some theirs => let (v, changed) := mine.merge limit theirs; (some v, changed)

/-- The union of what is known of stray names, and whether the first part changed. -/
def mergeStrays (limit : Nat) (mine theirs : List (NodeId × AbstractValue)) :
    List (NodeId × AbstractValue) × Bool :=
  theirs.foldl (fun (strays, changed) (id, v) =>
    match mergeSlot limit (strays.lookup id) (some v) with
    | (some v, grew) => (setStray strays id v, changed || grew)
    | (none, grew) => (strays, changed || grew)) (mine, false)

/-- The union of the facts of two paths, and whether the first part changed. -/
def merge (limit : Nat) (f other : Facts) : Facts × Bool :=
  let merged := f.slots.mapIdx fun i mine => mergeSlot limit mine (other.get? ⟨i⟩)
  let (strays, grew) := mergeStrays limit f.strays other.strays
  ({ slots := merged.map (·.1), strays }, merged.any (·.2) || grew)

end Facts

/-- What the analysis knows of a block. -/
structure BlockFacts where
  head : Facts
  /-- control can reach the block -/
  visited : Bool := false
  /-- the facts at the head were given up -/
  reverify : Bool := false
deriving Inhabited

/-- The facts at block heads, and at the current point of the block being interpreted. -/
structure AbstractState where
  blocks : Array BlockFacts
  current : Facts
  valid : Bool := false
deriving Inhabited

/-- The kinds that the form of a result allows. -/
def Graph.boundOf (g : Graph) (id : NodeId) : Except Fault SpecType := do
  return (← g.node id).result.typeBound

/-! ## Facts about kinds -/

/-- The kinds of a value converted to a double. -/
def SpecType.toDouble (t : SpecType) : SpecType :=
  let double := t &&& .fullDouble
  let double := if t.overlaps .machineInt then double ||| .int52AsDouble else double
  let double := if t.overlaps .boolean then double ||| .int52AsDouble else double
  if t.overlaps .other then double ||| .int52AsDouble ||| .doublePureNaN else double

/-- The kinds of a value whose NaNs are made canonical. -/
def SpecType.purified (t : SpecType) : SpecType :=
  if t.couldBeImpureNaN then t.without .doubleImpureNaN ||| .doublePureNaN else t

/-- The kinds of a value with booleans turned into numbers. -/
def SpecType.booleansAsNumbers (t : SpecType) : SpecType :=
  if t.overlaps .boolean then t.without .boolean ||| .boolInt32 else t.without .boolean

/-- The truth of a condition, if it is known. Objects are true unless they masquerade as
`undefined`, which only objects of the kind `objectOther` can. -/
def AbstractValue.conditionTruth? (v : AbstractValue) (useKind : UseKind) : Option Bool :=
  match v.truthy? with
  | some b => some b
  | none =>
    if (useKind == .untyped || useKind == .objectOrOther) && v.isType .object && !v.isBottom
        && v.isNotType .objectOther then
      some true
    else none

/-- The answer to a type query, if the kinds of the value decide it. -/
def TypeQuery.answer? (q : TypeQuery) (t : SpecType) : Option Bool :=
  if t.isEmpty then none
  else
    let decided (yes no : Bool) : Option Bool := if yes then some true else if no then some false
      else none
    match q with
    | .undefined => decided false (!t.overlaps (.union .other .objectOther))
    | .boolean => decided t.isBoolean (!t.overlaps .boolean)
    | .number => decided (t.isSubsetOf .fullNumber) (!t.overlaps .fullNumber)
    | .string => decided t.isString (!t.overlaps .string)
    | .function => decided (t.isSubsetOf .function) (!t.overlaps (.union .function .objectOther))
    | .object =>
      decided (t.isSubsetOf (SpecType.object.without (.union .function .objectOther)))
        (!t.overlaps .object)
    | .objectOrNull => decided false (!t.overlaps (.union .object .other))
    | .arrayObject => none

/-- The kinds that an array check proves; `none` if it always fails. -/
def ArrayMode.provenType? (mode : ArrayMode) : Option SpecType :=
  match mode.arrayType with
  | .int32 | .double | .contiguous => some (if mode.isArray then .array else .object)
  | .string => some .string
  | .directArguments => some .directArguments
  | .scopedArguments => some .scopedArguments
  | .typedArray kind => some (.ofElementKind kind)
  | .generic => some .fullTop
  | .forceExit => none

/-- The cell type whose tag an array check compares. -/
def ArrayMode.checkedCellType? (mode : ArrayMode) : Option CellType :=
  match mode.arrayType with
  | .directArguments => some .directArguments
  | .scopedArguments => some .scopedArguments
  | .typedArray kind => some (.typedArray kind)
  | .string => some .string
  | .int32 | .double | .contiguous => if mode.isArray then some .array else none
  | .generic | .forceExit => none

/-- What a slot of the frame can hold. -/
def FlushFormat.specType : FlushFormat → SpecType
  | .int32 => .int32
  | .int52 => .machineInt
  | .double => .fullDouble
  | .boolean => .boolean
  | .cell => .cell
  | .jsValue | .dead | .conflicting => .bytecodeTop

/-- The kind of the cells of a structure. -/
def Registry.specTypeOf (r : Registry) (id : StructureId) : SpecType :=
  match r.get? id with
  | some s => .ofCellType s.cellType
  | none => .object

/-! ## Constant folding -/

/-- The exact result of arithmetic on two int32 values, if it is one and not the negative zero. -/
def ArithOp.fold? (op : ArithOp) (a b : Int32) : Option Int32 :=
  let checked (r : Int) : Option Int32 :=
    if -0x80000000 ≤ r ∧ r < 0x80000000 then some (Int32.ofInt r) else none
  match op with
  | .add => checked (a.toInt + b.toInt)
  | .sub => checked (a.toInt - b.toInt)
  | .mul => (checked (a.toInt * b.toInt)).filter fun r => r != 0 || (0 ≤ a && 0 ≤ b)
  | _ => none

/-- The result of a bit operation on two int32 values, if it is an int32. -/
def BitOp.fold? (op : BitOp) (a b : Int32) : Option Int32 :=
  match op with
  | .and => some (a &&& b)
  | .or => some (a ||| b)
  | .xor => some (a ^^^ b)
  | .leftShift => some (a <<< b)
  | .rightShift => some (a >>> b)
  | .unsignedRightShift =>
    let r := (a.toUInt32 >>> b.toUInt32).toInt32
    if 0 ≤ r then some r else none

/-- The constant that all cases of a polymorphic read yield. -/
def ReadCase.commonConstant? : List ReadCase → Option FrozenValue
  | [] => none
  | c :: rest =>
    match c.method with
    | .load _ => none
    | .constant v =>
      if rest.all fun c => c.method = .constant v then some v else none

/-- The structures that cells have after a polymorphic write. -/
def WriteCase.structuresAfter (cases : List WriteCase) : StructureSet :=
  cases.foldl (fun s c =>
    match c.newStructure with
    | some next => (s.insert next).1
    | none => (s.merge c.oldStructures).1) {}

namespace AbstractState

/-- Nothing is reached yet. -/
def initial (g : Graph) : AbstractState where
  blocks := Array.replicate g.blocks.size { head := .empty g }
  current := .empty g

variable (g : Graph) (s : AbstractState)

/-! ## The current point -/

/-- Starts interpreting a block from its head. -/
def beginBlock (b : BlockIndex) : Except Fault AbstractState := do
  let facts ← Fault.ofOption s.blocks[b.index]?
  return { s with current := facts.head, valid := facts.visited }

/-- The fact about a node. -/
def factOf (id : NodeId) : Except Fault AbstractValue :=
  match s.current.get? id with
  | some v => .ok v
  | none => do return .ofType (← g.boundOf id)

/-- The kinds of a node. -/
def typeOf (id : NodeId) : Except Fault SpecType := do return (← s.factOf g id).ty

def setFact (id : NodeId) (v : AbstractValue) : AbstractState :=
  { s with current := s.current.set id v }

/-- Control cannot come here. -/
def invalidate : AbstractState := { s with valid := false }

/-- The fact about a node of the table. -/
def slotOf (id : NodeId) : Except Fault AbstractValue := do
  let bound ← g.boundOf id
  return (s.current.get? id).getD (.ofType bound)

/-- Gives a node a narrower fact. -/
def narrowTo (id : NodeId) (v : AbstractValue) : AbstractState :=
  let s := s.setFact id v
  if v.isBottom then s.invalidate else s

def filter (id : NodeId) (mask : SpecType) : Except Fault AbstractState := do
  return s.narrowTo id ((← s.slotOf g id).filter mask)

def filterStructures (id : NodeId) (set : StructureSet) : Except Fault AbstractState := do
  return s.narrowTo id ((← s.slotOf g id).filterStructures set)

/-- Restricts a node to one constant. A contradiction makes the state invalid, also one with the
constant known so far. -/
def filterValue (id : NodeId) (c : FrozenValue) : Except Fault AbstractState := do
  return s.narrowTo id ((← s.factOf g id).filterValue g.structures c)

/-- Narrows the values that a node uses, in order, until there is a contradiction. -/
def filterUses : List Edge → AbstractState → Except Fault AbstractState
  | [], s => .ok s
  | e :: rest, s => do
    if e.useKind == .untyped then filterUses rest s
    else
      let s ← s.filter g e.node e.useKind.typeFilter
      if s.valid then filterUses rest s else return s

/-! ## The effect of nodes -/

/-- The fact about the `i`-th use of a node. -/
def useFact (node : Node) (i : Nat) : Except Fault AbstractValue :=
  do s.factOf g (← node.child i).node

/-- The fact of a result that only its form bounds. -/
def boundedResult (node : Node) : AbstractValue := .ofType node.result.typeBound

/-- The constant that an operation on two int32 constants yields. -/
def foldInt32 (node : Node) (f : Int32 → Int32 → Option Int32) :
    Except Fault (Option AbstractValue) := do
  if node.result != .int32 then return none
  match (← s.useFact g node 0).asInt32? with
  | none => return none
  | some a =>
    match (← s.useFact g node 1).asInt32? with
    | none => return none
    | some b => return (f a b).map fun r => .constant g.structures (.int32 r)

/-- The fact of an arithmetic result. -/
def numericResult (node : Node) : Except Fault AbstractValue := do
  match node.result with
  | .int32 => return .ofType .int32
  | .int52 => return .ofType .machineInt
  | .double =>
    let impure ← node.children.anyM fun e => do return (← s.typeOf g e.node).couldBeImpureNaN
    return .ofType (if impure then .fullDouble else .bytecodeDouble)
  | _ => return boundedResult node

/-- A boolean that may be known. -/
def booleanResult : Option Bool → AbstractValue
  | some b => .constant g.structures (.boolean b)
  | none => .ofType .boolean

/-- The fact of a node's value, for nodes whose only effect is to yield one. -/
def resultFact (node : Node) : Except Fault (Option AbstractValue) := do
  match node.op with
  | .jsConstant v => return some (.constant g.structures v)
  | .doubleConstant d =>
    return some { AbstractValue.ofType (.ofDouble d) with value := some (.double d) }
  | .int52Constant n =>
    if n.toInt32.toInt64 == n then return some (.constant g.structures (.int32 n.toInt32))
    else return some { AbstractValue.ofType .int52 with
      value := some (.double (Double.ofInt n.toInt)) }
  | .identity => return some (← s.useFact g node 0)
  | .bottomValue => return some .bottom
  | .getStack d => return some (.ofType d.format.specType)
  | .getCallee | .newFunction => return some (.ofType .function)
  | .getArgumentCount | .doubleAsInt32 _ | .valueToInt32 | .arithClz32 | .getTypedArrayByteOffset
  | .getArrayLength _ | .stringCharCodeAt _ => return some (.ofType .int32)
  | .doubleRep =>
    let child ← s.useFact g node 0
    let value := (child.value.bind FrozenValue.asNumber?).map FrozenValue.double
    return some { AbstractValue.ofType child.ty.toDouble with value }
  | .valueRep =>
    let child ← s.useFact g node 0
    return some { child with ty := child.ty.purified }
  | .int52Rep =>
    let ty ← s.typeOf g (← node.child 0).node
    return some (.ofType (if ty.isInt32 then ty else .machineInt))
  | .booleanToNumber =>
    let child ← s.useFact g node 0
    let value := child.value.map fun
      | .boolean b => .int32 (if b then 1 else 0)
      | c => c
    return some { AbstractValue.ofType child.ty.booleansAsNumbers with value }
  | .arith op _ =>
    match op with
    | .add | .sub | .mul =>
      match ← s.foldInt32 g node op.fold? with
      | some v => return some v
      | none => return some (← s.numericResult g node)
    | .div | .mod | .negate | .abs => return some (← s.numericResult g node)
  | .arithMin | .arithMax | .arithSqrt | .arithSin | .arithCos | .arithLog | .arithPow
  | .arithFRound =>
    return some (← s.numericResult g node)
  | .bit op =>
    match ← s.foldInt32 g node op.fold? with
    | some v => return some v
    | none =>
      if op == .unsignedRightShift && node.result != .int32 then return some (boundedResult node)
      else return some (.ofType .int32)
  | .arithRound mode => return some (.ofType (if mode == .double then .bytecodeDouble else .int32))
  | .uint32ToNumber _ =>
    match node.result with
    | .int32 => return some (.ofType .int32)
    | .int52 => return some (.ofType .machineInt)
    | _ => return some (.ofType (.union .int32 .int52AsDouble))
  | .valueAdd => return some (.ofType (.union .string .bytecodeNumber))
  | .compare _ | .compareEqConstant | .instanceOf | .hasProperty | .hasIndexedProperty _ =>
    return some (.ofType .boolean)
  | .logicalNot =>
    let e ← node.child 0
    let truth := (← s.factOf g e.node).conditionTruth? e.useKind
    return some (booleanResult g (truth.map not))
  | .isType query =>
    match query with
    | .arrayObject => return some (.ofType .boolean)
    | _ => return some (booleanResult g (query.answer? (← s.typeOf g (← node.child 0).node)))
  | .typeOf | .convertToString | .makeRope | .stringCharAt _ => return some (.ofType .string)
  | .toPrimitive =>
    let child ← s.useFact g node 0
    return some (if child.isNotType .object then child else .ofType
      (SpecType.heapTop.without .object))
  | .toThis =>
    let child ← s.useFact g node 0
    return some (if child.isType .object then child else .ofType .heapTop)
  | .newObject id => return some (.withStructure (g.structures.specTypeOf id) id)
  | .newArray d | .newArrayWithSize d | .newArrayBuffer d _ =>
    return some (.withStructure .array d.structureId)
  | .createActivation id => return some (.withStructure .objectOther id)
  | .materializeNewObject d =>
    let ty := d.structures.ids.foldl (fun t id => t ||| g.structures.specTypeOf id) .none
    return some { ty, structures := .known d.structures }
  | .materializeCreateActivation d =>
    return some { ty := .objectOther, structures := .known d.structures }
  | .createDirectArguments => return some (.ofType .directArguments)
  | .createScopedArguments => return some (.ofType .scopedArguments)
  | .createClonedArguments | .getScope | .skipScope => return some (.ofType .objectOther)
  | .getExecutable => return some (.ofType .cellOther)
  | .multiGetByOffset cases =>
    match ReadCase.commonConstant? cases with
    | some v => return some (.constant g.structures v)
    | none => return some (.ofType .heapTop)
  | .getByOffset _ | .getById _ | .getByVal _ | .getFromArguments _ | .getMyArgumentByVal
  | .arrayPop _ | .call | .construct | .callVarargs _ | .constructVarargs _
  | .callForwardVarargs _ =>
    return some (if node.result == .jsValue then .ofType .heapTop else boundedResult node)
  | .arrayPush _ => return some (.ofType .bytecodeNumber)
  | .branch _ | .jump _ | .switch _ | .ret | .unreachable | .phantom | .check | .putStack _
  | .killStack _ | .movHint _ | .zombieHint _ | .setArgument _ | .loopHint | .invalidationPoint
  | .countExecution _ | .checkInBounds | .checkHasInstance | .putByOffset _ | .putById _
  | .putByIdDirect _ | .putByVal _ | .putGlobalVar _ | .putClosureVar _ | .putToArguments _
  | .storeBarrier | .putHint _ | .loadVarargs _ | .forwardVarargs _ => return none
  | _ => return if node.hasResult then some (boundedResult node) else none

/-- Applies the effect of a node whose uses were narrowed. -/
def transfer (id : NodeId) (node : Node) : Except Fault AbstractState := do
  match node.op with
  | .phi =>
    match s.current.get? id with
    | some _ => return s
    | none => return s.setFact id (boundedResult node)
  | .upsilon phi => return s.setFact phi (← s.useFact g node 0)
  | .checkStructure set => s.filterStructures g (← node.child 0).node set
  | .checkCell c => s.filterValue g (← node.child 0).node c
  | .checkNotEmpty => s.filter g (← node.child 0).node SpecType.empty.complement
  | .checkArray mode =>
    match mode.provenType? with
    | some ty => s.filter g (← node.child 0).node ty
    | none => return s.invalidate
  | .checkBadCell | .forceOsrExit | .throwValue | .throwReferenceError _ => return s.invalidate
  | .putStructure t =>
    let target := (← node.child 0).node
    return s.setFact target { ← s.slotOf g target with structures := .singleton t.next }
  | .multiPutByOffset cases =>
    let target := (← node.child 0).node
    return s.setFact target
      { ← s.slotOf g target with structures := .known (WriteCase.structuresAfter cases) }
  | _ =>
    match ← s.resultFact g node with
    | some v => return s.setFact id v
    | none => return s

/-- Executes a node, assuming that it does not leave the function. -/
def execute (id : NodeId) : Except Fault AbstractState := do
  if !s.valid then return s
  let node ← g.node id
  let s ← filterUses g node.children s
  if !s.valid then return s
  let s ← s.transfer g id node
  if s.valid && node.op.clobbersWorld then
    return { s with current := s.current.map (·.clobberStructures) }
  return s

/-- Executes nodes in order until there is a contradiction. -/
def executeAll : List NodeId → AbstractState → Except Fault AbstractState
  | [], s => .ok s
  | id :: rest, s => do
    let s ← s.execute g id
    if s.valid then executeAll rest s else return s

/-- The way a branch is known to go. -/
def branchDirection? (node : Node) : Except Fault (Option Bool) := do
  let e ← node.child 0
  return (← s.factOf g e.node).conditionTruth? e.useKind

/-! ## The fixpoint -/

/-- The blocks that control may go to from the end of a block; a branch on a known condition goes
one way only. A condition without a fact is not known. -/
def flowingSuccessors (b : BlockIndex) : Except Fault (List BlockIndex) := do
  match g.terminal? b with
  | none => return []
  | some terminal =>
    let node ← g.node terminal
    match node.op with
    | .branch d =>
      let e ← node.child 0
      match (s.current.get? e.node).bind (·.conditionTruth? e.useKind) with
      | some true => return [d.taken]
      | some false => return [d.notTaken]
      | none => return [d.taken, d.notTaken]
    | op => return op.successors

/-- A fixpoint computation under way: the blocks whose head changed since they were executed, and
whether a head changed in this round. -/
structure Round where
  state : AbstractState
  dirty : Array Bool
  changed : Bool := false

/-- Hands the current facts to a successor. -/
def flowInto (limit : Nat) (r : Round) (b : BlockIndex) : Except Fault Round := do
  let facts ← Fault.ofOption r.state.blocks[b.index]?
  let (head, grew) := facts.head.merge limit r.state.current
  if facts.visited && !grew then return r
  let facts := { facts with head, visited := true }
  return {
    state := { r.state with blocks := r.state.blocks.setIfInBounds b.index facts }
    dirty := r.dirty.setIfInBounds b.index true
    changed := true }

/-- Executes a block whose head changed. -/
def visitBlock (limit : Nat) (r : Round) (b : BlockIndex) : Except Fault Round := do
  if r.dirty[b.index]? != some true then return r
  let dirty := r.dirty.setIfInBounds b.index false
  let s ← r.state.beginBlock b
  let s ← executeAll g (← g.block b).nodes.toList s
  let r := { r with state := s, dirty }
  if s.valid then (← s.flowingSuccessors g b).foldlM (flowInto limit) r else return r

/-- Goes over the blocks until no head changes; the first argument bounds the rounds. -/
def settle (limit : Nat) (order : List BlockIndex) : Nat → Round → Except Fault AbstractState
  | 0, r => .ok r.state
  | rounds + 1, r => do
    let r ← order.foldlM (visitBlock g limit) { r with changed := false }
    if r.changed then settle limit order rounds r else return r.state

/-- Every round but the last one reaches a block, or adds a fact, a kind or a structure, or gives up
the structures or the constant of a fact. There are facts about nodes and about the names that
upsilons give values to. -/
def maxRounds (limit : Nat) : Nat := g.blocks.size * (1 + 2 * g.nodes.size * (limit + 68)) + 1

/-- The facts at all block heads, with sets of more than `limit` structures given up. -/
def fixpoint (limit : Nat) : Except Fault AbstractState :=
  let s := initial g
  let s := { s with blocks := s.blocks.modify 0 fun b => { b with visited := true } }
  let dirty := (Array.replicate g.blocks.size false).setIfInBounds 0 true
  settle g limit g.reversePostorder (maxRounds g limit) { state := s, dirty }

/-! ## Giving up facts -/

/-- The head of a block whose facts are reduced to the bounds of the nodes' forms. A stray name has
no form. -/
def boundHead (head : Facts) : Except Fault Facts :=
  if head.strays.isEmpty then
    let bound (i : Nat) : AbstractValue :=
      .ofType (((g.node? ⟨i⟩).map (·.result.typeBound)).getD .none)
    .ok { head with slots := head.slots.mapIdx fun i v => v.map (fun _ => bound i) }
  else .error .outOfRange

/-- Gives up what is known at the head of a block beyond the forms of the nodes. -/
def markForReverification (b : BlockIndex) : Except Fault AbstractState := do
  let facts ← Fault.ofOption s.blocks[b.index]?
  if facts.reverify then return s
  let facts := { facts with reverify := true, head := ← boundHead g facts.head }
  return { s with blocks := s.blocks.setIfInBounds b.index facts }

def isVisited (b : BlockIndex) : Except Fault Bool := do
  return (← Fault.ofOption s.blocks[b.index]?).visited

def needsReverification (b : BlockIndex) : Except Fault Bool := do
  return (← Fault.ofOption s.blocks[b.index]?).reverify

end AbstractState

end SpecJit
