import SpecJit.Graph.Codec

/-!
# Which graphs can be compiled

`Graph.canCompile` accepts a well-formed graph when every node is used in a way that the lowering
knows: with operands of kinds it can read and results of forms it can produce.
-/

namespace SpecJit

/-- Why a node cannot be compiled. -/
inductive Rejection where
  | shape (reason : String)
  | edge (child : Nat) (useKind : UseKind)
deriving DecidableEq, Inhabited, Repr

/-- Why a graph cannot be compiled. -/
inductive CompileError where
  | invalid (e : GraphError)
  | unsupported (node : NodeId) (op : String) (reason : String)
  | unsupportedUseKind (node : NodeId) (op : String) (child : Nat) (useKind : UseKind)
  | missingHelper (symbol : String)
deriving DecidableEq, Inhabited, Repr

namespace CompileError

def kind : CompileError → String
  | .invalid e => e.kind
  | .unsupported _ _ _ => "Unsupported"
  | .unsupportedUseKind _ _ _ _ => "UnsupportedUseKind"
  | .missingHelper _ => "MissingHelper"

def message : CompileError → String
  | .invalid e => e.message
  | .unsupported node op reason => s!"cannot compile {op} at {node}: {reason}"
  | .unsupportedUseKind node op child useKind =>
    s!"cannot compile {op} at {node}: child {child} used as {useKind}"
  | .missingHelper symbol => s!"runtime helper {symbol} is not registered"

end CompileError

namespace UseKind

/-- Usable as the index of an element. -/
def isIndex (k : UseKind) : Bool := k.isInt32 || k == .untyped

/-- Usable as a value stored into a typed array. -/
def isTypedElement (k : UseKind) : Bool := k.isInt32 || k == .int52Rep || k.isDoubleRep

end UseKind

namespace Node

variable (n : Node)

/-- The use, if it is there, is of an acceptable kind. -/
def requireUse (child : Nat) (accept : UseKind → Bool) : Except Rejection Unit :=
  match n.children[child]? with
  | some e => if accept e.useKind then .ok () else .error (.edge child e.useKind)
  | none => .ok ()

def requireCell (child : Nat) : Except Rejection Unit := n.requireUse child UseKind.isCell

/-- The first uses fit the numeric form of the result. -/
def requireNumeric (count : Nat) (int52 : Bool) : Except Rejection Unit :=
  let all (accept : UseKind → Bool) := (List.range count).forM fun i => n.requireUse i accept
  match n.result with
  | .int32 => all UseKind.isInt32
  | .int52 =>
    if int52 then all (· == .int52Rep) else .error (.shape "numeric result representation")
  | .double => all UseKind.isDoubleRep
  | _ => .error (.shape "numeric result representation")

/-- Checks an operation that stores into an array. -/
def checkStore (mode : ArrayMode) : Except Rejection Unit := do
  match mode.arrayType with
  | .generic | .scopedArguments | .string | .forceExit => return ()
  | .typedArray _ =>
    n.requireCell 0
    n.requireUse 1 UseKind.isIndex
    n.requireUse 2 UseKind.isTypedElement
  | .double =>
    n.requireCell 0
    n.requireUse 1 UseKind.isIndex
    n.requireUse 2 UseKind.isDoubleRep
  | .int32 | .contiguous | .directArguments =>
    n.requireCell 0
    n.requireUse 1 UseKind.isIndex

/-- Checks an allocation of an array. -/
def checkNewArray (data : NewArrayData) : Except Rejection Unit :=
  let shape := data.indexing.shape
  if shape == IndexingType.int32Shape || shape == IndexingType.contiguousShape then .ok ()
  else if shape == IndexingType.doubleShape then
    match n.op with
    | .newArray _ => (List.range n.children.length).forM fun i => n.requireUse i UseKind.isDoubleRep
    | .newArrayBuffer _ elements =>
      if elements.any fun e => e.asNumber?.isNone then .error
        (.shape "non-number constant in a double array")
      else .ok ()
    | _ => .ok ()
  else .error (.shape "array allocation with this indexing shape")

/-- Checks that the lowering can handle the node. -/
def checkSupported : Except Rejection Unit := do
  match n.op with
  | .bit _ => n.requireUse 0 UseKind.isInt32; n.requireUse 1 UseKind.isInt32
  | .arithClz32 => n.requireUse 0 UseKind.isInt32
  | .arith op _ =>
    match op with
    | .add | .sub | .mul => n.requireNumeric 2 true
    | .negate => n.requireNumeric 1 true
    | .div | .mod => n.requireNumeric 2 false
    | .abs => n.requireNumeric 1 false
  | .arithMin | .arithMax => n.requireNumeric 2 false
  | .arithSqrt | .arithSin | .arithCos | .arithLog | .arithFRound | .arithRound _ =>
    n.requireUse 0 UseKind.isDoubleRep
  | .arithPow => n.requireUse 0 UseKind.isDoubleRep; n.requireUse 1 UseKind.isDoubleRep
  | .checkStructure _ | .checkHasInstance | .getButterfly | .allocatePropertyStorage _
  | .reallocatePropertyStorage _ | .multiGetByOffset _ | .multiPutByOffset _ | .putStructure _
  | .getScope | .skipScope | .getExecutable | .getClosureVar _ | .putClosureVar _ | .newFunction
  | .createActivation _ | .getFromArguments _ | .putToArguments _ | .createScopedArguments
  | .materializeCreateActivation _ | .getIndexedPropertyStorage _ => n.requireCell 0
  | .instanceOf => n.requireCell 1
  | .putByOffset _ => n.requireCell (if 3 ≤ n.children.length then 1 else 0)
  | .checkArray mode =>
    match mode.arrayType with
    | .generic | .forceExit => return ()
    | _ => n.requireCell 0
  | .getArrayLength mode =>
    match mode.arrayType with
    | .int32 | .double | .contiguous | .string | .directArguments | .typedArray _ => n.requireCell 0
    | _ => throw (.shape "array length of this array mode")
  | .getByVal mode | .hasIndexedProperty mode =>
    match mode.arrayType with
    | .generic | .scopedArguments | .forceExit => return ()
    | _ => n.requireCell 0; n.requireUse 1 UseKind.isIndex
  | .putByVal mode => n.checkStore mode
  | .arrayPush mode =>
    match mode.arrayType with
    | .int32 | .contiguous => n.requireCell 0
    | .double => n.requireCell 0; n.requireUse 1 UseKind.isDoubleRep
    | _ => throw (.shape "push or pop outside butterfly storage")
  | .arrayPop mode =>
    match mode.arrayType with
    | .int32 | .contiguous | .double => n.requireCell 0
    | _ => throw (.shape "push or pop outside butterfly storage")
  | .stringCharAt mode | .stringCharCodeAt mode =>
    if mode.arrayType != .string then throw (.shape "character access on a non-string mode")
    n.requireCell 0
    n.requireUse 1 UseKind.isIndex
  | .newArray data | .newArrayWithSize data | .newArrayBuffer data _ => n.checkNewArray data
  | _ => return ()

end Node

namespace Rejection

/-- The report of a rejected node. -/
def toError (r : Rejection) (id : NodeId) (n : Node) : CompileError :=
  match r with
  | .shape reason => .unsupported id n.op.name reason
  | .edge child useKind => .unsupportedUseKind id n.op.name child useKind

end Rejection

namespace Graph

/-- Checks a node that a block lists. -/
def checkSupported (g : Graph) (id : NodeId) : Except CompileError Unit :=
  match g.node? id with
  | some n => n.checkSupported.mapError fun r => r.toError id n
  | none => .ok ()

/-- Checks that a graph can be compiled, and reports the first node that cannot. -/
def canCompile (g : Graph) : Except CompileError Unit := do
  g.validate.mapError .invalid
  g.blocks.toList.forM fun b => b.nodes.toList.forM g.checkSupported

end Graph

end SpecJit
