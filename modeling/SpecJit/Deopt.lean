import SpecJit.Exit
import SpecJit.Value

/-!
# Taking an exit

`ExitTable.resolve` turns what compiled code captured at an exit into the frame that the interpreter
goes on with: every variable boxed, and every object whose allocation was put off built by a
`Materializer`, each once and after the objects among its fields. What the captured values and the
frame can be refused for is checked before anything is built. The state of the materializer is part
of the answer also when resolving stops.
-/

namespace SpecJit

namespace ValueFormat

/-- The boxed value of a captured word. -/
def rebox (format : ValueFormat) (raw : Word) : Word :=
  match format with
  | .int32 => Value.boxInt32 raw.toUInt32.toInt32
  | .int52 => Value.boxInt52 (raw.toInt64 >>> Int64.ofNat Value.int52Shift)
  | .strictInt52 => Value.boxInt52 raw.toInt64
  | .double => Value.boxDouble ⟨raw⟩
  | .boolean => Value.boxBoolean (raw &&& 1 != 0)
  | .cell | .jsValue => raw

end ValueFormat

namespace RecoveryOp

/-- Wrapping arithmetic on 32 bits. -/
def apply32 (op : RecoveryOp) (l r : Int32) : Int32 :=
  match op with
  | .add => l + r
  | .sub => l - r

/-- Wrapping arithmetic on 64 bits. -/
def apply64 (op : RecoveryOp) (l r : Int64) : Int64 :=
  match op with
  | .add => l + r
  | .sub => l - r

/-- The low 52 bits, sign-extended. -/
def wrapInt52 (n : Int64) : Int64 :=
  (n <<< Int64.ofNat Value.int52Shift) >>> Int64.ofNat Value.int52Shift

/-- Redoes an operation on two captured words of an integer format. -/
def recover? (op : RecoveryOp) (left right : Word) : ValueFormat → Option Word
  | .int32 =>
    some (op.apply32 left.toUInt32.toInt32 right.toUInt32.toInt32).toUInt32.toUInt64
  | .int52 => some (op.apply64 left.toInt64 right.toInt64).toUInt64
  | .strictInt52 => some (wrapInt52 (op.apply64 left.toInt64 right.toInt64)).toUInt64
  | .double | .boolean | .cell | .jsValue => none

end RecoveryOp

/-- Why an exit cannot be resolved. -/
inductive DeoptError where
  | unknownExit (id : ExitId)
  | stackmapTooShort (id : ExitId) (needed captured : Nat)
  | frameShapeMismatch (id : ExitId) (expected actual : Nat)
deriving DecidableEq, Inhabited, Repr

namespace DeoptError

def kind : DeoptError → String
  | .unknownExit _ => "UnknownExit"
  | .stackmapTooShort _ _ _ => "StackmapTooShort"
  | .frameShapeMismatch _ _ _ => "FrameShapeMismatch"

def message : DeoptError → String
  | .unknownExit id => s!"unknown exit {id}"
  | .stackmapTooShort id needed captured =>
    s!"exit {id} reads {needed} stackmap values but only {captured} were captured"
  | .frameShapeMismatch id expected actual =>
    s!"exit {id} describes {expected} operands but the frame has {actual}"

end DeoptError

/-- What is wrong with an exit table. -/
inductive DeoptCause where
  | dangling (id : MaterializationId)
  | cycle (ids : List MaterializationId)
  | slotOutOfRange (slot : Operand)
  | recoveryFormat (format : ValueFormat)
  | readBeforeBuilt (id : MaterializationId)
deriving DecidableEq, Inhabited, Repr

def DeoptCause.message : DeoptCause → String
  | .dangling id => s!"dangling materialization {id.index}"
  | .cycle ids =>
    let list := ", ".intercalate (ids.map fun (id : MaterializationId) => toString id.index)
    s!"materialization cycle among [{list}]"
  | .slotOutOfRange slot => s!"frame slot {slot} out of range"
  | .recoveryFormat format => s!"recovery in {format.name} format"
  | .readBeforeBuilt id => s!"materialization {id.index} read before it was built"

/-- Why resolving stops. -/
inductive DeoptFailure where
  | error (e : DeoptError)
  | crash (exit : ExitId) (cause : DeoptCause)
deriving DecidableEq, Inhabited, Repr

/-- The text of a crash. -/
def DeoptCause.crashMessage (cause : DeoptCause) (exit : ExitId) : String :=
  s!"strata deopt crash at exit {exit}: {cause.message}"

/-- An object to be built, with its fields. -/
structure MaterializedFields where
  id : MaterializationId
  kind : MaterializationKind
  origin : CodeOrigin
  fields : List (PromotedLocation × Word)
deriving DecidableEq, Inhabited, Repr

namespace MaterializedFields

/-- The value of a field. -/
def get? (f : MaterializedFields) (location : PromotedLocation) : Option Word :=
  f.fields.lookup location

end MaterializedFields

/-- Builds objects: gives the address of a new one. -/
structure Materializer (σ : Type) where
  build : MaterializedFields → σ → Word × σ

/-- The frame that the interpreter goes on with. -/
structure ResolvedFrame where
  exit : ExitId
  kind : ExitKind
  origin : CodeOrigin
  operands : Operands Word
  profiledValue : Option Word
  /-- the objects built, in the order of their ids -/
  materialized : List (MaterializationId × Word)
deriving DecidableEq, Inhabited, Repr

/-- The value of a variable; `undefined` outside the frame. -/
def ResolvedFrame.operand (f : ResolvedFrame) (v : Operand) : Word :=
  (f.operands.get? v).getD Value.undefined

/-! ## Values -/

/-- What an exit resolves from. -/
structure Captured where
  exit : ExitId
  stackmap : Array Word
  frame : Operands Word

namespace Captured

variable (c : Captured)

def crash {α : Type} (cause : DeoptCause) : Except DeoptFailure α := .error (.crash c.exit cause)

/-- A captured value. -/
def value (index : Nat) : Except DeoptFailure Word :=
  match c.stackmap[index]? with
  | some w => .ok w
  | none => .error (.error (.stackmapTooShort c.exit (index + 1) c.stackmap.size))

/-- The boxed value that an exit restores; `cells` are the objects built so far. -/
def boxed (cells : Array (Option Word)) : ExitValue → Except DeoptFailure Word
  | .dead => .ok Value.undefined
  | .constant w => .ok w
  | .inStack slot format =>
    match c.frame.get? slot with
    | some raw => .ok (format.rebox raw)
    | none => c.crash (.slotOutOfRange slot)
  | .argument index format => do return format.rebox (← c.value index)
  | .recovery op left right format => do
    let left ← c.value left
    let right ← c.value right
    match op.recover? left right format with
    | some raw => return format.rebox raw
    | none => c.crash (.recoveryFormat format)
  | .materialize id =>
    match cells[id.index]?.join with
    | some cell => .ok cell
    | none => c.crash (.readBeforeBuilt id)

end Captured

namespace ExitTable

/-! ## The objects to build -/

variable (t : ExitTable)

/-- Goes through the objects that wait, the first one first, putting those among its fields before
the others. The first argument bounds the steps. -/
def reach :
    Nat → List MaterializationId → List MaterializationId →
    Except DeoptCause (List MaterializationId)
  | _, found, [] => .ok found
  | 0, found, _ => .ok found
  | steps + 1, found, id :: waiting =>
    match t.materialization? id with
    | none => .error (.dangling id)
    | some m =>
      if found.contains id then reach steps found waiting
      else reach steps (id :: found) (m.dependencies.reverse ++ waiting)

/-- The objects that an exit builds, in the order of their ids. -/
def reachable (e : OsrExit) : Except DeoptCause (List MaterializationId) := do
  let roots := e.materializationRoots.reverse
  let edges := (t.materializations.map (·.dependencies.length)).foldl (· + ·) 0
  let found ← t.reach (roots.length + edges) [] roots
  return found.mergeSort fun a b => a.index ≤ b.index

/-! ## Building -/

/-- Steps that build objects; the materializer's state outlives a failure. -/
abbrev Resolve (σ : Type) := ExceptT DeoptFailure (StateM σ)

variable {σ : Type} (m : Materializer σ) (c : Captured)

/-- A step that builds nothing. -/
def ofExcept {α : Type} (x : Except DeoptFailure α) : Resolve σ α := fun s => (x, s)

/-- Builds one object. -/
def buildOne (cells : Array (Option Word)) (id : MaterializationId) :
    Resolve σ (Array (Option Word)) := do
  match t.materialization? id with
  | none => throw (.crash c.exit (.dangling id))
  | some record =>
    let fields ← record.properties.mapM fun (location, value) => do
      return (location, ← ofExcept (c.boxed cells value))
    let cell ← modifyGetThe σ (m.build { id, kind := record.kind, origin := record.origin, fields })
    return cells.setIfInBounds id.index (some cell)

/-- Every object among the fields of an object is built. -/
def isReady (cells : Array (Option Word)) (id : MaterializationId) : Bool :=
  (t.materialization? id).any fun record => record.dependencies.all fun d =>
    cells[d.index]?.join.isSome

/-- Goes over the objects once and builds those that are ready; gives those that wait. -/
def buildReady : List MaterializationId → Array (Option Word) →
    Resolve σ (Array (Option Word) × List MaterializationId)
  | [], cells => return (cells, [])
  | id :: rest, cells => do
    if t.isReady cells id then
      let cells ← t.buildOne m c cells id
      buildReady rest cells
    else
      let (cells, waiting) ← buildReady rest cells
      return (cells, id :: waiting)

/-- Goes over the objects until all are built. A round that builds none has found a cycle. The first
argument bounds the rounds. -/
def buildRounds :
    Nat → List MaterializationId → Array (Option Word) → Resolve σ (Array (Option Word))
  | _, [], cells => return cells
  | 0, _, cells => return cells
  | rounds + 1, pending, cells => do
    let (cells, waiting) ← t.buildReady m c pending cells
    if waiting.length = pending.length then throw (.crash c.exit (.cycle waiting))
    buildRounds rounds waiting cells

/-- Builds all objects that an exit needs. -/
def buildAll (e : OsrExit) : Resolve σ (Array (Option Word)) := do
  let cells := Array.replicate t.materializations.size none
  match t.reachable e with
  | .ok pending => t.buildRounds m c pending.length pending cells
  | .error cause => throw (.crash c.exit cause)

/-! ## Resolving -/

/-- Checks what was captured against the record of an exit. -/
def checkCaptured (e : OsrExit) : Except DeoptError Unit :=
  let needed := (t.stackmapLength? c.exit).getD 0
  if c.stackmap.size < needed then .error (.stackmapTooShort c.exit needed c.stackmap.size)
  else if c.frame.arguments.size ≠ e.values.arguments.size ∨
    c.frame.locals.size ≠ e.values.locals.size then
    .error (.frameShapeMismatch c.exit e.values.size c.frame.size)
  else .ok ()

/-- The values of all variables. -/
def resolveOperands (cells : Array (Option Word)) (values : Operands ExitValue) :
    Except DeoptFailure (Operands Word) := do
  return { arguments := ← values.arguments.mapM (c.boxed cells),
           locals := ← values.locals.mapM (c.boxed cells) }

/-- The objects built, in the order of their ids. -/
def builtObjects (cells : Array (Option Word)) : List (MaterializationId × Word) :=
  cells.toList.zipIdx.filterMap fun (cell, i) => cell.map fun w => (⟨i⟩, w)

/-- The frame, once the objects are built. -/
def resolveFrame (e : OsrExit) (cells : Array (Option Word)) :
    Except DeoptFailure ResolvedFrame := do
  let operands ← resolveOperands c cells e.values
  let profiledValue ← e.profileValue.mapM c.value
  return { exit := c.exit, kind := e.kind, origin := e.origin, operands, profiledValue,
           materialized := builtObjects cells }

/-- The frame that the interpreter goes on with after an exit. -/
def resolve : Resolve σ ResolvedFrame := do
  match t.exit? c.exit with
  | none => throw (.error (.unknownExit c.exit))
  | some e =>
    ofExcept ((t.checkCaptured c e).mapError .error)
    let cells ← t.buildAll m c e
    ofExcept (resolveFrame c e cells)

end ExitTable

end SpecJit
