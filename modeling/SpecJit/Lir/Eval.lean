import SpecJit.Lir.Arithmetic
import SpecJit.Lir.Memory

/-!
# Running low-level code

A small-step evaluator. A configuration says where control is, what the registers hold and what the
memory and the runtime look like; `Machine.step` executes one instruction or terminator, and
`Machine.run` repeats it for a bounded number of steps. Calls of helpers and of sites are answered
by a `Runtime`, which may change memory and keeps a state of its own.
-/

namespace SpecJit.Lir

/-- How a run ends. -/
inductive Outcome where
  | returned (w : Word)
  | exited (exit : ExitId) (values : List Word)
  | unreachable (block : BlockId)
deriving DecidableEq, Inhabited, Repr

/-- Why a run fails. -/
inductive EvalError where
  | stepLimit (limit : Nat)
  | undefined (r : Reg)
  | arity (block : BlockId) (expected actual : Nat)
deriving DecidableEq, Inhabited, Repr

namespace EvalError

def kind : EvalError → String
  | .stepLimit _ => "StepLimit"
  | .undefined _ => "Undefined"
  | .arity _ _ _ => "Arity"

def message : EvalError → String
  | .stepLimit limit => s!"step limit of {limit} exceeded"
  | .undefined r => s!"value {r} used before definition"
  | .arity block expected actual => s!"block {block} expects {expected} arguments, got {actual}"

end EvalError

/-- A run that stops without an outcome. -/
inductive EvalFailure where
  | error (e : EvalError)
  | fault (f : Fault)
deriving DecidableEq, Inhabited, Repr

/-- The answers to calls; `σ` is the state that the runtime keeps. -/
structure Runtime (σ : Type) where
  callHelper : Helper → List Word → σ → Memory → Word × σ × Memory
  patchpoint : SiteId → List Word → σ → Memory → Word × σ × Memory

/-- A function with the addresses it runs with and the runtime it calls. -/
structure Machine (σ : Type) where
  func : Function
  context : Word
  frame : Word
  runtime : Runtime σ

/-- Where a run is. -/
structure Config (σ : Type) where
  block : BlockId := ⟨0⟩
  /-- the number of instructions of the block that are done -/
  position : Nat := 0
  registers : Array (Option Word)
  memory : Memory
  runtimeState : σ

/-- Where one step leads. -/
inductive Progress (σ : Type) where
  | running (c : Config σ)
  | done (o : Outcome)

/-- What a run leaves behind. -/
structure Final (σ : Type) where
  result : Except EvalFailure Outcome
  memory : Memory
  runtimeState : σ

namespace Config

variable {σ : Type} (c : Config σ)

/-- The value of a register. -/
def read (r : Reg) : Except EvalFailure Word :=
  match c.registers[r.index]? with
  | some (some w) => .ok w
  | _ => .error (.error (.undefined r))

def readAll (rs : List Reg) : Except EvalFailure (List Word) := rs.mapM c.read

/-- Gives a register its value. -/
def write (r : Reg) (w : Word) : Except EvalFailure (Config σ) :=
  if r.index < c.registers.size then
    .ok { c with registers := c.registers.setIfInBounds r.index (some w) }
  else .error (.fault .outOfRange)

end Config

namespace Machine

variable {σ : Type} (m : Machine σ)

def block (b : BlockId) : Except EvalFailure Block := (m.func.block b).mapError .fault

def typeOf (r : Reg) : Except EvalFailure Ty := (m.func.typeOf r).mapError .fault

/-- The address that a load or store uses. -/
def address (base : Word) (offset : Int32) : Word := base + offset.toInt64.toUInt64

/-- The value of an instruction that neither writes memory nor calls the runtime. -/
def value (c : Config σ) : Inst → Except EvalFailure Word
  | .iconst _ imm => return imm.toUInt64
  | .fconst d => return d.bits
  | .context => return m.context
  | .frame => return m.frame
  | .binary op ty lhs rhs => return op.eval ty (← c.read lhs) (← c.read rhs)
  | .overflows op ty lhs rhs => return ofBool (op.eval ty (← c.read lhs) (← c.read rhs))
  | .unary op ty arg => return op.eval ty (← c.read arg)
  | .fbinary op lhs rhs => return (op.eval ⟨← c.read lhs⟩ ⟨← c.read rhs⟩).bits
  | .funary op arg => return (op.eval ⟨← c.read arg⟩).bits
  | .icmp cc lhs rhs => do
    let ty ← m.typeOf lhs
    return ofBool (cc.eval ty (← c.read lhs) (← c.read rhs))
  | .fcmp cc lhs rhs => return ofBool (cc.eval ⟨← c.read lhs⟩ ⟨← c.read rhs⟩)
  | .select cond ifTrue ifFalse => do
    if (← c.read cond).toUInt32 != 0 then c.read ifTrue else c.read ifFalse
  | .extend signed arg => return extend signed (← c.read arg)
  | .truncate arg => return (← c.read arg).toUInt32.toUInt64
  | .intToDouble signed arg => do
    let ty ← m.typeOf arg
    return (intToDouble ty signed (← c.read arg)).bits
  | .doubleToInt ty arg => return doubleToInt ty ⟨← c.read arg⟩
  | .bitcastToInt arg | .bitcastToDouble arg => c.read arg
  | .load _ width signed addr offset =>
    return width.decode signed (c.memory.read (address (← c.read addr) offset) width.bytes)
  | .store _ _ _ _ | .call _ _ | .patchpoint _ _ => return 0

/-- Executes an instruction and yields its value, if it has one. -/
def execute (c : Config σ) (inst : Inst) : Except EvalFailure (Option Word × Config σ) :=
  match inst with
  | .store width value addr offset => do
    let a := address (← c.read addr) offset
    let w ← c.read value
    return (none, { c with memory := c.memory.write a width.bytes (width.encode w) })
  | .call helper args => do
    let args ← c.readAll args
    let (w, runtimeState, memory) := m.runtime.callHelper helper args c.runtimeState c.memory
    return (some w, { c with runtimeState, memory })
  | .patchpoint site args => do
    let args ← c.readAll args
    let (w, runtimeState, memory) := m.runtime.patchpoint site args c.runtimeState c.memory
    return (some w, { c with runtimeState, memory })
  | inst => do return (some (← m.value c inst), c)

/-- Executes an instruction, defines its register and moves on. -/
def stepInst (c : Config σ) (i : InstData) : Except EvalFailure (Config σ) := do
  let (w, c) ← m.execute c i.inst
  let c := { c with position := c.position + 1 }
  match i.result, w with
  | some r, some w => c.write r ((← m.typeOf r).normalize w)
  | _, _ => return c

/-- Goes to a block, handing values to its parameters. -/
def enter (c : Config σ) (target : BlockId) (args : List Reg) : Except EvalFailure (Config σ) := do
  let params := (← m.block target).params
  if params.length != args.length then throw (.error (.arity target params.length args.length))
  let incoming ← c.readAll args
  (params.zip incoming).foldlM (fun c (r, w) => c.write r w) { c with block := target,
                                                                      position := 0 }

/-- Executes a terminator. -/
def stepTerminator (c : Config σ) : Terminator → Except EvalFailure (Progress σ)
  | .jump target args => return .running (← m.enter c target args)
  | .branch cond taken takenArgs notTaken notTakenArgs _ => do
    if (← c.read cond).toUInt32 != 0 then return .running (← m.enter c taken takenArgs)
    else return .running (← m.enter c notTaken notTakenArgs)
  | .switch value cases fallback => do
    let key := low32 (← c.read value)
    return .running (← m.enter c ((cases.lookup key).getD fallback) [])
  | .ret value => return .done (.returned (← c.read value))
  | .exit exit values => return .done (.exited exit (← c.readAll values))
  | .unreachable => return .done (.unreachable c.block)

/-- Executes one instruction or terminator. -/
def step (c : Config σ) : Except EvalFailure (Progress σ) := do
  let b ← m.block c.block
  match b.insts[c.position]? with
  | some i => return .running (← m.stepInst c i)
  | none => m.stepTerminator c b.terminator

/-- Runs for at most `left` of `limit` steps. A step that ends the run leaves memory and the runtime
as they were before it. -/
def runFrom (limit : Nat) : (left : Nat) → Config σ → Final σ
  | 0, c => ⟨.error (.error (.stepLimit limit)), c.memory, c.runtimeState⟩
  | left + 1, c =>
    let memory := c.memory
    let runtimeState := c.runtimeState
    match m.step c with
    | .error e => ⟨.error e, memory, runtimeState⟩
    | .ok (.done o) => ⟨.ok o, memory, runtimeState⟩
    | .ok (.running c) => runFrom limit left c

/-- The configuration at the entry. -/
def start (memory : Memory) (runtimeState : σ) : Config σ where
  registers := Array.replicate m.func.types.size none
  memory
  runtimeState

/-- Runs the function from its entry for at most `limit` steps. -/
def run (limit : Nat) (memory : Memory) (runtimeState : σ) : Final σ :=
  match m.block ⟨0⟩ with
  | .error e => ⟨.error e, memory, runtimeState⟩
  | .ok _ => m.runFrom limit limit (m.start memory runtimeState)

end Machine

end SpecJit.Lir
