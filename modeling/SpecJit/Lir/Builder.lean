import SpecJit.Lir.Basic

/-!
# Building low-level code

A builder holds a function under construction and the block that instructions go to. Once a block
has a terminator it stays as it is: what is added after that goes to a new block that nothing
reaches. `Emit` is the monad of building steps; naming a register or block that does not exist is a
fault.
-/

namespace SpecJit.Lir

/-- A function under construction. -/
structure Builder where
  func : Function
  /-- which blocks have their terminator -/
  terminated : Array Bool
  current : BlockId
deriving Inhabited

/-- Building steps. -/
abbrev Emit := StateT Builder (Except Fault)

namespace Builder

/-- A function with an empty entry block. -/
def start (name : String) : Builder where
  func := { name, blocks := #[{}] }
  terminated := #[false]
  current := ⟨0⟩

end Builder

namespace Emit

/-- Adds an empty block. -/
def createBlock (cold : Bool) : Emit BlockId := do
  let b ← get
  let id : BlockId := ⟨b.func.blocks.size⟩
  set { b with func.blocks := b.func.blocks.push { cold }, terminated := b.terminated.push false }
  return id

/-- A register of the given type. -/
def newReg (ty : Ty) : Emit Reg := do
  let b ← get
  let r : Reg := ⟨b.func.types.size⟩
  set { b with func.types := b.func.types.push ty }
  return r

/-- Changes a block that exists. -/
def modifyBlock (block : BlockId) (f : Block → Block) : Emit Unit := do
  let b ← get
  if block.index < b.func.blocks.size then
    set { b with func.blocks := b.func.blocks.modify block.index f }
  else throw .outOfRange

/-- Adds a parameter to a block. -/
def blockParam (block : BlockId) (ty : Ty) : Emit Reg := do
  let r ← newReg ty
  modifyBlock block fun b => { b with params := b.params ++ [r] }
  return r

/-- What follows goes to `block`. -/
def switchTo (block : BlockId) : Emit Unit := modify fun b => { b with current := block }

def currentBlock : Emit BlockId := return (← get).current

/-- The current block has its terminator. -/
def isTerminated : Emit Bool := do
  let b ← get
  Fault.ofOption b.terminated[b.current.index]?

def typeOf (r : Reg) : Emit Ty := do (← get).func.typeOf r

/-- Moves on to a new block if the current one has its terminator. -/
def ensureOpen : Emit Unit := do
  if ← isTerminated then switchTo (← createBlock false)

/-- Adds an instruction. -/
def push (inst : Inst) (result : Option Reg) : Emit Unit := do
  let b ← get
  modifyBlock b.current fun block => { block with insts := block.insts.push { inst, result } }

/-- Adds an instruction that defines a register. -/
def define (ty : Ty) (inst : Inst) : Emit Reg := do
  ensureOpen
  let r ← newReg ty
  push inst (some r)
  return r

/-- Ends the current block. -/
def terminate (t : Terminator) : Emit Unit := do
  ensureOpen
  let b ← get
  modifyBlock b.current fun block => { block with terminator := t }
  modify fun b => { b with terminated := b.terminated.setIfInBounds b.current.index true }

/-! ## Instructions -/

def iconst (ty : Ty) (imm : Int64) : Emit Reg := define ty (.iconst ty imm)

def int32 (n : Int) : Emit Reg := iconst .i32 (Int64.ofInt n)

def int64 (n : Int) : Emit Reg := iconst .i64 (Int64.ofInt n)

/-- A 64-bit word. -/
def word (w : UInt64) : Emit Reg := iconst .i64 w.toInt64

def fconst (d : Double) : Emit Reg := define .f64 (.fconst d)

def context : Emit Reg := define .i64 .context

def frame : Emit Reg := define .i64 .frame

def binary (op : BinaryOp) (lhs rhs : Reg) : Emit Reg := do
  let ty ← typeOf lhs
  define ty (.binary op ty lhs rhs)

/-- An operation with a constant of the type of its left side. -/
def binaryImm (op : BinaryOp) (lhs : Reg) (imm : Int) : Emit Reg := do
  let rhs ← iconst (← typeOf lhs) (Int64.ofInt imm)
  binary op lhs rhs

def overflows (op : OverflowOp) (lhs rhs : Reg) : Emit Reg := do
  let ty ← typeOf lhs
  define .i32 (.overflows op ty lhs rhs)

def unary (op : UnaryOp) (arg : Reg) : Emit Reg := do
  let ty ← typeOf arg
  define ty (.unary op ty arg)

def fbinary (op : FBinaryOp) (lhs rhs : Reg) : Emit Reg := define .f64 (.fbinary op lhs rhs)

def funary (op : FUnaryOp) (arg : Reg) : Emit Reg := define .f64 (.funary op arg)

def icmp (cc : IntCC) (lhs rhs : Reg) : Emit Reg := define .i32 (.icmp cc lhs rhs)

def icmpImm (cc : IntCC) (lhs : Reg) (imm : Int) : Emit Reg := do
  let rhs ← iconst (← typeOf lhs) (Int64.ofInt imm)
  icmp cc lhs rhs

def fcmp (cc : FloatCC) (lhs rhs : Reg) : Emit Reg := define .i32 (.fcmp cc lhs rhs)

def select (cond ifTrue ifFalse : Reg) : Emit Reg := do
  define (← typeOf ifTrue) (.select cond ifTrue ifFalse)

def signExtend (arg : Reg) : Emit Reg := define .i64 (.extend true arg)

def zeroExtend (arg : Reg) : Emit Reg := define .i64 (.extend false arg)

def truncate (arg : Reg) : Emit Reg := define .i32 (.truncate arg)

def intToDouble (signed : Bool) (arg : Reg) : Emit Reg := define .f64 (.intToDouble signed arg)

def doubleToInt (ty : Ty) (arg : Reg) : Emit Reg := define ty (.doubleToInt ty arg)

def bitcastToInt (arg : Reg) : Emit Reg := define .i64 (.bitcastToInt arg)

def bitcastToDouble (arg : Reg) : Emit Reg := define .f64 (.bitcastToDouble arg)

def load (ty : Ty) (width : MemWidth) (signed : Bool) (addr : Reg) (offset : Int) : Emit Reg :=
  define ty (.load ty width signed addr (Int32.ofInt offset))

def load64 (addr : Reg) (offset : Int) : Emit Reg := load .i64 .w64 false addr offset

def load32 (addr : Reg) (offset : Int) : Emit Reg := load .i32 .w32 false addr offset

def load8 (addr : Reg) (offset : Int) : Emit Reg := load .i32 .w8 false addr offset

def store (width : MemWidth) (value addr : Reg) (offset : Int) : Emit Unit := do
  ensureOpen
  push (.store width value addr (Int32.ofInt offset)) none

def store64 (value addr : Reg) (offset : Int) : Emit Unit := store .w64 value addr offset

def call (helper : Helper) (args : List Reg) : Emit Reg := define .i64 (.call helper args)

def patchpoint (site : SiteId) (args : List Reg) : Emit Reg := define .i64 (.patchpoint site args)

/-! ## Terminators -/

def jump (target : BlockId) (args : List Reg) : Emit Unit := terminate (.jump target args)

def branch (cond : Reg) (taken notTaken : BlockId) (weight : BranchWeight) : Emit Unit :=
  terminate (.branch cond taken [] notTaken [] weight)

def switch (value : Reg) (cases : List (Int32 × BlockId)) (fallback : BlockId) : Emit Unit :=
  terminate (.switch value cases fallback)

def ret (value : Reg) : Emit Unit := terminate (.ret value)

def exit (exit : ExitId) (values : List Reg) : Emit Unit := terminate (.exit exit values)

def unreachable : Emit Unit := terminate .unreachable

end Emit

end SpecJit.Lir
