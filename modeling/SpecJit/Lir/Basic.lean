import SpecJit.Exit
import SpecJit.Helper
import SpecJit.InlineCache

/-!
# The low-level form

A function in low-level form is a list of blocks. A block has parameters, instructions that define
registers, and a terminator. Control enters at block 0. Every register is defined in one place and
has a machine type; jumps hand values to the parameters of their target.
-/

namespace SpecJit.Lir

/-- A machine type. -/
inductive Ty where
  | i32
  | i64
  | f64
deriving DecidableEq, Hashable, Inhabited, Repr

/-- A register. -/
structure Reg where
  index : Nat
deriving DecidableEq, Hashable, Ord, Inhabited, Repr

/-- A block of a function. -/
structure BlockId where
  index : Nat
deriving DecidableEq, Hashable, Ord, Inhabited, Repr

instance : ToString Reg := ⟨fun r => s!"v{r.index}"⟩
instance : ToString BlockId := ⟨fun b => s!"b{b.index}"⟩

/-- Integer operations that wrap; division by zero yields zero. -/
inductive BinaryOp where
  | add
  | sub
  | mul
  | sdiv
  | srem
  | udiv
  | and
  | or
  | xor
  | shl
  | sshr
  | ushr
deriving DecidableEq, Hashable, Inhabited, Repr

/-- Signed operations whose overflow can be asked for. -/
inductive OverflowOp where
  | add
  | sub
  | mul
deriving DecidableEq, Hashable, Inhabited, Repr

inductive UnaryOp where
  | neg
  | not
  /-- count of leading zeros -/
  | clz
deriving DecidableEq, Hashable, Inhabited, Repr

inductive FBinaryOp where
  | add
  | sub
  | mul
  | div
  | min
  | max
deriving DecidableEq, Hashable, Inhabited, Repr

inductive FUnaryOp where
  | neg
  | abs
  | sqrt
  | floor
  | ceil
  /-- rounding to 32-bit precision -/
  | demote
deriving DecidableEq, Hashable, Inhabited, Repr

/-- Integer comparisons, signed and unsigned. -/
inductive IntCC where
  | eq
  | ne
  | slt
  | sle
  | sgt
  | sge
  | ult
  | ule
  | ugt
  | uge
deriving DecidableEq, Hashable, Inhabited, Repr

/-- Comparisons of doubles; `ne` and `unordered` hold of NaNs. -/
inductive FloatCC where
  | eq
  | ne
  | lt
  | le
  | gt
  | ge
  | unordered
deriving DecidableEq, Hashable, Inhabited, Repr

/-- The form of a value in memory. -/
inductive MemWidth where
  | w8
  | w16
  | w32
  | w64
  | f32
  | f64
deriving DecidableEq, Hashable, Inhabited, Repr

/-- The bytes of a value in memory. -/
def MemWidth.bytes : MemWidth → Nat
  | .w8 => 1
  | .w16 => 2
  | .w32 | .f32 => 4
  | .w64 | .f64 => 8

/-- Which way of a branch is the usual one. -/
inductive BranchWeight where
  | normal
  | takenRare
  | notTakenRare
deriving DecidableEq, Hashable, Inhabited, Repr

/-- An instruction. -/
inductive Inst where
  | iconst (ty : Ty) (imm : Int64)
  | fconst (d : Double)
  /-- the address of the execution context -/
  | context
  /-- the address of the frame -/
  | frame
  | binary (op : BinaryOp) (ty : Ty) (lhs rhs : Reg)
  /-- 1 if the signed result does not fit -/
  | overflows (op : OverflowOp) (ty : Ty) (lhs rhs : Reg)
  | unary (op : UnaryOp) (ty : Ty) (arg : Reg)
  | fbinary (op : FBinaryOp) (lhs rhs : Reg)
  | funary (op : FUnaryOp) (arg : Reg)
  | icmp (cc : IntCC) (lhs rhs : Reg)
  | fcmp (cc : FloatCC) (lhs rhs : Reg)
  | select (cond ifTrue ifFalse : Reg)
  /-- from 32 to 64 bits -/
  | extend (signed : Bool) (arg : Reg)
  /-- from 64 to 32 bits -/
  | truncate (arg : Reg)
  | intToDouble (signed : Bool) (arg : Reg)
  /-- toward zero, clamped to the type's range -/
  | doubleToInt (ty : Ty) (arg : Reg)
  | bitcastToInt (arg : Reg)
  | bitcastToDouble (arg : Reg)
  | load (ty : Ty) (width : MemWidth) (signed : Bool) (addr : Reg) (offset : Int32)
  | store (width : MemWidth) (value addr : Reg) (offset : Int32)
  | call (helper : Helper) (args : List Reg)
  | patchpoint (site : SiteId) (args : List Reg)
deriving DecidableEq, Inhabited, Repr

/-- An instruction with the register it defines. -/
structure InstData where
  inst : Inst
  result : Option Reg
deriving DecidableEq, Inhabited, Repr

/-- The end of a block. -/
inductive Terminator where
  | jump (target : BlockId) (args : List Reg)
  | branch (cond : Reg) (taken : BlockId) (takenArgs : List Reg) (notTaken : BlockId)
    (notTakenArgs : List Reg) (weight : BranchWeight)
  /-- the first case with the key wins -/
  | switch (value : Reg) (cases : List (Int32 × BlockId)) (fallback : BlockId)
  | ret (value : Reg)
  /-- leaves compiled code with the given values captured -/
  | exit (exit : ExitId) (values : List Reg)
  | unreachable
deriving DecidableEq, Inhabited, Repr

/-- The blocks that control may go to, in the order of the terminator. -/
def Terminator.successors : Terminator → List BlockId
  | .jump target _ => [target]
  | .branch _ taken _ notTaken _ _ => [taken, notTaken]
  | .switch _ cases fallback => cases.map (·.2) ++ [fallback]
  | .ret _ | .exit _ _ | .unreachable => []

/-- The registers that an instruction reads, in order. -/
def Inst.reads : Inst → List Reg
  | .iconst _ _ | .fconst _ | .context | .frame => []
  | .binary _ _ lhs rhs | .overflows _ _ lhs rhs | .fbinary _ lhs rhs | .icmp _ lhs rhs
  | .fcmp _ lhs rhs =>
    [lhs, rhs]
  | .unary _ _ arg | .funary _ arg | .extend _ arg | .truncate arg | .intToDouble _ arg
  | .doubleToInt _ arg | .bitcastToInt arg | .bitcastToDouble arg => [arg]
  | .select cond ifTrue ifFalse => [cond, ifTrue, ifFalse]
  | .load _ _ _ addr _ => [addr]
  | .store _ value addr _ => [value, addr]
  | .call _ args | .patchpoint _ args => args

/-- The registers that a terminator reads, in order. -/
def Terminator.reads : Terminator → List Reg
  | .jump _ args => args
  | .branch cond _ takenArgs _ notTakenArgs _ => cond :: takenArgs ++ notTakenArgs
  | .switch value _ _ | .ret value => [value]
  | .exit _ values => values
  | .unreachable => []

/-- A block. -/
structure Block where
  params : List Reg := []
  insts : Array InstData := #[]
  terminator : Terminator := .unreachable
  /-- rarely executed -/
  cold : Bool := false
deriving DecidableEq, Inhabited, Repr

/-- A function in low-level form. -/
structure Function where
  name : String
  blocks : Array Block := #[]
  /-- the types of the registers -/
  types : Array Ty := #[]
deriving DecidableEq, Inhabited, Repr

namespace Function

variable (f : Function)

def block (b : BlockId) : Except Fault Block := Fault.ofOption f.blocks[b.index]?

def typeOf (r : Reg) : Except Fault Ty := Fault.ofOption f.types[r.index]?

def instCount : Nat := (f.blocks.map (·.insts.size)).foldl (· + ·) 0

/-- Where control may go from a block. -/
def successors (b : BlockId) : List BlockId :=
  ((f.blocks[b.index]?).map (·.terminator.successors)).getD []

/-- Visits the blocks that wait, the first one first and each one once, putting those that follow it
before the others. The first argument bounds the steps. -/
def explore : Nat → List BlockId → List BlockId → Except Fault (List BlockId)
  | _, found, [] => .ok found.reverse
  | 0, found, _ => .ok found.reverse
  | steps + 1, found, b :: waiting =>
    if found.contains b then explore steps found waiting
    else do
      let next := (← f.block b).terminator.successors
      if next.any fun s => f.blocks.size ≤ s.index then throw .outOfRange
      explore steps (b :: found) (next.filter (fun s => !(b :: found).contains s) ++ waiting)

/-- The blocks reachable from block 0, in the order of a depth-first search. -/
def reachableBlocks : Except Fault (List BlockId) :=
  let edges := (f.blocks.map (·.terminator.successors.length)).foldl (· + ·) 0
  f.explore (edges + 1) [] [⟨0⟩]

/-- The sites of the function, in order. -/
def patchpointSites : List SiteId :=
  f.blocks.toList.flatMap fun b => b.insts.toList.filterMap fun i =>
    match i.inst with
    | .patchpoint site _ => some site
    | _ => none

end Function

end SpecJit.Lir
