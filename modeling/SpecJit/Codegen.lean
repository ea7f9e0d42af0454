import SpecJit.Lowering
import Std.Data.TreeMap

/-!
# Code generation

Native code means what `Lir.Machine` says of its function. What is left to a backend is to refuse a
function: it goes over the blocks in the order of `Lir.Function.reachableBlocks` and wants every
register to be defined before it is read there, every register that is defined, stored or captured
to have a type, every helper that is called to be registered, and the keys of every switch to be
different, as they are the entries of a table.
-/

namespace SpecJit

/-- Why a backend refuses a function. -/
inductive CodegenError where
  | missingHelper (h : Helper)
  | undefined (r : Lir.Reg)
  | repeatedKey (key : Int32)
  /-- a register that the function has no type for -/
  | untyped (r : Lir.Reg)
deriving DecidableEq, Inhabited, Repr

namespace CodegenError

def kind : CodegenError → String
  | .missingHelper _ => "MissingHelper"
  | .undefined _ => "Builder"
  | .repeatedKey _ | .untyped _ => "panic"

/-- The text of an error that is reported with one. -/
def message? : CodegenError → Option String
  | .missingHelper h => some s!"runtime helper {h.symbol} is not registered"
  | .undefined _ | .repeatedKey _ | .untyped _ => none

end CodegenError

/-- The register that an instruction defines. A store has no value to define one with. -/
def Lir.InstData.defines? (i : InstData) : Option Reg :=
  match i.inst with
  | .store _ _ _ _ => none
  | _ => i.result

namespace Codegen

open Lir

/-- Which of the registers of the function are defined so far. -/
abbrev Defined := Array Bool

/-- The register is one of the function. -/
def checkTyped (d : Defined) (r : Reg) : Except CodegenError Unit :=
  if r.index < d.size then .ok () else .error (.untyped r)

def define (d : Defined) (r : Reg) : Except CodegenError Defined := do
  checkTyped d r
  return d.setIfInBounds r.index true

/-- Every register that is read is defined. -/
def checkReads (d : Defined) (reads : List Reg) : Except CodegenError Unit :=
  match reads.find? fun r => !d[r.index]?.getD false with
  | some r => .error (.undefined r)
  | none => .ok ()

/-- The helper that an instruction calls is registered. -/
def checkHelper (helpers : Option HelperSet) : Inst → Except CodegenError Unit
  | .call h _ => if helpers.any (·.contains h) then .ok () else .error (.missingHelper h)
  | _ => .ok ()

/-- What an instruction reads. A store asks for the type of the value before anything else. -/
def checkOperands (d : Defined) : Inst → Except CodegenError Unit
  | .store _ value addr _ => do
    checkTyped d value
    checkReads d [value, addr]
  | inst => checkReads d inst.reads

/-- An instruction and the registers defined after it. -/
def checkInst (helpers : Option HelperSet) (d : Defined) (i : InstData) :
    Except CodegenError Defined := do
  checkHelper helpers i.inst
  checkOperands d i.inst
  match i.defines? with
  | some r => define d r
  | none => return d

/-- The table of a native switch: its entries under their keys, which are taken as unsigned. The
backend is no part of this library; `SwitchTable.enter` and `SwitchTable.target` state what is
documented of its switches: an entry for a key that has one is refused, and a value goes to the
entry of its key, or to the fallback if there is none. -/
abbrev SwitchTable := Std.TreeMap UInt32 BlockId

/-- Adds an entry under a key that has none. -/
def SwitchTable.enter (t : SwitchTable) (c : Int32 × BlockId) : Except CodegenError SwitchTable :=
  if t.contains c.1.toUInt32 then .error (.repeatedKey c.1) else .ok (t.insert c.1.toUInt32 c.2)

/-- Where a native switch goes on a value, of which the low half counts, as documented of the
backend. -/
def SwitchTable.target (t : SwitchTable) (fallback : BlockId) (w : Word) : BlockId :=
  t.getD w.toUInt32 fallback

/-- The table of all cases. -/
def switchTable (cases : List (Int32 × BlockId)) : Except CodegenError SwitchTable :=
  cases.foldlM SwitchTable.enter {}

/-- A value that an exit captures, with its type. -/
def checkCaptured (d : Defined) (r : Reg) : Except CodegenError Unit := do
  checkTyped d r
  checkReads d [r]

/-- A terminator. -/
def checkTerminator (d : Defined) : Terminator → Except CodegenError Unit
  | .switch value cases _ => do
    checkReads d [value]
    discard (switchTable cases)
  | .exit _ values => values.forM (checkCaptured d)
  | t => checkReads d t.reads

/-- A block and the registers defined after it. -/
def checkBlock (helpers : Option HelperSet) (d : Defined) (b : Block) :
    Except CodegenError Defined := do
  let d ← b.insts.foldlM (checkInst helpers) (← b.params.foldlM define d)
  checkTerminator d b.terminator
  return d

/-- A whole function. -/
def check (helpers : Option HelperSet) (f : Lir.Function) (order : List BlockId) :
    Except CodegenError Unit := do
  let blocks := order.filterMap fun b => f.blocks[b.index]?
  discard (blocks.foldlM (checkBlock helpers) (Array.replicate f.types.size false))

end Codegen

/-- A function in native form, with the helpers it was linked to. -/
structure NativeCode where
  lowered : LoweredFunction
  helpers : Option HelperSet

/-- Why there is no native code for a graph. -/
inductive EmitFailure where
  | compile (f : CompileFailure)
  | codegen (e : CodegenError)
  | fault (f : Fault)

/-- The graph in native form. -/
def Graph.emit (g : Graph) (options : LoweringOptions) (layout : ObjectLayout)
    (helpers : Option HelperSet) :
    Except EmitFailure NativeCode := do
  let lowered ← (g.compile options layout).mapError .compile
  let order ← lowered.lir.reachableBlocks.mapError .fault
  (Codegen.check helpers lowered.lir order).mapError .codegen
  return { lowered, helpers }

end SpecJit
