import SpecJit.Lowering.Boxing

/-!
# Emitting exits

An exit records, for every variable that the code after it would read, where the value is: in a slot
of the frame, as a constant, or in a register that the exit captures. An object whose allocation was
put off is described field by field, once per exit even if several variables hold it, and an
addition that no other code needs is redone by the exit.
-/

namespace SpecJit

/-- The word of a constant operation. -/
def Op.constantWord? : Op → Option Word
  | .jsConstant v => some (Value.ofFrozen v)
  | .doubleConstant d => some (Value.boxNumber d)
  | .int52Constant n => some (Value.boxInt52 n)
  | _ => none

/-- What an exit builds in place of an allocation that was put off. -/
def PhantomKind.materialization : PhantomKind → MaterializationKind
  | .newObject => .newObject
  | .newFunction => .newFunction
  | .createActivation => .createActivation
  | .directArguments => .directArguments
  | .clonedArguments => .clonedArguments

namespace Lowering

open Lir

/-- An exit under construction: the registers it captures, and the objects described so far. -/
structure Capture where
  regs : Array Reg := #[]
  built : List (NodeId × MaterializationId) := []

/-- Steps of building an exit. -/
abbrev Capturing := StateT Capture Lower

/-- Captures a register, and gives its place. -/
def capture (r : Reg) : Capturing Nat := do
  let c ← get
  match c.regs.idxOf? r with
  | some place => return place
  | none =>
    set { c with regs := c.regs.push r }
    return c.regs.size

/-- The forms in which an exit captures a node, the preferred ones first. -/
def capturedForms : List (Form × ValueFormat) :=
  [(.int32, .int32), (.int52, .int52), (.strictInt52, .strictInt52), (.boolean, .boolean),
    (.double, .double), (.jsValue, .jsValue)]

/-- The first form of a list in which a node is held here. -/
def firstHeld? (id : NodeId) : List (Form × ValueFormat) → Lower (Option (Reg × ValueFormat))
  | [] => return none
  | (form, format) :: rest => do
    match ← held? id form with
    | some r => return some (r, format)
    | none => firstHeld? id rest

/-- The register of an int32 operand that an exit needs; a constant is put into one. -/
def int32ForExit? (e : Edge) : Lower (Option Reg) := do
  match ← held? e.node .int32 with
  | some r => return some r
  | none =>
    match (← getNode e.node).op with
    | .jsConstant (.int32 n) => return some (← Emit.int32 n.toInt)
    | _ => return none

/-- The addition or subtraction of two captured values, for a node that only exits need. -/
def recoveryOf (id : NodeId) (node : Node) : Capturing ExitValue := do
  if !(← read).exitOnly.contains id then return .dead
  let left ← int32ForExit? (← node.child 0)
  let right ← int32ForExit? (← node.child 1)
  match left, right with
  | some left, some right =>
    let op : RecoveryOp := match node.op with
      | .arith .add _ => .add
      | _ => .sub
    let left ← capture left
    let right ← capture right
    return .recovery op left right .int32
  | _, _ => return .dead

/-- How an exit gets back the value of a node that is no allocation. -/
def capturedValue (id : NodeId) (node : Node) : Capturing ExitValue := do
  match node.op.constantWord? with
  | some w => return .constant w
  | none =>
    match ← firstHeld? id capturedForms with
    | some (r, format) =>
      let format := if format == .jsValue && node.result == .cell then .cell else format
      return .argument (← capture r) format
    | none => recoveryOf id node

/-- Adds a description of an object without its fields. -/
def announce (id : NodeId) (kind : PhantomKind) (origin : CodeOrigin) :
    Capturing MaterializationId := do
  let s ← getThe State
  let (m, exits) := s.exits.pushMaterialization { kind := kind.materialization, origin }
  modifyThe State fun s => { s with exits }
  modify fun c => { c with built := (id, m) :: c.built }
  return m

/-- Gives a described object its fields. -/
def describe (m : MaterializationId) (properties : List (PromotedLocation × ExitValue)) :
    Capturing Unit :=
  modifyThe State fun s =>
    { s with exits.materializations := s.exits.materializations.modify m.index fun d => { d
      with properties } }

/-- How an exit gets back a value that is available somewhere. The first argument bounds how deep
objects hold each other; each level describes an object that no level above it does. -/
def exitValue : Nat → Availability → Capturing ExitValue
  | 0, _ => return .dead
  | depth + 1, a => do
    match a.liveFlush?.bind fun f => (ValueFormat.ofFlush? f.format).map (f.slot, ·) with
    | some (slot, format) => return .inStack slot format
    | none =>
      match a.node with
      | none => return .dead
      | some id =>
        let node ← getNode id
        match node.op with
        | .phantomAllocation kind =>
          match (← get).built.lookup id with
          | some m => return .materialize m
          | none =>
            let m ← announce id kind node.origin
            let fields := (← getThe State).availability.fieldsOf id
            let properties ← fields.mapM fun (location, a) => return (location, ← exitValue depth a)
            describe m properties
            return .materialize m
        | _ => capturedValue id node

/-- How an exit gets back one variable; a variable that nothing reads is left out, unless every
variable is asked for. -/
def exitVariable (v : Operand) (a : Availability) : Capturing ExitValue := do
  let env ← read
  let origin := (← getThe State).origin
  let live := env.graph.isLiveInBytecode v origin
  if env.options.validateExitLiveness && live && a.isDead then crash (.killedButLive v origin)
  if env.options.exitLiveness == .pruned && !live then return .dead
  exitValue (env.graph.nodes.size + 1) a

/-- Adds an exit to the table, and gives the registers it captures. -/
def buildExit (kind : ExitKind) (profile : Option Reg) : Lower (ExitId × List Reg) := do
  let s ← get
  let build : Capturing (Option Nat × List (Operand × ExitValue)) := do
    let profiled ← match profile with
      | some r => do pure (some (← capture r))
      | none => pure none
    let values ← s.availability.operands.toList.mapM fun (v, a) => return (v, ← exitVariable v a)
    return (profiled, values)
  let ((profileValue, values), c) ← build.run {}
  let g := (← read).graph
  let values :=
    values.foldl (fun o (v, x) => o.set v x) (Operands.replicate g.numArguments g.numLocals
      ExitValue.dead)
  let (id, exits) := (← get).exits.pushExit { kind, origin := s.origin, profileValue, values }
  modify fun s => { s with exits, stats.exits := s.stats.exits + 1 }
  return (id, c.regs.toList)

/-! ## Leaving -/

def countCheck : Lower Unit :=
  countStats fun st => { st with checksEmitted := st.checksEmitted + 1 }

/-- Leaves if `failing` is not 0. -/
def speculate (kind : ExitKind) (profile : Option Reg) (failing : Reg) : Lower Unit := do
  let (exit, captured) ← buildExit kind profile
  let cold ← Emit.createBlock true
  let continuation ← Emit.createBlock false
  Emit.branch failing cold continuation .takenRare
  Emit.switchTo cold
  Emit.exit exit captured
  Emit.switchTo continuation
  countCheck

/-- Leaves where no case of a dispatch matched. -/
def exitHere (kind : ExitKind) (profile : Option Reg) : Lower Unit := do
  let (exit, captured) ← buildExit kind profile
  Emit.exit exit captured
  countCheck

/-- Ends the block by leaving: what follows cannot be reached. -/
def terminate (kind : ExitKind) : Lower Unit := do
  if !(← get).facts.valid || (← Emit.isTerminated) then return
  let (exit, captured) ← buildExit kind none
  Emit.exit exit captured
  modify fun s =>
    { s with stats.terminatedBlocks := s.stats.terminatedBlocks + 1, facts := s.facts.invalidate }
  invalidateDominated

end Lowering

end SpecJit
