import SpecJit.Lir.Codec
import SpecJit.Lir.Eval
import SpecJit.Report.Basic

/-!
# Simulated runs

A simulated run executes a low-level function on a frame given by its arguments and locals, with a
runtime that answers calls from scripts. The run remembers the calls, so that they can be shown.
-/

namespace SpecJit.Simulation

open Lir

/-- The address of the execution context. -/
def contextAddress : Word := 0x1000

/-- The address of the frame. -/
def frameAddress : Word := 0x100000

/-- The address of a slot of the frame. -/
def slotAddress (slot : Int) : Word := frameAddress + (Int64.ofInt (8 * slot)).toUInt64

/-! ## The frame -/

/-- The frame of a run. -/
structure FrameValues where
  /-- the argument count in the header; the number of arguments, `this` included, unless given -/
  argumentCount : Option Word := none
  this : Word := Value.undefined
  arguments : List Word := []
  locals : List Word := []

/-- Memory that holds the frame and nothing else. -/
def FrameValues.memory (f : FrameValues) : Memory :=
  let count := f.argumentCount.getD (UInt64.ofNat (f.arguments.length + 1))
  let m := ({} : Memory).write (slotAddress Frame.argumentCountSlot) 4 count
  let m := (f.this :: f.arguments).zipIdx.foldl
    (fun m (w, i) => m.write (slotAddress (Frame.headerSlots + i)) 8 w) m
  f.locals.zipIdx.foldl (fun m (w, k) => m.write (slotAddress (-1 - k)) 8 w) m

/-- What a slot of the frame holds. -/
def readSlot (m : Memory) (slot : Int) : Word := m.read (slotAddress slot) 8

/-- What the frame holds for each variable of an exit. -/
def frameOperands (m : Memory) (values : Operands ExitValue) : Except Fault (Operands Word) := do
  let read (v : Operand) : Except Fault Word := do return readSlot m (← Frame.slot v)
  let operands := values.map fun v _ => v
  return { arguments := ← operands.arguments.mapM read, locals := ← operands.locals.mapM read }

/-! ## The runtime -/

/-- A call that the code made. -/
inductive CallRecord where
  | helper (h : Helper) (args : List Word)
  | site (s : SiteId) (args : List Word)

namespace CallRecord

/-- The helper's words are doubles. -/
def takesDoubles : Helper → Bool
  | .convertDoubleToInt52 | .doubleToInt32 | .pow | .sin | .cos | .log | .fmod => true
  | _ => false

def report : CallRecord → Json
  | .helper h args =>
    .arr (.str h.name :: args.map (if takesDoubles h then Report.rawDouble else Report.boxed))
  | .site s args => .arr (.str s!"site{s.index}" :: args.map Report.boxed)

end CallRecord

/-- The two helpers that only convert numbers work; any other one answers `other`. -/
def plainAnswer (other : Word) (h : Helper) (args : List Word) : Word :=
  match h, args with
  | .boxInt52, a :: _ => Value.boxInt52 a.toInt64
  | .convertDoubleToInt52, a :: _ =>
    match Value.doubleAsInt52? ⟨a⟩ with
    | some n => n.toUInt64
    | none => Helper.notInt52
  | _, _ => other

/-- The answers to the calls of each helper and site, in order; the last one repeats. -/
structure Scripts where
  helpers : List (Helper × List Word) := []
  sites : List (SiteId × List Word) := []
  /-- what a helper or site without a script answers -/
  otherHelper : Word := 0
  otherSite : Word := 0

/-- The next word of a script and what is left of it; the last word stays. -/
def nextWord : List Word → Option Word × List Word
  | [] => (none, [])
  | [w] => (some w, [w])
  | w :: rest => (some w, rest)

/-- The next word for a key and what is left of the scripts. -/
def answerFrom {κ : Type} [DecidableEq κ] (key : κ) :
    List (κ × List Word) → Option Word × List (κ × List Word)
  | [] => (none, [])
  | (k, words) :: rest =>
    if k = key then
      let (answer, words) := nextWord words
      (answer, (k, words) :: rest)
    else
      let (answer, rest) := answerFrom key rest
      (answer, (k, words) :: rest)

/-- What a run has left of its scripts, and the calls so far, the last one first. -/
structure RuntimeState where
  scripts : Scripts := {}
  calls : List CallRecord := []

/-- The calls in the order in which they were made. -/
def RuntimeState.log (s : RuntimeState) : List CallRecord := s.calls.reverse

/-- The runtime that answers from scripts and logs the calls. -/
def runtime : Runtime RuntimeState where
  callHelper h args s memory :=
    let (answer, helpers) := answerFrom h s.scripts.helpers
    (answer.getD (plainAnswer s.scripts.otherHelper h args),
      { scripts := { s.scripts with helpers }, calls := .helper h args :: s.calls }, memory)
  patchpoint site args s memory :=
    let (answer, sites) := answerFrom site s.scripts.sites
    (answer.getD s.scripts.otherSite,
      { scripts := { s.scripts with sites }, calls := .site site args :: s.calls }, memory)

/-- A call that has no answer: a conversion without a script and without a number to convert. -/
def Scripts.lacksAnswer (s : Scripts) : CallRecord → Bool
  | .helper h [] =>
    (h == .boxInt52 || h == .convertDoubleToInt52) && ((s.helpers.lookup h).getD []).isEmpty
  | _ => false

/-- Runs a function from the given memory. A call without an answer ends the run with a fault. -/
def run (f : Lir.Function) (s : Scripts) (limit : Nat) (memory : Memory) : Final RuntimeState :=
  let machine : Machine RuntimeState :=
    { func := f, context := contextAddress, frame := frameAddress, runtime }
  let final := machine.run limit memory { scripts := s }
  if final.runtimeState.calls.any s.lacksAnswer
    then { final with result := .error (.fault .outOfRange) } else final

/-! ## Reports -/

/-- The registers that the first exit with a given id captures. -/
def capturedRegs (f : Lir.Function) (e : ExitId) : List Reg :=
  (f.blocks.toList.findSome? fun b =>
    match b.terminator with
    | .exit id values => if id = e then some values else none
    | _ => none).getD []

/-- A captured word, shown by its type; one that the first exit with the id does not capture has
none. -/
def captured (ty : Option Ty) (w : Word) : Json :=
  match ty with
  | some .f64 => Report.rawDouble w
  | some .i32 => Report.word w
  | _ => Report.boxed w

/-- The values captured at an exit, each shown by its type. -/
def capturedValues (f : Lir.Function) (e : ExitId) (values : List Word) : Except Fault Json := do
  let types ← (capturedRegs f e).mapM f.typeOf
  return .arr (values.zipIdx.map fun (w, i) => captured types[i]? w)

end SpecJit.Simulation
