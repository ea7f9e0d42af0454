import SpecJit.Codegen
import SpecJit.Report.Lowering
import SpecJit.Simulation

/-!
# Reports on native code

Native code is run on a frame of its own with a runtime whose helpers answer 7 and whose sites
answer the boxed number 42. A run that does not end, or ends in a place that cannot be reached, is
skipped; a trial run, in which every call is answered by zero, finds that out.
-/

namespace SpecJit.Report

open Lir Simulation

/-- What a run of native code starts from. -/
structure NativeStart where
  frame : FrameValues
  /-- the flag of the context that says that the code is out of date -/
  invalidated : Word := 0

def NativeStart.memory (s : NativeStart) : Memory :=
  s.frame.memory.write (contextAddress + (Int64.ofInt Context.invalidatedOffset).toUInt64) 4
    s.invalidated

/-- The answers of the runtime that native code is run with. -/
def nativeAnswers : Scripts where
  otherHelper := 7
  otherSite := Value.boxInt32 42

/-- The steps of a trial run. -/
def trialLimit : Nat := 1000000

/-- The steps that a run may take after its trial ended. -/
def nativeLimit : Nat := 1000000000

/-- The trial run ends well. -/
def endsWell (code : NativeCode) (s : NativeStart) : Except Fault Bool :=
  match (run code.lowered.lir {} trialLimit s.memory).result with
  | .ok (.returned _) | .ok (.exited _ _) => .ok true
  | .ok (.unreachable _) | .error (.error _) => .ok false
  | .error (.fault f) => .error f

/-- The end of a run. -/
def nativeOutcome (code : NativeCode) : Outcome → Except Fault (List (String × Json))
  | .returned w => return [("returned", boxed w)]
  | .exited e values =>
    return [("exited", encode e),
      ("kind", option (fun x => encode x.kind) (code.lowered.exits.exit? e)),
      ("values", ← capturedValues code.lowered.lir e values)]
  | .unreachable _ => return []

/-- What the locals of a frame hold. -/
def localWords (m : Memory) (numLocals : Nat) : Json :=
  list (fun (k : Nat) => boxed (readSlot m (-1 - k))) (List.range numLocals)

/-- A run of native code. -/
def nativeRun (code : NativeCode) (numLocals : Nat) (s : NativeStart) : Except Fault Json := do
  let skipped := Json.obj [("skipped", .bool true)]
  if !(← endsWell code s) then return skipped
  let final := run code.lowered.lir nativeAnswers nativeLimit s.memory
  match final.result with
  | .ok (.unreachable _) | .error (.error _) => return skipped
  | .error (.fault f) => throw f
  | .ok o =>
    return .obj ((← nativeOutcome code o) ++ [("locals", localWords final.memory numLocals)])

/-- Native code and its runs. -/
def nativeCode (code : NativeCode) (runs : List Json) : Json :=
  .obj [("sites", nat code.lowered.caches.sites.size), ("exits", nat code.lowered.exits.exits.size),
    ("stats", loweringStats code.lowered.stats), ("has_helpers", encode code.helpers.isSome),
    ("runs", .arr runs)]

end SpecJit.Report
