import SpecJit.Worklist.Basic
import SpecJit.Worklist.Config

/-!
# Pools of workers

A `CompilePool` is a worklist with the workers that serve it. Without workers in the background a
plan is lowered as soon as it is handed in. With them it is lowered when a client waits, by one
worker after the other: which worker runs when is not part of what a pool promises.
-/

namespace SpecJit

/-- Lowers the function of a plan. -/
def Plan.lower (p : Plan) (layout : ObjectLayout) : Except Lowering.Failure CompileResult :=
  match p.graph.compile p.options layout with
  | .ok f => .ok (.ok f)
  | .error (.rejected e) => .ok (.error e)
  | .error (.failed f) => .error f

/-- A worklist and its workers. -/
structure CompilePool where
  worklist : Worklist
  background : Bool
  /-- the workers that have not stopped -/
  workers : Nat
  layout : ObjectLayout := .standard

/-- Why a plan was not taken. -/
inductive EnqueueFailure where
  | refused (e : WorklistError)
  | failed (f : Lowering.Failure)

namespace CompilePool

/-- An empty worklist, with its workers if they are to work in the background. A worker is named for
its worklist. -/
def start (config : WorklistConfig) : Except Fault CompilePool := do
  if config.background then let _ ← Fault.checkNul config.name
  return { worklist := { name := config.name }, background := config.background,
           workers := config.workers }

variable (p : CompilePool)

/-- Lowers a plan and has its result ready. -/
def enqueueNow (plan : Plan) : Except EnqueueFailure CompilePool := do
  let (job, w) ← (p.worklist.claim plan).mapError .refused
  let result ← (plan.lower p.layout).mapError .failed
  return { p with worklist := w.finish job result }

/-- Leaves a plan to the workers. -/
def enqueueLater (plan : Plan) : Except EnqueueFailure CompilePool := do
  return { p with worklist := ← (p.worklist.enqueue plan).mapError .refused }

/-- Hands in a plan. -/
def enqueue (plan : Plan) : Except EnqueueFailure CompilePool :=
  if p.background then p.enqueueLater plan else p.enqueueNow plan

/-- One worker lowers one plan. A worker that fails at it stops, and the plan stays as it is. -/
def work : CompilePool :=
  match p.worklist.pickUp with
  | (none, w) => { p with worklist := w }
  | (some job, w) =>
    match job.plan.lower p.layout with
    | .ok result => { p with worklist := w.finish job result }
    | .error _ => { p with worklist := w, workers := p.workers - 1 }

/-- Workers lower up to a number of plans. -/
def workFor : Nat → CompilePool → CompilePool
  | 0, p => p
  | n + 1, p => if p.workers = 0 then p else workFor n p.work

/-- Waits until the workers have lowered all plans. -/
def wait : CompilePool := workFor p.worklist.queueLength p

/-- Drops a plan. -/
def abandon (key : CompilationKey) : Bool × CompilePool :=
  let (known, worklist) := p.worklist.abandon key
  (known, { p with worklist })

/-- Drops the plans of an owner. -/
def abandonAll (owner : UInt64) : Nat × CompilePool :=
  let (n, worklist) := p.worklist.abandonAll owner
  (n, { p with worklist })

/-- Hands the results that are ready to their owner. -/
def completeReady (owner : UInt64) : List (CompilationKey × CompileResult) × CompilePool :=
  let (taken, worklist) := p.worklist.takeReady owner
  (taken, { p with worklist })

/-- Accepts no more plans. -/
def shutdown : CompilePool := { p with worklist := p.worklist.shutdown }

end CompilePool

/-- The two worklists of a machine. -/
structure TierPools where
  /-- functions that leave the baseline tier -/
  baseline : CompilePool
  /-- functions that enter the high tier at once -/
  highTier : CompilePool

namespace TierPools

def start (baseline highTier : WorklistConfig) : Except Fault TierPools := do
  return ⟨← CompilePool.start baseline, ← CompilePool.start highTier⟩

variable (p : TierPools)

/-- Where a key stands in the first of the two worklists that knows it. -/
def state (key : CompilationKey) : CompilationState :=
  match p.baseline.worklist.state key with
  | .notKnown => p.highTier.worklist.state key
  | s => s

def wait : TierPools := ⟨p.baseline.wait, p.highTier.wait⟩

/-- Hands the results of both worklists to their owner. -/
def completeReady (owner : UInt64) : List (CompilationKey × CompileResult) × TierPools :=
  let (fromBaseline, baseline) := p.baseline.completeReady owner
  let (fromHighTier, highTier) := p.highTier.completeReady owner
  (fromBaseline ++ fromHighTier, ⟨baseline, highTier⟩)

def shutdown : TierPools := ⟨p.baseline.shutdown, p.highTier.shutdown⟩

end TierPools

end SpecJit
