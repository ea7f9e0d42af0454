import SpecJit.Lowering

/-!
# Worklists

A `Worklist` holds plans to lower functions from the moment they are accepted until their owner
takes the result or abandons them. Clients and workers change it in steps, each of which is atomic:

* a client hands in a plan (`enqueue`, or `claim` if it lowers the plan itself);
* a worker picks up the plan that waits longest (`pickUp`) and later brings back the result
  (`finish`);
* a client abandons a plan (`abandon`) or takes the results of an owner (`takeReady`);
* the worklist is closed (`shutdown`).

A key can be abandoned and handed in again while a worker still lowers the earlier plan. Each plan
gets a ticket of its own, and the result of a plan whose ticket is out of date is dropped.
-/

namespace SpecJit

/-- A function and the owner that asks for it. -/
structure CompilationKey where
  owner : UInt64
  function : UInt64
deriving DecidableEq, Hashable, Inhabited, Repr

instance : ToString CompilationKey := ⟨fun k => s!"{k.owner}:{k.function}"⟩

/-- Where a key stands. -/
inductive CompilationState where
  /-- never handed in, taken or abandoned -/
  | notKnown
  /-- waiting or being lowered -/
  | compiling
  /-- waiting for its owner -/
  | ready
deriving DecidableEq, Inhabited, Repr

def CompilationState.name : CompilationState → String
  | .notKnown => "NotKnown"
  | .compiling => "Compiling"
  | .ready => "Ready"

/-- Why a plan is not accepted. -/
inductive WorklistError where
  | shutDown (name : String)
  | duplicate (key : CompilationKey)
deriving DecidableEq, Inhabited, Repr

namespace WorklistError

def kind : WorklistError → String
  | .shutDown _ => "ShutDown"
  | .duplicate _ => "Duplicate"

def message : WorklistError → String
  | .shutDown name => s!"worklist {name} is shut down"
  | .duplicate key => s!"compilation {key} is already in the worklist"

end WorklistError

/-- A function to lower. -/
structure Plan where
  key : CompilationKey
  graph : Graph
  options : LoweringOptions := {}

/-- A lowered function, or why the function cannot be compiled. -/
abbrev CompileResult := Except CompileError LoweredFunction

/-- How far a plan is. -/
inductive Stage where
  | queued
  | compiling
  | ready (result : CompileResult)

/-- A plan in a worklist. -/
structure Entry where
  /-- tells the plan from earlier ones with its key -/
  ticket : Nat
  plan : Plan
  stage : Stage

/-- A plan that a worker has picked up. -/
structure Job where
  ticket : Nat
  plan : Plan

def Job.key (j : Job) : CompilationKey := j.plan.key

structure WorklistStats where
  /-- plans accepted -/
  enqueued : Nat := 0
  /-- plans lowered -/
  compiled : Nat := 0
  /-- plans whose function cannot be compiled -/
  failed : Nat := 0
  /-- plans dropped before their owner took the result -/
  abandoned : Nat := 0
  /-- plans whose owner took the result -/
  completed : Nat := 0
deriving DecidableEq, Inhabited, Repr

/-- The plans of a worklist and their order. -/
structure Worklist where
  name : String
  /-- the keys that wait for a worker -/
  queue : List CompilationKey := []
  plans : List (CompilationKey × Entry) := []
  /-- the keys that wait for their owner -/
  ready : List CompilationKey := []
  nextTicket : Nat := 0
  /-- no plan is accepted any more -/
  closed : Bool := false
  stats : WorklistStats := {}

namespace Worklist

variable (w : Worklist)

def entry? (key : CompilationKey) : Option Entry := w.plans.lookup key

def contains (key : CompilationKey) : Bool := (w.entry? key).isSome

/-- The plans without that of a key. -/
def plansWithout (key : CompilationKey) : List (CompilationKey × Entry) :=
  w.plans.filter fun e => e.1 != key

/-- The plans with a new stage for that of a key. -/
def plansAt (key : CompilationKey) (stage : Stage) : List (CompilationKey × Entry) :=
  w.plans.map fun (k, e) => (k, if k = key then { e with stage } else e)

/-! ## Queries -/

/-- Where a key stands. -/
def state (key : CompilationKey) : CompilationState :=
  match (w.entry? key).map Entry.stage with
  | none => .notKnown
  | some (.ready _) => .ready
  | some .queued | some .compiling => .compiling

/-- The number of plans that no worker has picked up. -/
def queueLength : Nat := w.queue.length

/-! ## Steps of clients -/

/-- Accepts a plan at a stage and gives it a ticket. -/
def accept (plan : Plan) (stage : Stage) : Except WorklistError (Nat × Worklist) :=
  if w.closed then .error (.shutDown w.name)
  else if w.contains plan.key then .error (.duplicate plan.key)
  else .ok (w.nextTicket, { w with
    plans := (plan.key, { ticket := w.nextTicket, plan, stage }) :: w.plans
    nextTicket := w.nextTicket + 1
    stats := { w.stats with enqueued := w.stats.enqueued + 1 } })

/-- Accepts a plan for the workers. -/
def enqueue (plan : Plan) : Except WorklistError Worklist := do
  let (_, w) ← w.accept plan .queued
  return { w with queue := w.queue ++ [plan.key] }

/-- Accepts a plan that its client lowers. -/
def claim (plan : Plan) : Except WorklistError (Job × Worklist) := do
  let (ticket, w) ← w.accept plan .compiling
  return (⟨ticket, plan⟩, w)

/-- Drops a plan; a worker that lowers it will find its ticket out of date. Tells whether there was
one. -/
def abandon (key : CompilationKey) : Bool × Worklist :=
  match w.entry? key with
  | none => (false, w)
  | some entry =>
    let w := { w with
      plans := w.plansWithout key
      stats := { w.stats with abandoned := w.stats.abandoned + 1 } }
    match entry.stage with
    | .queued => (true, { w with queue := w.queue.filter (· != key) })
    | .ready _ => (true, { w with ready := w.ready.filter (· != key) })
    | .compiling => (true, w)

/-- Drops the plans of an owner one after the other and counts them. -/
def abandonAll (owner : UInt64) : Nat × Worklist :=
  ((w.plans.map (·.1)).filter (·.owner == owner)).foldl (fun (n, w) key =>
    let (known, w) := w.abandon key
    (if known then n + 1 else n, w)) (0, w)

/-- Takes the results of keys that are ready out of the table. -/
def takeKeys : List CompilationKey → List (CompilationKey × Entry) →
    List (CompilationKey × CompileResult) × List (CompilationKey × Entry)
  | [], plans => ([], plans)
  | key :: keys, plans =>
    let (taken, rest) := takeKeys keys (plans.filter fun e => e.1 != key)
    match (plans.lookup key).map Entry.stage with
    | some (.ready result) => ((key, result) :: taken, rest)
    | _ => (taken, rest)

/-- Hands the results that are ready to their owner, in the order in which they became ready. -/
def takeReady (owner : UInt64) : List (CompilationKey × CompileResult) × Worklist :=
  let (taken, plans) := takeKeys (w.ready.filter (·.owner == owner)) w.plans
  (taken, { w with
    plans
    ready := w.ready.filter (·.owner != owner)
    stats := { w.stats with completed := w.stats.completed + taken.length } })

/-- Accepts no more plans and drops those that no worker has picked up. -/
def shutdown : Worklist :=
  if w.closed then w
  else { w with
    closed := true
    queue := []
    plans := w.plans.filter fun e => !w.queue.contains e.1
    stats := { w.stats with abandoned := w.stats.abandoned + w.queue.length } }

/-! ## Steps of workers -/

/-- The first of the given keys that has a plan, and the keys after it. -/
def firstPlanned : List CompilationKey → Option (Job × List CompilationKey)
  | [] => none
  | key :: rest =>
    match w.entry? key with
    | some entry => some (⟨entry.ticket, entry.plan⟩, rest)
    | none => firstPlanned rest

/-- Picks up the plan that waits longest. -/
def pickUp : Option Job × Worklist :=
  if w.closed then (none, w)
  else match w.firstPlanned w.queue with
    | none => (none, { w with queue := [] })
    | some (job, queue) => (some job, { w with queue, plans := w.plansAt job.key .compiling })

/-- The counters after a plan was lowered. -/
def countResult (result : CompileResult) : WorklistStats :=
  match result with
  | .ok _ => { w.stats with compiled := w.stats.compiled + 1 }
  | .error _ => { w.stats with failed := w.stats.failed + 1 }

/-- Brings back the result of a plan; it is dropped if the plan was abandoned. -/
def finish (job : Job) (result : CompileResult) : Worklist :=
  match w.entry? job.key with
  | none => w
  | some entry =>
    if entry.ticket = job.ticket then { w with
      plans := w.plansAt job.key (.ready result)
      ready := w.ready ++ [job.key]
      stats := w.countResult result }
    else w

end Worklist

end SpecJit
