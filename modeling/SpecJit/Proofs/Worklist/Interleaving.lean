import SpecJit.Proofs.Tables
import SpecJit.Worklist.Pool

/-!
# Steps on a worklist, in any order

Clients and workers change a worklist in atomic steps. `Action` lists the steps, a `Workshop` is a
worklist together with the plans that are being lowered, and `Workshop.run` lets a list of steps
happen one after the other and records what came of each of them (`Event`). A step that is not
possible where it stands changes nothing, so that every list of steps is a run, and every
interleaving is such a list.

The rest of the module says what a step does to the table of plans: it adds a plan (`Accepts`),
moves one on to the next stage (`Starts`, `Stores`), or drops some (`Drops`).
-/

namespace SpecJit

/-- One atomic step of a client or a worker. -/
inductive Action where
  /-- a client hands in a plan for the workers -/
  | enqueue (plan : Plan)
  /-- a client hands in a plan that it lowers itself -/
  | claim (plan : Plan)
  /-- a worker looks for a plan -/
  | pickUp
  /-- whoever lowers the plan at this place among those in hand comes back -/
  | finish (place : Nat)
  | abandon (key : CompilationKey)
  /-- a client takes the results of an owner -/
  | complete (owner : UInt64)
  | shutdown

/-- What came of a step. A plan is told by its ticket. -/
inductive Event where
  | accepted (ticket : Nat) (plan : Plan)
  /-- the result is in the table -/
  | readied (ticket : Nat) (key : CompilationKey)
  | abandoned (ticket : Option Nat) (key : CompilationKey)
  /-- the result was taken out of the table for the owner -/
  | delivered (ticket : Option Nat) (key : CompilationKey) (result : CompileResult)

/-- A worklist and the plans that workers and clients are lowering. -/
structure Workshop where
  worklist : Worklist
  jobs : List Job := []

namespace Worklist

/-- How far the plan of a key is. -/
def stage? (w : Worklist) (key : CompilationKey) : Option Stage := (w.entry? key).map Entry.stage

/-- The ticket of the plan of a key. -/
def ticket? (w : Worklist) (key : CompilationKey) : Option Nat := (w.entry? key).map Entry.ticket

/-- The plan of a job is still in the table. -/
def awaits (w : Worklist) (job : Job) : Bool := w.ticket? job.key == some job.ticket

end Worklist

namespace Workshop

/-- A step and what came of it. -/
def act (layout : ObjectLayout) (s : Workshop) : Action → List Event × Workshop
  | .enqueue plan =>
    match s.worklist.enqueue plan with
    | .ok worklist => ([.accepted s.worklist.nextTicket plan], { s with worklist })
    | .error _ => ([], s)
  | .claim plan =>
    match s.worklist.claim plan with
    | .ok (job, worklist) => ([.accepted job.ticket plan], ⟨worklist, job :: s.jobs⟩)
    | .error _ => ([], s)
  | .pickUp =>
    match s.worklist.pickUp with
    | (some job, worklist) => ([], ⟨worklist, job :: s.jobs⟩)
    | (none, worklist) => ([], { s with worklist })
  | .finish place =>
    match s.jobs[place]? with
    | none => ([], s)
    | some job =>
      let jobs := s.jobs.eraseIdx place
      match job.plan.lower layout with
      -- whoever fails at a plan does not come back
      | .error _ => ([], { s with jobs })
      | .ok result =>
        (if s.worklist.awaits job then [.readied job.ticket job.key] else [],
          ⟨s.worklist.finish job result, jobs⟩)
  | .abandon key =>
    (if (s.worklist.abandon key).1 then [.abandoned (s.worklist.ticket? key) key] else [],
      { s with worklist := (s.worklist.abandon key).2 })
  | .complete owner =>
    ((s.worklist.takeReady owner).1.map fun (key, result) => .delivered (s.worklist.ticket? key) key
      result,
      { s with worklist := (s.worklist.takeReady owner).2 })
  | .shutdown =>
    (if s.worklist.closed then [] else s.worklist.queue.map fun key => .abandoned
      (s.worklist.ticket? key) key,
      { s with worklist := s.worklist.shutdown })

/-- Steps one after the other, on a worklist that is empty at first. -/
def run (layout : ObjectLayout) (name : String) (actions : List Action) : List Event × Workshop :=
  actions.foldl (fun (events, s) a => (events ++ (s.act layout a).1, (s.act layout a).2))
    ([], ⟨{ name }, []⟩)

theorem run_concat (layout : ObjectLayout) (name : String) (actions : List Action) (a : Action) :
    run layout name (actions ++ [a]) =
      ((run layout name actions).1 ++ ((run layout name actions).2.act layout a).1,
        ((run layout name actions).2.act layout a).2) := by
  simp [run]

/-- What holds at first and is kept by every step holds after every run. -/
theorem run_induction {P : List Event → Workshop → Prop} (layout : ObjectLayout) (name : String)
    (hstart : P [] ⟨{ name }, []⟩)
    (hstep : ∀ events s a, P events s → P (events ++ (s.act layout a).1) (s.act layout a).2)
    (actions : List Action) :
    P (run layout name actions).1 (run layout name actions).2 := by
  rw [← actions.reverse_reverse]
  induction actions.reverse with
  | nil => exact hstart
  | cons a actions ih =>
    rw [List.reverse_cons, run_concat]
    exact hstep _ _ a ih

end Workshop

namespace Worklist

variable {w w' : Worklist} {key k : CompilationKey} {e : Entry} {plan : Plan} {stage : Stage}
  {job : Job} {result : CompileResult} {ks : List CompilationKey}

theorem stage?_eq (h : w.entry? key = some e) : w.stage? key = some e.stage := by
  rw [stage?, h, Option.map_some]

theorem ticket?_eq (h : w.entry? key = some e) : w.ticket? key = some e.ticket := by
  rw [ticket?, h, Option.map_some]

theorem stage?_eq_some : w.stage? key = some stage ↔ ∃ e, w.entry? key = some e ∧ e.stage = stage :=
  Option.map_eq_some_iff

/-! ## What a step does to the table -/

/-- A plan is added at a stage. -/
structure Accepts (w w' : Worklist) (plan : Plan) (stage : Stage) : Prop where
  new : w.entry? plan.key = none
  plans : w'.plans = (plan.key, ⟨w.nextTicket, plan, stage⟩) :: w.plans
  nextTicket : w'.nextTicket = w.nextTicket + 1
  ready : w'.ready = w.ready
  stats : w'.stats = { w.stats with enqueued := w.stats.enqueued + 1 }

/-- The plan that waits longest is picked up. -/
structure Starts (w w' : Worklist) (key : CompilationKey) (e : Entry) : Prop where
  entry : w.entry? key = some e
  queue : w.queue = key :: w'.queue
  plans : w'.plans = w.plansAt key .compiling
  nextTicket : w'.nextTicket = w.nextTicket
  ready : w'.ready = w.ready
  stats : w'.stats = w.stats

/-- The result of a plan comes in. -/
structure Stores (w w' : Worklist) (key : CompilationKey) (e : Entry) (result : CompileResult) :
    Prop where
  entry : w.entry? key = some e
  queue : w'.queue = w.queue
  plans : w'.plans = w.plansAt key (.ready result)
  nextTicket : w'.nextTicket = w.nextTicket
  ready : w'.ready = w.ready ++ [key]
  enqueued : w'.stats.enqueued = w.stats.enqueued
  completed : w'.stats.completed = w.stats.completed
  abandoned : w'.stats.abandoned = w.stats.abandoned

/-- Plans of different keys are dropped, and their keys with them. -/
structure Drops (w w' : Worklist) (ks : List CompilationKey) : Prop where
  nodup : ks.Nodup
  known : ∀ k ∈ ks, (w.entry? k).isSome = true
  queue : w'.queue = w.queue.filter fun k => !ks.contains k
  plans : w'.plans = w.plans.filter fun e => !ks.contains e.1
  nextTicket : w'.nextTicket = w.nextTicket
  ready : w'.ready = w.ready.filter fun k => !ks.contains k
  enqueued : w'.stats.enqueued = w.stats.enqueued
  gone : w'.stats.completed + w'.stats.abandoned = w.stats.completed + w.stats.abandoned + ks.length

theorem Accepts.entry? (h : w.Accepts w' plan stage) (k : CompilationKey) :
    w'.entry? k = if k = plan.key then some ⟨w.nextTicket, plan, stage⟩ else w.entry? k := by
  rw [Worklist.entry?, h.plans]
  by_cases hk : k = plan.key
  · simp [hk]
  · have hbeq : (k == plan.key) = false := by simpa using hk
    rw [List.lookup_cons, hbeq, if_neg hk]
    rfl

theorem Drops.entry? (h : w.Drops w' ks) (k : CompilationKey) :
    w'.entry? k = if k ∈ ks then none else w.entry? k := by
  rw [Worklist.entry?, h.plans, lookup_filter fun k => !ks.contains k]
  by_cases hk : k ∈ ks <;> simp [hk, Worklist.entry?]

/-- A plan that is there after some were dropped was there before. -/
theorem Drops.entry?_eq_some (h : w.Drops w' ks) :
    w'.entry? k = some e ↔ k ∉ ks ∧ w.entry? k = some e := by
  rw [h.entry?]
  by_cases hk : k ∈ ks <;> simp [hk]

/-- The keys that are still ready have the tickets they had. -/
theorem Drops.ticket?_of_ready (h : w.Drops w' ks) (hk : k ∈ w'.ready) :
    w'.ticket? k = w.ticket? k := by
  have hnot : k ∉ ks := by
    rw [h.ready, List.mem_filter] at hk
    simpa using hk.2
  rw [ticket?, ticket?, h.entry?, if_neg hnot]

theorem lookup_plansAt (key : CompilationKey) (stage : Stage) (k : CompilationKey) :
    (w.plansAt key stage).lookup k = (w.entry? k).map fun e => if k = key then { e with stage }
      else e := by
  rw [plansAt, entry?]
  induction w.plans with
  | nil => rfl
  | cons p plans ih =>
    obtain ⟨k', e⟩ := p
    by_cases hk : k = k'
    · simp [hk]
    · have hbeq : (k == k') = false := by simpa using hk
      rw [List.map_cons, List.lookup_cons, List.lookup_cons, hbeq]
      exact ih

/-- The plan of one key is at another stage, and nothing else has changed. -/
theorem entry?_of_plansAt (hplans : w'.plans = w.plansAt key stage) (hentry : w.entry? key = some e)
    (k : CompilationKey) :
    w'.entry? k = if k = key then some { e with stage } else w.entry? k := by
  rw [Worklist.entry?, hplans, lookup_plansAt]
  by_cases hk : k = key
  · simp [hk, hentry]
  · simp [hk]

/-- Apart from its stage, a plan is the same as before. -/
theorem exists_of_plansAt (hplans : w'.plans = w.plansAt key stage) (he : w'.entry? k = some e) :
    ∃ e₀, w.entry? k = some e₀ ∧ e.ticket = e₀.ticket ∧ e.plan = e₀.plan := by
  rw [Worklist.entry?, hplans, lookup_plansAt] at he
  obtain ⟨e₀, he₀, rfl⟩ := Option.map_eq_some_iff.1 he
  refine ⟨e₀, he₀, ?_⟩
  split <;> exact ⟨rfl, rfl⟩

theorem Starts.entry? (h : w.Starts w' key e) (k : CompilationKey) :
    w'.entry? k = if k = key then some { e with stage := .compiling } else w.entry? k :=
  entry?_of_plansAt h.plans h.entry k

theorem Stores.entry? (h : w.Stores w' key e result) (k : CompilationKey) :
    w'.entry? k = if k = key then some { e with stage := .ready result } else w.entry? k :=
  entry?_of_plansAt h.plans h.entry k

theorem keys_plansAt (key : CompilationKey) (stage : Stage) :
    (w.plansAt key stage).map Prod.fst = w.plans.map Prod.fst := by
  rw [plansAt, List.map_map]
  rfl

theorem length_plansAt (key : CompilationKey) (stage : Stage) :
    (w.plansAt key stage).length = w.plans.length := by
  rw [plansAt, List.length_map]

theorem accept_ok {ticket : Nat} (h : w.accept plan stage = .ok (ticket, w')) :
    ticket = w.nextTicket ∧ w'.queue = w.queue ∧ w.Accepts w' plan stage := by
  unfold accept at h
  split at h
  · cases h
  · split at h
    · cases h
    · rename_i hnew
      cases h
      exact ⟨rfl, rfl, by simpa [contains] using hnew, rfl, rfl, rfl, rfl⟩

theorem enqueue_ok (h : w.enqueue plan = .ok w') :
    w'.queue = w.queue ++ [plan.key] ∧ w.Accepts w' plan .queued := by
  unfold enqueue at h
  cases haccept : w.accept plan .queued with
  | error e =>
    rw [haccept] at h
    cases h
  | ok p =>
    obtain ⟨ticket, w₁⟩ := p
    obtain ⟨-, hqueue, hnew, hplans, hnext, hready, hstats⟩ := accept_ok haccept
    rw [haccept] at h
    cases h
    exact ⟨by rw [hqueue], hnew, hplans, hnext, hready, hstats⟩

theorem claim_ok (h : w.claim plan = .ok (job, w')) :
    job = ⟨w.nextTicket, plan⟩ ∧ w'.queue = w.queue ∧ w.Accepts w' plan .compiling := by
  unfold claim at h
  cases haccept : w.accept plan .compiling with
  | error e =>
    rw [haccept] at h
    cases h
  | ok p =>
    obtain ⟨ticket, w₁⟩ := p
    obtain ⟨rfl, hqueue, haccepts⟩ := accept_ok haccept
    rw [haccept] at h
    cases h
    exact ⟨rfl, hqueue, haccepts⟩

theorem finish_of_awaits (hentry : w.entry? job.key = some e) (hticket : e.ticket = job.ticket)
    (result : CompileResult) :
    w.Stores (w.finish job result) job.key e result := by
  have hfinish : w.finish job result = { w with
      plans := w.plansAt job.key (.ready result)
      ready := w.ready ++ [job.key]
      stats := w.countResult result } := by
    rw [finish, hentry]
    exact if_pos hticket
  rw [hfinish]
  refine ⟨hentry, rfl, rfl, rfl, rfl, ?_, ?_, ?_⟩ <;> cases result <;> rfl

theorem finish_of_not_awaits (h : w.awaits job = false) (result : CompileResult) :
    w.finish job result = w := by
  rw [finish]
  cases hentry : w.entry? job.key with
  | none => rfl
  | some e =>
    rw [awaits, ticket?_eq hentry] at h
    refine if_neg fun hticket => ?_
    simp [hticket] at h

/-- The result that waits for the owner of a key. -/
def result? (plans : List (CompilationKey × Entry)) (key : CompilationKey) : Option CompileResult :=
  match (plans.lookup key).map Entry.stage with
  | some (.ready result) => some result
  | _ => none

/-- Taking different keys one after the other takes them all at once. -/
theorem takeKeys_eq (hks : ks.Nodup) (plans : List (CompilationKey × Entry)) :
    takeKeys ks plans =
      (ks.filterMap fun key => (result? plans key).map (key, ·), plans.filter fun e => !ks.contains
        e.1) := by
  induction ks generalizing plans with
  | nil => simp [takeKeys]
  | cons key ks ih =>
    obtain ⟨hnot, hks⟩ := List.nodup_cons.1 hks
    have hplans : (plans.filter fun e => e.1 != key).filter (fun e => !ks.contains e.1) =
        plans.filter fun e => !(key :: ks).contains e.1 := by
      rw [List.filter_filter]
      refine List.filter_congr fun e _ => ?_
      by_cases he : e.1 = key <;> simp [he]
    -- the keys behind the first one are where they were
    have hrest : (ks.filterMap fun k => (result? (plans.filter fun e => e.1 != key) k).map (k, ·)) =
        ks.filterMap fun k => (result? plans k).map (k, ·) := by
      refine List.filterMap_congr fun k hk => ?_
      have hne : k ≠ key := fun he => hnot (he ▸ hk)
      rw [result?, lookup_filter fun k => k != key, if_pos (by simpa using hne)]
      rfl
    rw [takeKeys, ih hks, hplans, hrest, List.filterMap_cons]
    cases hstage : (plans.lookup key).map Entry.stage with
    | none => simp [result?, hstage]
    | some stage => cases stage <;> simp [result?, hstage]

end Worklist

end SpecJit
