import SpecJit.Proofs.Worklist.Interleaving

/-!
# Worklists stay consistent

`Worklist.Consistent` says that the queue and the list of ready keys hold exactly the keys of the
plans at these stages, each once, and that the counters account for every plan. `Workshop.Sound`
adds what is true of the plans in hand: a plan that is still in the table is there as it was picked
up, and no two of those in hand have the same key and ticket.

`act_change` says what a step can do to a sound workshop (`Change`), and the invariants follow from
that, case by case. The step that needs an argument is the return of a worker: its plan may have
been abandoned and its key handed in again, and the ticket tells whether the entry is still the one
that was picked up. `run_consistent` holds after every interleaving.
-/

namespace SpecJit

namespace Worklist

variable {w w' : Worklist} {key k : CompilationKey} {e : Entry} {plan : Plan} {stage : Stage}
  {job : Job} {result : CompileResult} {ks : List CompilationKey}

/-- The queue and the list of ready keys are what the table says, and every plan is accounted for.
-/
structure Consistent (w : Worklist) : Prop where
  keys : (w.plans.map Prod.fst).Nodup
  named : ∀ {key e}, w.entry? key = some e → e.plan.key = key
  queue : w.queue.Nodup
  queued : ∀ key, key ∈ w.queue ↔ w.stage? key = some .queued
  ready : w.ready.Nodup
  readied : ∀ key, key ∈ w.ready ↔ ∃ result, w.stage? key = some (.ready result)
  accounts : w.stats.enqueued = w.stats.completed + w.stats.abandoned + w.plans.length

theorem consistent_empty (name : String) : Consistent { name } where
  keys := .nil
  named h := by cases h
  queue := .nil
  queued key := by simp [stage?, entry?]
  ready := .nil
  readied key := by simp [stage?, entry?]
  accounts := rfl

namespace Consistent

/-- A plan is added at one of the first two stages, and to the queue if it is to wait. -/
theorem accepts (h : w.Consistent) (ha : w.Accepts w' plan stage)
    (hqueue : stage = .queued ∧ w'.queue = w.queue ++ [plan.key] ∨ stage = .compiling ∧
      w'.queue = w.queue) :
    w'.Consistent := by
  have hstage (k : CompilationKey) : w'.stage? k = if k = plan.key then some stage else w.stage?
    k := by
    rw [stage?, ha.entry?]
    split <;> rfl
  have hnone : w.stage? plan.key = none := by rw [stage?, ha.new, Option.map_none]
  have hnotQueued : plan.key ∉ w.queue := by rw [h.queued, hnone]; simp
  have hnotReady : plan.key ∉ w.ready := by rw [h.readied, hnone]; simp
  have hfresh : plan.key ∉ w.plans.map Prod.fst := by
    rw [← lookup_isSome_iff]
    exact fun hsome => by rw [← entry?, ha.new] at hsome; cases hsome
  refine ⟨?_, fun {key e} he => ?_, ?_, fun k => ?_, ?_, fun k => ?_, ?_⟩
  · rw [ha.plans]
    exact List.nodup_cons.2 ⟨hfresh, h.keys⟩
  · rw [ha.entry?] at he
    split at he
    · cases he
      exact Eq.symm ‹_›
    · exact h.named he
  · rcases hqueue with ⟨-, hq⟩ | ⟨-, hq⟩
    · rw [hq, List.nodup_append]
      refine ⟨h.queue, List.pairwise_singleton _ _, fun a ha b hb hab => hnotQueued ?_⟩
      rw [← List.mem_singleton.1 hb, ← hab]
      exact ha
    · rw [hq]
      exact h.queue
  · rw [hstage]
    rcases hqueue with ⟨rfl, hq⟩ | ⟨rfl, hq⟩
    · rw [hq, List.mem_append, List.mem_singleton, h.queued]
      by_cases hk : k = plan.key <;> simp [hk]
    · rw [hq]
      by_cases hk : k = plan.key
      · simpa [hk] using hnotQueued
      · rw [if_neg hk, h.queued]
  · rw [ha.ready]
    exact h.ready
  · rw [hstage, ha.ready]
    by_cases hk : k = plan.key
    · rcases hqueue with ⟨rfl, -⟩ | ⟨rfl, -⟩ <;> simpa [hk] using hnotReady
    · rw [if_neg hk, h.readied]
  · have := h.accounts
    rw [ha.stats, ha.plans, List.length_cons]
    dsimp only
    omega

/-- Plans are dropped. -/
theorem drops (h : w.Consistent) (hd : w.Drops w' ks) : w'.Consistent := by
  have hstage (k : CompilationKey) : w'.stage? k = if k ∈ ks then none else w.stage? k := by
    rw [stage?, hd.entry?]
    split <;> rfl
  have hmem (l : List CompilationKey) (k : CompilationKey) :
      (k ∈ l.filter fun k => !ks.contains k) ↔ k ∈ l ∧ k ∉ ks := by simp
  refine ⟨?_, fun he => h.named (hd.entry?_eq_some.1 he).2, ?_, fun k => ?_, ?_, fun k => ?_, ?_⟩
  · rw [hd.plans]
    exact h.keys.sublist (List.filter_sublist.map _)
  · rw [hd.queue]
    exact h.queue.filter _
  · rw [hd.queue, hmem, hstage, h.queued]
    by_cases hk : k ∈ ks <;> simp [hk]
  · rw [hd.ready]
    exact h.ready.filter _
  · rw [hd.ready, hmem, hstage, h.readied]
    by_cases hk : k ∈ ks <;> simp [hk]
  · have hlength := length_filter_notMem h.keys hd.nodup fun k hk =>
      lookup_isSome_iff.1 (hd.known k hk)
    have haccounts := h.accounts
    have hgone := hd.gone
    rw [hd.enqueued, hd.plans]
    omega

/-- The plan at the head of the queue is picked up. -/
theorem starts (h : w.Consistent) (hs : w.Starts w' key e) : w'.Consistent := by
  have hstage (k : CompilationKey) : w'.stage? k = if k = key then some .compiling else w.stage?
    k := by
    rw [stage?, hs.entry?]
    split <;> rfl
  have hqueue := h.queue
  rw [hs.queue] at hqueue
  obtain ⟨hnot, hnodup⟩ := List.nodup_cons.1 hqueue
  have hwas : w.stage? key = some .queued :=
    (h.queued key).1 (by rw [hs.queue]; exact List.mem_cons_self)
  refine ⟨?_, fun {k e'} he => ?_, hnodup, fun k => ?_, ?_, fun k => ?_, ?_⟩
  · rw [hs.plans, keys_plansAt]
    exact h.keys
  · obtain ⟨e₀, he₀, -, hplan⟩ := exists_of_plansAt hs.plans he
    rw [hplan]
    exact h.named he₀
  · rw [hstage]
    by_cases hk : k = key
    · simpa [hk] using hnot
    · rw [if_neg hk, ← h.queued, hs.queue, List.mem_cons, or_iff_right hk]
  · rw [hs.ready]
    exact h.ready
  · rw [hstage, hs.ready, h.readied]
    by_cases hk : k = key
    · simp [hk, hwas]
    · rw [if_neg hk]
  · rw [hs.stats, hs.plans, length_plansAt]
    exact h.accounts

/-- The result of a plan that is being lowered comes in. -/
theorem stores (h : w.Consistent) (hs : w.Stores w' key e result)
    (hcompiling : e.stage = .compiling) : w'.Consistent := by
  have hstage (k : CompilationKey) : w'.stage? k = if k = key then some (.ready result)
    else w.stage? k := by
    rw [stage?, hs.entry?]
    split <;> rfl
  have hwas : w.stage? key = some .compiling := by rw [stage?_eq hs.entry, hcompiling]
  have hnotReady : key ∉ w.ready := by rw [h.readied, hwas]; simp
  refine ⟨?_, fun {k e'} he => ?_, ?_, fun k => ?_, ?_, fun k => ?_, ?_⟩
  · rw [hs.plans, keys_plansAt]
    exact h.keys
  · obtain ⟨e₀, he₀, -, hplan⟩ := exists_of_plansAt hs.plans he
    rw [hplan]
    exact h.named he₀
  · rw [hs.queue]
    exact h.queue
  · rw [hstage, hs.queue, h.queued]
    by_cases hk : k = key
    · simp [hk, hwas]
    · rw [if_neg hk]
  · rw [hs.ready, List.nodup_append]
    refine ⟨h.ready, List.pairwise_singleton _ _, fun a ha b hb hab => hnotReady ?_⟩
    rw [← List.mem_singleton.1 hb, ← hab]
    exact ha
  · rw [hstage, hs.ready, List.mem_append, List.mem_singleton, h.readied]
    by_cases hk : k = key <;> simp [hk]
  · rw [hs.enqueued, hs.completed, hs.abandoned, hs.plans, length_plansAt]
    exact h.accounts

/-! ## Steps of a consistent worklist -/

/-- A worker finds the plan at the head of the queue. -/
theorem pickUp_cons (h : w.Consistent) (hopen : w.closed = false) {rest : List CompilationKey}
    (hqueue : w.queue = key :: rest) :
    ∃ e, w.Starts w.pickUp.2 key e ∧ w.pickUp.1 = some ⟨e.ticket, e.plan⟩ := by
  obtain ⟨e, he, -⟩ :=
    stage?_eq_some.1 ((h.queued key).1 (by rw [hqueue]; exact List.mem_cons_self))
  have hpick : w.pickUp = (some ⟨e.ticket, e.plan⟩,
    { w with queue := rest, plans := w.plansAt key .compiling }) := by
    have hname : Job.key ⟨e.ticket, e.plan⟩ = key := h.named he
    simp only [pickUp, hopen, hqueue, firstPlanned, he, hname]
    rfl
  rw [hpick]
  exact ⟨e, ⟨he, hqueue, rfl, rfl, rfl, rfl⟩, rfl⟩

/-- A worker finds nothing where no plan waits or the worklist is closed. -/
theorem pickUp_nil (h : w.closed = true ∨ w.queue = []) : w.pickUp = (none, w) := by
  rcases h with h | h
  · simp [pickUp, h]
  · have hsame : { w with queue := [] } = w := by rw [← h]
    rw [pickUp, h, firstPlanned, hsame, ite_self]

theorem filter_eq_self {l : List CompilationKey} (hl : ∀ k ∈ l, k ∉ ks) :
    (l.filter fun k => !ks.contains k) = l :=
  List.filter_eq_self.2 fun k hk => by simpa using hl k hk

theorem abandon_some (h : w.Consistent) (hentry : w.entry? key = some e) :
    (w.abandon key).1 = true ∧ w.Drops (w.abandon key).2 [key] := by
  have hone (k : CompilationKey) : ([key].contains k) = (k == key) := by rw [Bool.eq_iff_iff]; simp
  have hplans : w.plansWithout key = w.plans.filter fun e => !([key].contains e.1) := by
    rw [plansWithout]
    exact List.filter_congr fun e _ => by rw [hone]; rfl
  have hfilter (l : List CompilationKey) : (l.filter (· != key)) = l.filter fun k =>
    !([key].contains k) :=
    List.filter_congr fun k _ => by rw [hone]; rfl
  have hqueue (hne : e.stage ≠ .queued) : (w.queue.filter fun k => !([key].contains k)) = w.queue :=
    filter_eq_self fun k hk hmem => hne <| by
      rw [List.mem_singleton.1 hmem, h.queued, stage?_eq hentry] at hk
      exact Option.some.inj hk
  have hready (hne : ∀ result, e.stage ≠ .ready result) :
    (w.ready.filter fun k => !([key].contains k)) = w.ready :=
    filter_eq_self fun k hk hmem => by
      rw [List.mem_singleton.1 hmem, h.readied, stage?_eq hentry] at hk
      obtain ⟨result, hresult⟩ := hk
      exact hne result (Option.some.inj hresult)
  have hknown : ∀ k ∈ [key], (w.entry? k).isSome = true := fun k hk => by
    rw [List.mem_singleton.1 hk, hentry]
    rfl
  have hgone : w.stats.completed + (w.stats.abandoned + 1) = w.stats.completed + w.stats.abandoned
    + [key].length :=
    (Nat.add_assoc ..).symm
  rw [abandon, hentry]
  cases hstage : e.stage with
  | queued =>
    simp only [hstage]
    exact ⟨trivial, List.pairwise_singleton _ _, hknown, hfilter _, hplans, rfl,
      (hready (by simp [hstage])).symm, rfl, hgone⟩
  | compiling =>
    simp only [hstage]
    exact ⟨trivial, List.pairwise_singleton _ _, hknown, (hqueue (by simp [hstage])).symm, hplans,
      rfl,
      (hready (by simp [hstage])).symm, rfl, hgone⟩
  | ready result =>
    simp only [hstage]
    exact ⟨trivial, List.pairwise_singleton _ _, hknown, (hqueue (by simp [hstage])).symm, hplans,
      rfl, hfilter _, rfl, hgone⟩

theorem abandon_none (hentry : w.entry? key = none) : w.abandon key = (false, w) := by
  rw [abandon, hentry]

/-- The results of an owner are taken: those of its ready keys, in their order. -/
theorem takeReady_drops (h : w.Consistent) (owner : UInt64) :
    ((w.takeReady owner).1.map Prod.fst = w.ready.filter (·.owner == owner)) ∧
      (∀ p ∈ (w.takeReady owner).1, w.stage? p.1 = some (.ready p.2)) ∧
      w.Drops (w.takeReady owner).2 (w.ready.filter (·.owner == owner)) := by
  have hnodup : (w.ready.filter (·.owner == owner)).Nodup := h.ready.filter _
  have hready : ∀ k ∈ w.ready.filter (·.owner == owner), ∃ result,
    w.stage? k = some (.ready result) := fun k hk =>
    (h.readied k).1 (List.mem_filter.1 hk).1
  have htaken := takeKeys_eq hnodup w.plans
  have hresult : ∀ k ∈ w.ready.filter (·.owner == owner), ∃ result,
    result? w.plans k = some result ∧
      w.stage? k = some (.ready result) := fun k hk => by
    obtain ⟨result, hresult⟩ := hready k hk
    refine ⟨result, ?_, hresult⟩
    rw [result?, ← entry?, ← stage?, hresult]
  have hfst : ((w.ready.filter (·.owner == owner)).filterMap fun key => (result? w.plans key).map
    (key, ·)).map Prod.fst =
      w.ready.filter (·.owner == owner) := by
    rw [List.map_filterMap]
    conv_rhs => rw [← List.filterMap_some (l := w.ready.filter (·.owner == owner))]
    refine List.filterMap_congr fun k hk => ?_
    obtain ⟨result, hk, -⟩ := hresult k hk
    rw [hk]
    rfl
  have hlength := congrArg List.length hfst
  rw [List.length_map] at hlength
  have htake : w.takeReady owner =
      ((w.ready.filter (·.owner == owner)).filterMap fun key => (result? w.plans key).map (key, ·),
        { w with
        plans := w.plans.filter fun e => !(w.ready.filter (·.owner == owner)).contains e.1
        ready := w.ready.filter (·.owner != owner)
        stats :=
          { w.stats with completed := w.stats.completed + (w.ready.filter
            (·.owner == owner)).length } }) := by
    rw [takeReady, htaken]
    dsimp only
    rw [hlength]
  rw [htake]
  refine ⟨hfst, fun p hp => ?_, hnodup, fun k hk => ?_, ?_, rfl, rfl, ?_, rfl, ?_⟩
  · obtain ⟨k, hk, hp⟩ := List.mem_filterMap.1 hp
    obtain ⟨result, hk, hstage⟩ := hresult k hk
    rw [hk] at hp
    cases hp
    exact hstage
  · obtain ⟨result, hk⟩ := hready k hk
    obtain ⟨e, he, -⟩ := stage?_eq_some.1 hk
    rw [he]
    rfl
  · refine (filter_eq_self fun k hk hmem => ?_).symm
    obtain ⟨result, hready⟩ := hready k hmem
    rw [h.queued, hready] at hk
    cases hk
  · refine List.filter_congr fun k hk => ?_
    by_cases ho : k.owner = owner
    · simp [ho, hk]
    · simp [ho]
  · dsimp only
    omega

theorem shutdown_drops (h : w.Consistent) (hopen : w.closed = false) :
    w.Drops w.shutdown w.queue := by
  have hshut : w.shutdown = { w with
      closed := true
      queue := []
      plans := w.plans.filter fun e => !w.queue.contains e.1
      stats := { w.stats with abandoned := w.stats.abandoned + w.queue.length } } := by
    rw [shutdown, hopen]
    rfl
  rw [hshut]
  refine ⟨h.queue, fun k hk => ?_, ?_, rfl, rfl, ?_, rfl, ?_⟩
  · obtain ⟨e, he, -⟩ := stage?_eq_some.1 ((h.queued k).1 hk)
    rw [he]
    rfl
  · symm
    rw [List.filter_eq_nil_iff]
    intro k hk
    simpa using hk
  · refine (filter_eq_self fun k hk hmem => ?_).symm
    rw [h.readied, (h.queued k).1 hmem] at hk
    obtain ⟨result, hk⟩ := hk
    cases hk
  · exact (Nat.add_assoc ..).symm

theorem shutdown_closed (hclosed : w.closed = true) : w.shutdown = w := by
  rw [shutdown, hclosed]
  rfl

end Consistent

end Worklist

/-! ## Plans in hand -/

namespace Workshop

open Worklist

variable {layout : ObjectLayout} {s s' : Workshop} {events : List Event}

/-- The worklist is consistent, and the plans in hand are as they were picked up. -/
structure Sound (s : Workshop) : Prop extends s.worklist.Consistent where
  held : ∀ {job e}, job ∈ s.jobs → s.worklist.entry? job.key = some e → e.ticket = job.ticket →
    e.stage = .compiling ∧ e.plan = job.plan
  dated : ∀ {key e}, s.worklist.entry? key = some e → e.ticket < s.worklist.nextTicket
  fresh : ∀ {job}, job ∈ s.jobs → job.ticket < s.worklist.nextTicket
  apart : s.jobs.Pairwise fun a b => ¬ (a.key = b.key ∧ a.ticket = b.ticket)

/-- What a step can do. -/
inductive Change (layout : ObjectLayout) : Workshop → List Event → Workshop → Prop
  | same (s : Workshop) : Change layout s [] s
  | accept {w w' : Worklist} {jobs : List Job} {plan : Plan} : w.Accepts w' plan .queued →
      w'.queue = w.queue ++ [plan.key] → Change layout ⟨w, jobs⟩ [.accepted w.nextTicket plan]
        ⟨w', jobs⟩
  | claim {w w' : Worklist} {jobs : List Job} {plan : Plan} : w.Accepts w' plan .compiling →
    w'.queue = w.queue →
      Change layout ⟨w, jobs⟩ [.accepted w.nextTicket plan] ⟨w', ⟨w.nextTicket, plan⟩ :: jobs⟩
  | start {w w' : Worklist} {jobs : List Job} {key : CompilationKey} {e : Entry} : w.Starts w' key
    e →
      Change layout ⟨w, jobs⟩ [] ⟨w', ⟨e.ticket, e.plan⟩ :: jobs⟩
  | store {w w' : Worklist} {jobs : List Job} {place : Nat} {job : Job} {e : Entry}
    {result : CompileResult} :
      jobs[place]? = some job → job.plan.lower layout = .ok result → e.ticket = job.ticket →
      w.Stores w' job.key e result →
      Change layout ⟨w, jobs⟩ [.readied job.ticket job.key] ⟨w', jobs.eraseIdx place⟩
  /-- a plan was abandoned meanwhile, or whoever lowered it failed -/
  | discard (w : Worklist) (jobs : List Job) (place : Nat) : Change layout ⟨w, jobs⟩ []
    ⟨w, jobs.eraseIdx place⟩
  | abandon {w w' : Worklist} {ks : List CompilationKey} (jobs : List Job) : w.Drops w' ks →
      Change layout ⟨w, jobs⟩ (ks.map fun key => .abandoned (w.ticket? key) key) ⟨w', jobs⟩
  | deliver {w w' : Worklist} {taken : List (CompilationKey × CompileResult)} (jobs : List Job)
    (owner : UInt64) :
      taken.map Prod.fst = w.ready.filter (·.owner == owner) →
      (∀ p ∈ taken, w.stage? p.1 = some (.ready p.2)) →
      w.Drops w' (w.ready.filter (·.owner == owner)) →
      Change layout ⟨w, jobs⟩ (taken.map fun p => .delivered (w.ticket? p.1) p.1 p.2) ⟨w', jobs⟩

theorem act_change (h : s.Sound) (a : Action) :
    Change layout s (s.act layout a).1 (s.act layout a).2 := by
  obtain ⟨w, jobs⟩ := s
  have hw : w.Consistent := h.toConsistent
  cases a with
  | enqueue plan =>
    rw [act]
    dsimp only
    cases he : w.enqueue plan with
    | error _ => exact .same _
    | ok w' =>
      obtain ⟨hqueue, haccepts⟩ := enqueue_ok he
      exact .accept haccepts hqueue
  | claim plan =>
    rw [act]
    dsimp only
    cases hc : w.claim plan with
    | error _ => exact .same _
    | ok p =>
      obtain ⟨job, w'⟩ := p
      obtain ⟨rfl, hqueue, haccepts⟩ := claim_ok hc
      exact .claim haccepts hqueue
  | pickUp =>
    rw [act]
    dsimp only
    cases hclosed : w.closed with
    | true =>
      rw [Consistent.pickUp_nil (.inl hclosed)]
      exact .same _
    | false =>
      cases hqueue : w.queue with
      | nil =>
        rw [Consistent.pickUp_nil (.inr hqueue)]
        exact .same _
      | cons key rest =>
        obtain ⟨e, hstarts, hjob⟩ := hw.pickUp_cons hclosed hqueue
        rw [show w.pickUp = (some ⟨e.ticket, e.plan⟩, w.pickUp.2) from Prod.ext hjob rfl]
        exact .start hstarts
  | finish place =>
    rw [act]
    dsimp only
    cases hjob : jobs[place]? with
    | none => exact .same _
    | some job =>
      dsimp only
      cases hlower : job.plan.lower layout with
      | error _ => exact .discard w jobs place
      | ok result =>
        dsimp only
        cases hawaits : w.awaits job with
        | false =>
          rw [finish_of_not_awaits hawaits]
          exact .discard w jobs place
        | true =>
          obtain ⟨e, he, hticket⟩ := Option.map_eq_some_iff.1 (beq_iff_eq.1 hawaits)
          exact .store hjob hlower hticket (finish_of_awaits he hticket result)
  | abandon key =>
    rw [act]
    dsimp only
    cases he : w.entry? key with
    | none =>
      rw [Consistent.abandon_none he]
      exact .same _
    | some e =>
      obtain ⟨hknown, hdrops⟩ := hw.abandon_some he
      rw [hknown]
      exact .abandon jobs hdrops
  | complete owner =>
    obtain ⟨hkeys, hresults, hdrops⟩ := hw.takeReady_drops owner
    exact .deliver jobs owner hkeys hresults hdrops
  | shutdown =>
    rw [act]
    dsimp only
    cases hclosed : w.closed with
    | true =>
      rw [Consistent.shutdown_closed hclosed]
      exact .same _
    | false => exact .abandon jobs (hw.shutdown_drops hclosed)

/-- The plans in hand are not concerned when others are dropped. -/
theorem Sound.drops {w w' : Worklist} {jobs : List Job} {ks : List CompilationKey}
    (h : Sound ⟨w, jobs⟩) (hd : w.Drops w' ks) :
    Sound ⟨w', jobs⟩ where
  toConsistent := h.toConsistent.drops hd
  held hjob he hticket := h.held hjob (hd.entry?_eq_some.1 he).2 hticket
  dated he := Nat.lt_of_lt_of_eq (h.dated (hd.entry?_eq_some.1 he).2) hd.nextTicket.symm
  fresh hjob := Nat.lt_of_lt_of_eq (h.fresh hjob) hd.nextTicket.symm
  apart := h.apart

/-- A plan that gets a new ticket is none of those in hand. -/
theorem Sound.held_accepts {w w' : Worklist} {jobs : List Job} {plan : Plan} {stage : Stage}
    (h : Sound ⟨w, jobs⟩) (ha : w.Accepts w' plan stage) {job : Job} {e : Entry} (hjob : job ∈ jobs)
    (he : w'.entry? job.key = some e) (hticket : e.ticket = job.ticket) :
    e.stage = .compiling ∧ e.plan = job.plan := by
  rw [ha.entry?] at he
  split at he
  · cases he
    have hlt : job.ticket < w.nextTicket := h.fresh hjob
    dsimp only at hticket
    omega
  · exact h.held hjob he hticket

theorem Sound.dated_accepts {w w' : Worklist} {jobs : List Job} {plan : Plan} {stage : Stage}
    (h : Sound ⟨w, jobs⟩) (ha : w.Accepts w' plan stage) {key : CompilationKey} {e : Entry}
    (he : w'.entry? key = some e) :
    e.ticket < w'.nextTicket := by
  rw [ha.nextTicket]
  rw [ha.entry?] at he
  split at he
  · cases he
    exact Nat.lt_succ_self _
  · exact Nat.lt_succ_of_lt (h.dated he)

/-- The plan at one place in hand is another one than those at the other places. -/
theorem Sound.apart_eraseIdx {w : Worklist} {jobs : List Job} {place : Nat} {job job' : Job}
    (h : Sound ⟨w, jobs⟩) (hjob : jobs[place]? = some job) (hjob' : job' ∈ jobs.eraseIdx place) :
    ¬ (job'.key = job.key ∧ job'.ticket = job.ticket) := by
  obtain ⟨hlt, rfl⟩ := List.getElem?_eq_some_iff.1 hjob
  have hapart : jobs.Pairwise fun a b => ¬ (a.key = b.key ∧ a.ticket = b.ticket) := h.apart
  rw [← List.take_append_drop place jobs, List.drop_eq_getElem_cons hlt, List.pairwise_append]
    at hapart
  obtain ⟨-, hafter, hbefore⟩ := hapart
  rw [List.eraseIdx_eq_take_drop_succ, List.mem_append] at hjob'
  rcases hjob' with hjob' | hjob'
  · exact hbefore _ hjob' _ List.mem_cons_self
  · exact fun ⟨hkey, hticket⟩ => (List.pairwise_cons.1 hafter).1 _ hjob' ⟨hkey.symm, hticket.symm⟩

theorem mem_of_mem_eraseIdx {jobs : List Job} {place : Nat} {job : Job}
    (h : job ∈ jobs.eraseIdx place) : job ∈ jobs :=
  (List.eraseIdx_sublist jobs place).subset h

theorem Change.sound (hc : Change layout s events s') (h : s.Sound) : s'.Sound := by
  cases hc with
  | same => exact h
  | @accept w w' jobs plan ha hqueue =>
    have hnext := ha.nextTicket
    refine ⟨h.toConsistent.accepts ha (.inl ⟨rfl, hqueue⟩), h.held_accepts ha, h.dated_accepts ha,
      fun hjob => ?_, h.apart⟩
    have hlt : _ < w.nextTicket := h.fresh hjob
    show _ < w'.nextTicket
    omega
  | @claim w w' jobs plan ha hqueue =>
    have hnext := ha.nextTicket
    have hlt {job : Job} (hjob : job ∈ jobs) : job.ticket < w.nextTicket := h.fresh hjob
    refine ⟨h.toConsistent.accepts ha (.inr ⟨rfl, hqueue⟩), fun {job e} hjob he hticket => ?_,
      h.dated_accepts ha,
      fun {job} hjob => ?_, List.pairwise_cons.2 ⟨fun job hjob hsame => ?_, h.apart⟩⟩
    · rcases List.mem_cons.1 hjob with rfl | hjob
      · rw [ha.entry?] at he
        change (if plan.key = plan.key then _ else _) = _ at he
        rw [if_pos rfl] at he
        cases he
        exact ⟨rfl, rfl⟩
      · exact h.held_accepts ha hjob he hticket
    · show job.ticket < w'.nextTicket
      rcases List.mem_cons.1 hjob with rfl | hjob
      · dsimp only
        omega
      · have := hlt hjob
        omega
    · have := hlt hjob
      have hticket : w.nextTicket = job.ticket := hsame.2
      omega
  | @start w w' jobs key e hs =>
    have hwas : w.stage? key = some .queued := (h.queued key).1 (by
      show key ∈ w.queue
      rw [hs.queue]
      exact List.mem_cons_self)
    have hname : e.plan.key = key := h.named hs.entry
    -- a plan in hand is being lowered, so the one that waited is not among them
    have hnot {job : Job} (hjob : job ∈ jobs) (hkey : job.key = key) : e.ticket ≠ job.ticket :=
      fun hticket => by
      have hcompiling := (h.held hjob (hkey ▸ hs.entry) hticket).1
      rw [stage?_eq hs.entry, hcompiling] at hwas
      cases hwas
    refine ⟨h.toConsistent.starts hs, fun {job e'} hjob he hticket => ?_, fun {k e'} he => ?_,
      fun {job} hjob => ?_,
      List.pairwise_cons.2 ⟨fun job hjob hsame => ?_, h.apart⟩⟩
    · rw [show Worklist.entry? w' _ = _ from hs.entry? _] at he
      rcases List.mem_cons.1 hjob with rfl | hjob
      · rw [if_pos (show Job.key ⟨e.ticket, e.plan⟩ = key from hname)] at he
        cases he
        exact ⟨rfl, rfl⟩
      · split at he
        · rename_i hkey
          cases he
          exact absurd hticket (hnot hjob hkey)
        · exact h.held hjob he hticket
    · obtain ⟨e₀, he₀, hticket₀, -⟩ := exists_of_plansAt hs.plans he
      show e'.ticket < w'.nextTicket
      rw [hs.nextTicket, hticket₀]
      exact h.dated he₀
    · show job.ticket < w'.nextTicket
      rw [hs.nextTicket]
      rcases List.mem_cons.1 hjob with rfl | hjob
      · exact h.dated hs.entry
      · exact h.fresh hjob
    · exact hnot hjob (hsame.1.symm.trans hname) hsame.2
  | @store w w' jobs place job e result hjob hlower hticket hs =>
    have hmem : job ∈ jobs := List.mem_of_getElem? hjob
    refine ⟨h.toConsistent.stores hs (h.held hmem hs.entry hticket).1,
      fun {job' e'} hjob' he hticket' => ?_,
      fun {k e'} he => ?_, fun {job'} hjob' => ?_,
      h.apart.sublist (List.eraseIdx_sublist jobs place)⟩
    · rw [show Worklist.entry? w' _ = _ from hs.entry? _] at he
      split at he
      · rename_i hkey
        cases he
        exact absurd ⟨hkey, hticket'.symm.trans hticket⟩ (h.apart_eraseIdx hjob hjob')
      · exact h.held (mem_of_mem_eraseIdx hjob') he hticket'
    · obtain ⟨e₀, he₀, hticket₀, -⟩ := exists_of_plansAt hs.plans he
      show e'.ticket < w'.nextTicket
      rw [hs.nextTicket, hticket₀]
      exact h.dated he₀
    · show job'.ticket < w'.nextTicket
      rw [hs.nextTicket]
      exact h.fresh (mem_of_mem_eraseIdx hjob')
  | discard w jobs place =>
    exact ⟨h.toConsistent, fun hjob => h.held (mem_of_mem_eraseIdx hjob), h.dated,
      fun hjob => h.fresh (mem_of_mem_eraseIdx hjob),
      h.apart.sublist (List.eraseIdx_sublist jobs place)⟩
  | abandon jobs hd => exact h.drops hd
  | deliver jobs owner _ _ hd => exact h.drops hd

theorem sound_start (name : String) : Sound ⟨{ name }, []⟩ where
  toConsistent := consistent_empty name
  held hjob := by cases hjob
  dated he := by cases he
  fresh hjob := by cases hjob
  apart := .nil

theorem run_sound (layout : ObjectLayout) (name : String) (actions : List Action) :
    (run layout name actions).2.Sound :=
  run_induction (P := fun _ s => s.Sound) layout name (sound_start name)
    (fun _ _ a h => (act_change h a).sound h) actions

/-- After every interleaving of the steps of clients and workers, the queue holds the keys of the
plans that wait for a worker, each once, and so does the list of ready keys for the plans that wait
for their owner; a worker that comes to the head of the queue finds its plan and takes nothing else;
and every plan that was accepted has been taken by its owner, has been abandoned, or is in the
table. -/
theorem run_consistent (layout : ObjectLayout) (name : String) (actions : List Action) :
    let w := (run layout name actions).2.worklist
    (w.queue.Nodup ∧ ∀ key, key ∈ w.queue ↔ w.stage? key = some .queued) ∧
      (w.ready.Nodup ∧ ∀ key, key ∈ w.ready ↔ ∃ result, w.stage? key = some (.ready result)) ∧
      (∀ key rest, w.queue = key :: rest → w.contains key = true ∧
        (w.closed = false → ∃ job, w.pickUp.1 = some job ∧ job.key = key ∧ w.pickUp.2.queue = rest))
          ∧
      (w.plans.map Prod.fst).Nodup ∧
      w.stats.enqueued = w.stats.completed + w.stats.abandoned + w.plans.length := by
  intro w
  have h : w.Consistent := (run_sound layout name actions).toConsistent
  refine ⟨⟨h.queue, h.queued⟩, ⟨h.ready, h.readied⟩, fun key rest hqueue => ⟨?_, fun hopen => ?_⟩,
    h.keys, h.accounts⟩
  · obtain ⟨e, he, -⟩ :=
      stage?_eq_some.1 ((h.queued key).1 (by rw [hqueue]; exact List.mem_cons_self))
    rw [contains, he]
    rfl
  · obtain ⟨e, hstarts, hjob⟩ := h.pickUp_cons hopen hqueue
    refine ⟨_, hjob, h.named hstarts.entry, ?_⟩
    have hrest := hstarts.queue
    rw [hqueue] at hrest
    exact (List.cons.inj hrest).2.symm

end Workshop

end SpecJit
