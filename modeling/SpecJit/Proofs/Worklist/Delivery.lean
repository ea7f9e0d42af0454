import SpecJit.Proofs.Worklist.Consistency

/-!
# What a worklist delivers

A key can be abandoned and handed in again while a worker still lowers the earlier plan, so that
results come back for plans that nobody waits for. `delivery_current` says that none of them reaches
an owner: what is delivered for a key is the lowering of the plan that was accepted last, which has
been neither abandoned nor delivered since. It is delivered once, and the plans of one owner are
delivered in the order in which they became ready.

`Recalls` joins the table to what has happened so far: every plan in the table is the last one
accepted for its key (`Pending`), and the results that have been delivered to an owner, followed by
those that wait for it, are among those that became ready, in that order.
-/

namespace SpecJit

namespace Event

/-- The ticket of a plan that was accepted. -/
def acceptedAs? : Event → Option Nat
  | .accepted ticket _ => some ticket
  | _ => none

/-- The ticket of a plan whose result came in. -/
def readiedAs? : Event → Option Nat
  | .readied ticket _ => some ticket
  | _ => none

/-- The ticket of a plan whose result was delivered. -/
def deliveredAs? : Event → Option Nat
  | .delivered ticket _ _ => ticket
  | _ => none

/-- The owner for whom a result came in or to whom it was delivered. -/
def owner? : Event → Option UInt64
  | .readied _ key | .delivered _ key _ => some key.owner
  | _ => none

/-- A plan of the key was accepted, abandoned or delivered. -/
def Concerns (key : CompilationKey) : Event → Prop
  | .accepted _ plan => plan.key = key
  | .readied _ _ => False
  | .abandoned _ k | .delivered _ k _ => k = key

/-- The event is neither a result that came in nor one that was delivered. -/
def Silent (event : Event) : Prop :=
  event.readiedAs? = none ∧ event.deliveredAs? = none ∧ event.owner? = none

end Event

/-- The plan was accepted with this ticket, and nothing has happened to it or to another one with
its key since, except that its result came in. -/
def Pending (events : List Event) (ticket : Nat) (plan : Plan) : Prop :=
  ∃ early late, events = early ++ .accepted ticket plan :: late ∧ ∀ event ∈ late,
    ¬ event.Concerns plan.key

/-- The tickets that became ready for an owner, in order. -/
def readiedFor (owner : UInt64) (events : List Event) : List Nat :=
  (events.filter (·.owner? == some owner)).filterMap Event.readiedAs?

/-- The tickets that were delivered to an owner, in order. -/
def deliveredTo (owner : UInt64) (events : List Event) : List Nat :=
  (events.filter (·.owner? == some owner)).filterMap Event.deliveredAs?

section Events

variable {events new : List Event} {ticket : Nat} {plan : Plan} {owner : UInt64}

theorem Pending.mem (h : Pending events ticket plan) : .accepted ticket plan ∈ events := by
  obtain ⟨early, late, rfl, -⟩ := h
  exact List.mem_append_right _ List.mem_cons_self

theorem Pending.append (h : Pending events ticket plan)
    (hnew : ∀ event ∈ new, ¬ event.Concerns plan.key) :
    Pending (events ++ new) ticket plan := by
  obtain ⟨early, late, rfl, hlate⟩ := h
  refine ⟨early, late ++ new, by simp, fun event he => ?_⟩
  rcases List.mem_append.1 he with he | he
  · exact hlate event he
  · exact hnew event he

theorem readiedFor_append (events new : List Event) :
    readiedFor owner (events ++ new) = readiedFor owner events ++ readiedFor owner new := by
  simp [readiedFor]

theorem deliveredTo_append (events new : List Event) :
    deliveredTo owner (events ++ new) = deliveredTo owner events ++ deliveredTo owner new := by
  simp [deliveredTo]

/-- Where an event of a longer list stands. -/
theorem split_append {before after : List Event} {event : Event}
    (h : events ++ new = before ++ event :: after) :
    (∃ after', events = before ++ event :: after') ∨ ∃ before', before = events ++ before' ∧
      new = before' ++ event :: after := by
  rcases List.append_eq_append_iff.1 h with ⟨before', hbefore, hnew⟩ | ⟨after', hevents, hafter⟩
  · exact .inr ⟨before', hbefore, hnew⟩
  · cases after' with
    | nil => exact .inr ⟨[], by simpa using hevents.symm, hafter.symm⟩
    | cons event' after' =>
      obtain ⟨rfl, -⟩ := List.cons.inj hafter
      exact .inl ⟨after', hevents⟩

/-- Tickets that are all different tell the plans apart. -/
theorem plan_unique {plan' : Plan} (h : (events.filterMap Event.acceptedAs?).Nodup)
    (hp : .accepted ticket plan ∈ events) (hp' : .accepted ticket plan' ∈ events) :
    plan = plan' := by
  induction events with
  | nil => cases hp
  | cons event events ih =>
    have htail : (events.filterMap Event.acceptedAs?).Nodup := by
      rw [List.filterMap_cons] at h
      split at h
      · exact h
      · exact (List.nodup_cons.1 h).2
    have hnot (hhead : event = .accepted ticket plan ∨ event = .accepted ticket plan')
        (hmem : ∃ q, Event.accepted ticket q ∈ events) : False := by
      obtain ⟨q, hq⟩ := hmem
      have hticket : ticket ∈ events.filterMap Event.acceptedAs? :=
        List.mem_filterMap.2 ⟨_, hq, rfl⟩
      rcases hhead with rfl | rfl <;> exact (List.nodup_cons.1 h).1 hticket
    rcases List.mem_cons.1 hp with rfl | hp
    · rcases List.mem_cons.1 hp' with heq | hp'
      · cases heq
        rfl
      · exact (hnot (.inl rfl) ⟨_, hp'⟩).elim
    · rcases List.mem_cons.1 hp' with heq | hp'
      · exact (hnot (.inr heq.symm) ⟨_, hp⟩).elim
      · exact ih htail hp hp'

end Events

namespace Workshop

open Worklist

variable {layout : ObjectLayout} {s s' : Workshop} {events new : List Event}

/-- The tickets of the results that wait for an owner, in order. -/
def waitingFor (owner : UInt64) (w : Worklist) : List Nat :=
  (w.ready.filter (·.owner == owner)).filterMap w.ticket?

/-- What has happened accounts for the table and for what was delivered. -/
structure Recalls (layout : ObjectLayout) (events : List Event) (s : Workshop) : Prop where
  tickets : events.filterMap Event.acceptedAs? = List.range s.worklist.nextTicket
  pending : ∀ {key e}, s.worklist.entry? key = some e → Pending events e.ticket e.plan
  inHand : ∀ {job}, job ∈ s.jobs → .accepted job.ticket job.plan ∈ events
  lowered : ∀ {key e result}, s.worklist.entry? key = some e → e.stage = .ready result →
    e.plan.lower layout = .ok result
  /-- a plan whose result has come in is at no earlier stage -/
  unready : ∀ {key e}, s.worklist.entry? key = some e → e.ticket ∈ events.filterMap
    Event.readiedAs? →
    ∃ result, e.stage = .ready result
  readiedOnce : (events.filterMap Event.readiedAs?).Nodup
  readiedOf : ∀ {ticket}, ticket ∈ events.filterMap Event.readiedAs? →
    ticket < s.worklist.nextTicket
  order : ∀ owner, (deliveredTo owner events ++ waitingFor owner s.worklist).Sublist
    (readiedFor owner events)
  current : ∀ {before after ticket key result}, events = before ++ .delivered ticket key result ::
    after →
    ∃ n plan, ticket = some n ∧ plan.key = key ∧ plan.lower layout = .ok result ∧
    Pending before n plan
  deliveredOnce : (events.filterMap Event.deliveredAs?).Nodup
  spent : ∀ {ticket key e}, ticket ∈ events.filterMap Event.deliveredAs? →
    s.worklist.entry? key = some e → e.ticket ≠ ticket

theorem recalls_start (name : String) : Recalls layout [] ⟨{ name }, []⟩ where
  tickets := rfl
  pending he := by cases he
  inHand hjob := by cases hjob
  lowered he := by cases he
  unready he := by cases he
  readiedOnce := .nil
  readiedOf h := by cases h
  order _ := .slnil
  current h := by simp at h
  deliveredOnce := .nil
  spent h := by cases h

namespace Recalls

theorem nodup (h : Recalls layout events s) : (events.filterMap Event.acceptedAs?).Nodup := by
  rw [h.tickets]
  exact List.nodup_range

theorem accepted_lt (h : Recalls layout events s) {ticket : Nat} {plan : Plan}
    (hp : .accepted ticket plan ∈ events) :
    ticket < s.worklist.nextTicket := by
  have hmem : ticket ∈ events.filterMap Event.acceptedAs? := List.mem_filterMap.2 ⟨_, hp, rfl⟩
  rw [h.tickets] at hmem
  exact List.mem_range.1 hmem

theorem delivered_lt (h : Recalls layout events s) {ticket : Nat}
    (ht : ticket ∈ events.filterMap Event.deliveredAs?) :
    ticket < s.worklist.nextTicket := by
  obtain ⟨event, he, ht⟩ := List.mem_filterMap.1 ht
  cases event with
  | delivered t key result =>
    obtain ⟨before, after, hsplit⟩ := List.append_of_mem he
    obtain ⟨n, plan, rfl, -, -, hpending⟩ := h.current hsplit
    cases ht
    exact h.accepted_lt (hsplit ▸ List.mem_append_left _ hpending.mem)
  | _ => cases ht

/-- Different keys have different tickets. -/
theorem key_unique (h : Recalls layout events s) (hs : s.Sound) {key key' : CompilationKey}
    {e e' : Entry} (he : s.worklist.entry? key = some e) (he' : s.worklist.entry? key' = some e')
    (hticket : e.ticket = e'.ticket) :
    key = key' := by
  have hplan : e.plan = e'.plan :=
    plan_unique h.nodup (h.pending he).mem (hticket ▸ (h.pending he').mem)
  rw [← hs.named he, ← hs.named he', hplan]

end Recalls

/-! ## Steps that deliver nothing -/

/-- The entry of a key after such a step: one that was there, not nearer to its owner than before,
or a new one. -/
def Carries (w : Worklist) (key : CompilationKey) (e : Entry) : Prop :=
  (∃ e₀, w.entry? key = some e₀ ∧ e.ticket = e₀.ticket ∧ e.plan = e₀.plan ∧
    ∀ result, e.stage = .ready result ↔ e₀.stage = .ready result) ∨
  e.ticket = w.nextTicket ∧ ∀ result, e.stage ≠ .ready result

theorem Recalls.silent (h : Recalls layout events s) (s' : Workshop)
    (hnew : ∀ event ∈ new, event.Silent)
    (htickets : (events ++ new).filterMap Event.acceptedAs? = List.range s'.worklist.nextTicket)
    (hle : s.worklist.nextTicket ≤ s'.worklist.nextTicket)
    (hentry : ∀ {key e}, s'.worklist.entry? key = some e → Carries s.worklist key e)
    (hpending : ∀ {key e}, s'.worklist.entry? key = some e → Pending (events ++ new) e.ticket
      e.plan)
    (hjobs : ∀ {job}, job ∈ s'.jobs → .accepted job.ticket job.plan ∈ events ++ new)
    (hwaiting : ∀ owner, (waitingFor owner s'.worklist).Sublist (waitingFor owner s.worklist)) :
    Recalls layout (events ++ new) s' := by
  have hreadied : new.filterMap Event.readiedAs? = [] := List.filterMap_eq_nil_iff.2 fun event he =>
    (hnew event he).1
  have hdelivered : new.filterMap Event.deliveredAs? = [] :=
    List.filterMap_eq_nil_iff.2 fun event he => (hnew event he).2.1
  have howner (owner : UInt64) : new.filter (·.owner? == some owner) = [] :=
    List.filter_eq_nil_iff.2 fun event he => by simp [(hnew event he).2.2]
  refine ⟨htickets, hpending, hjobs, fun {key e result} he hstage => ?_, fun {key e} he ht => ?_,
    ?_, fun {t} ht => ?_,
    fun owner => ?_, fun {before after t key result} hsplit => ?_, ?_, fun {t key e} ht he => ?_⟩
  · rcases hentry he with ⟨e₀, he₀, -, hplan, hready⟩ | ⟨-, hnot⟩
    · rw [hplan]
      exact h.lowered he₀ ((hready result).1 hstage)
    · exact absurd hstage (hnot result)
  · rw [List.filterMap_append, hreadied, List.append_nil] at ht
    rcases hentry he with ⟨e₀, he₀, hticket, -, hready⟩ | ⟨hticket, -⟩
    · obtain ⟨result, hresult⟩ := h.unready he₀ (hticket ▸ ht)
      exact ⟨result, (hready result).2 hresult⟩
    · have hlt := h.readiedOf ht
      omega
  · rw [List.filterMap_append, hreadied, List.append_nil]
    exact h.readiedOnce
  · rw [List.filterMap_append, hreadied, List.append_nil] at ht
    exact Nat.lt_of_lt_of_le (h.readiedOf ht) hle
  · rw [deliveredTo_append, readiedFor_append, readiedFor, deliveredTo, readiedFor, deliveredTo,
      howner, List.filterMap_nil, List.filterMap_nil, List.append_nil, List.append_nil]
    exact ((hwaiting owner).append_left _).trans (h.order owner)
  · rcases split_append hsplit with ⟨after', hevents⟩ | ⟨before', -, hin⟩
    · exact h.current hevents
    · have hsilent :=
        hnew (.delivered t key result) (hin ▸ List.mem_append_right _ List.mem_cons_self)
      cases hsilent.2.2
  · rw [List.filterMap_append, hdelivered, List.append_nil]
    exact h.deliveredOnce
  · rw [List.filterMap_append, hdelivered, List.append_nil] at ht
    rcases hentry he with ⟨e₀, he₀, hticket, -⟩ | ⟨hticket, -⟩
    · rw [hticket]
      exact h.spent ht he₀
    · have hlt := h.delivered_lt ht
      omega

/-- The results that wait for an owner, when some keys may be gone. -/
theorem waitingFor_sublist {w w' : Worklist} (hready : w'.ready.Sublist w.ready)
    (hticket : ∀ key ∈ w'.ready, w'.ticket? key = w.ticket? key) (owner : UInt64) :
    (waitingFor owner w').Sublist (waitingFor owner w) := by
  have hsame : waitingFor owner w' = (w'.ready.filter (·.owner == owner)).filterMap w.ticket? :=
    List.filterMap_congr fun key hkey => hticket key (List.mem_filter.1 hkey).1
  rw [hsame]
  exact (hready.filter _).filterMap _

/-- A plan is accepted. -/
theorem Recalls.accepts {w w' : Worklist} {jobs jobs' : List Job} {plan : Plan} {stage : Stage}
    (h : Recalls layout events ⟨w, jobs⟩) (hs : Sound ⟨w, jobs⟩) (ha : w.Accepts w' plan stage)
    (hstage : ∀ result, stage ≠ .ready result)
    (hjobs : ∀ job ∈ jobs', job ∈ jobs ∨ job = ⟨w.nextTicket, plan⟩) :
    Recalls layout (events ++ [.accepted w.nextTicket plan]) ⟨w', jobs'⟩ := by
  have hnext := ha.nextTicket
  refine h.silent ⟨w', jobs'⟩ (fun event he => ?_) ?_ ?_ (fun {key e} he => ?_)
    (fun {key e} he => ?_)
    (fun {job} hjob => ?_) fun owner => ?_
  · rw [List.mem_singleton.1 he]
    exact ⟨rfl, rfl, rfl⟩
  · show _ = List.range w'.nextTicket
    rw [List.filterMap_append, h.tickets, hnext, List.range_succ]
    rfl
  · show w.nextTicket ≤ w'.nextTicket
    omega
  · rw [show Worklist.entry? w' key = _ from ha.entry? key] at he
    split at he
    · cases he
      exact .inr ⟨rfl, hstage⟩
    · exact .inl ⟨e, he, rfl, rfl, fun _ => .rfl⟩
  · rw [show Worklist.entry? w' key = _ from ha.entry? key] at he
    split at he
    · cases he
      exact ⟨events, [], rfl, by simp⟩
    · rename_i hkey
      refine (h.pending he).append fun event hevent hconcerns => hkey ?_
      rw [List.mem_singleton.1 hevent] at hconcerns
      rw [← hs.named he]
      exact hconcerns.symm
  · rcases hjobs job hjob with hjob | rfl
    · exact List.mem_append_left _ (h.inHand hjob)
    · exact List.mem_append_right _ List.mem_cons_self
  · refine waitingFor_sublist (ha.ready ▸ .refl _) (fun key hkey => ?_) owner
    have hne : key ≠ plan.key := fun heq => by
      rw [show w'.ready = w.ready from ha.ready, hs.readied, heq, stage?, ha.new] at hkey
      obtain ⟨result, hresult⟩ := hkey
      cases hresult
    rw [ticket?, ticket?, ha.entry?, if_neg hne]

/-- The entry of a key after a step that changed a stage. -/
theorem Recalls.starts {w w' : Worklist} {jobs : List Job} {key : CompilationKey} {e : Entry}
    (h : Recalls layout events ⟨w, jobs⟩) (hs : Sound ⟨w, jobs⟩) (hstarts : w.Starts w' key e) :
    Recalls layout events ⟨w', ⟨e.ticket, e.plan⟩ :: jobs⟩ := by
  have hqueued : e.stage = .queued := by
    have hmem : key ∈ w.queue := hstarts.queue ▸ List.mem_cons_self
    exact Option.some.inj ((stage?_eq hstarts.entry).symm.trans ((hs.queued key).1 hmem))
  have hsame (k : CompilationKey) : w'.ticket? k = w.ticket? k := by
    rw [ticket?, ticket?, hstarts.entry?]
    split
    · rename_i hk
      rw [hk, hstarts.entry]
      rfl
    · rfl
  rw [← List.append_nil events]
  refine h.silent ⟨w', ⟨e.ticket, e.plan⟩ :: jobs⟩ (by simp) ?_
    (Nat.le_of_eq hstarts.nextTicket.symm)
    (fun {k e'} he => ?_) (fun {k e'} he => ?_) (fun {job} hjob => ?_)
    fun owner => waitingFor_sublist (hstarts.ready ▸ .refl _) (fun k _ => hsame k) owner
  · show _ = List.range w'.nextTicket
    rw [List.append_nil, h.tickets, hstarts.nextTicket]
  · rw [show Worklist.entry? w' k = _ from hstarts.entry? k] at he
    split at he
    · rename_i hk
      cases he
      exact .inl ⟨e, hk ▸ hstarts.entry, rfl, rfl, fun result => by simp [hqueued]⟩
    · exact .inl ⟨e', he, rfl, rfl, fun _ => .rfl⟩
  · obtain ⟨e₀, he₀, hticket, hplan⟩ := exists_of_plansAt hstarts.plans he
    rw [List.append_nil, hticket, hplan]
    exact h.pending he₀
  · rw [List.append_nil]
    rcases List.mem_cons.1 hjob with rfl | hjob
    · exact (h.pending hstarts.entry).mem
    · exact h.inHand hjob

/-- Plans are abandoned. -/
theorem Recalls.abandons {w w' : Worklist} {jobs : List Job} {ks : List CompilationKey}
    (h : Recalls layout events ⟨w, jobs⟩) (hs : Sound ⟨w, jobs⟩) (hd : w.Drops w' ks) :
    Recalls layout (events ++ ks.map fun key => .abandoned (w.ticket? key) key) ⟨w', jobs⟩ := by
  have hnone : (ks.map fun key => Event.abandoned (w.ticket? key) key).filterMap
    Event.acceptedAs? = [] :=
    List.filterMap_eq_nil_iff.2 fun event he => by
      obtain ⟨key, -, rfl⟩ := List.mem_map.1 he
      rfl
  refine h.silent ⟨w', jobs⟩ (fun event he => ?_) ?_ (Nat.le_of_eq hd.nextTicket.symm)
    (fun {key e} he => .inl ⟨e, (hd.entry?_eq_some.1 he).2, rfl, rfl, fun _ => .rfl⟩)
      (fun {key e} he => ?_)
    (fun hjob => List.mem_append_left _ (h.inHand hjob))
    fun owner => waitingFor_sublist (hd.ready ▸ List.filter_sublist) (fun _ => hd.ticket?_of_ready)
      owner
  · obtain ⟨key, -, rfl⟩ := List.mem_map.1 he
    exact ⟨rfl, rfl, rfl⟩
  · show _ = List.range w'.nextTicket
    rw [List.filterMap_append, h.tickets, hnone, List.append_nil, hd.nextTicket]
  · obtain ⟨hkey, he⟩ := hd.entry?_eq_some.1 he
    refine (h.pending he).append fun event hevent hconcerns => hkey ?_
    obtain ⟨k, hk, rfl⟩ := List.mem_map.1 hevent
    rw [← hs.named he, ← show k = e.plan.key from hconcerns]
    exact hk

/-! ## Results that come in and go out -/

/-- The result of a plan that is still in the table comes in. -/
theorem Recalls.stores {w w' : Worklist} {jobs : List Job} {place : Nat} {job : Job} {e : Entry}
    {result : CompileResult} (h : Recalls layout events ⟨w, jobs⟩) (hs : Sound ⟨w, jobs⟩)
    (hjob : jobs[place]? = some job) (hlower : job.plan.lower layout = .ok result)
    (hticket : e.ticket = job.ticket) (hstores : w.Stores w' job.key e result) :
    Recalls layout (events ++ [.readied job.ticket job.key]) ⟨w', jobs.eraseIdx place⟩ := by
  obtain ⟨hcompiling, hplan⟩ := hs.held (List.mem_of_getElem? hjob) hstores.entry hticket
  have hnot : job.ticket ∉ events.filterMap Event.readiedAs? := fun hmem => by
    obtain ⟨result', hready⟩ := h.unready hstores.entry (hticket ▸ hmem)
    rw [hcompiling] at hready
    cases hready
  have hreadied : (events ++ [Event.readied job.ticket job.key]).filterMap Event.readiedAs? =
      events.filterMap Event.readiedAs? ++ [job.ticket] := by
    rw [List.filterMap_append]
    rfl
  have hdelivered : (events ++ [Event.readied job.ticket job.key]).filterMap Event.deliveredAs? =
      events.filterMap Event.deliveredAs? := by
    rw [List.filterMap_append]
    exact List.append_nil _
  refine ⟨?_, fun {k e'} he => ?_, fun {job'} hjob' => List.mem_append_left _
    (h.inHand (mem_of_mem_eraseIdx hjob')),
    fun {k e' result'} he hstage => ?_, fun {k e'} he ht => ?_, ?_, fun {t} ht => ?_,
    fun owner => ?_,
    fun {before after t key result'} hsplit => ?_, ?_, fun {t k e'} ht he => ?_⟩
  · show _ = List.range w'.nextTicket
    rw [List.filterMap_append, h.tickets, hstores.nextTicket]
    exact List.append_nil _
  · obtain ⟨e₀, he₀, hticket₀, hplan₀⟩ := exists_of_plansAt hstores.plans he
    rw [hticket₀, hplan₀]
    refine (h.pending he₀).append fun event hevent hconcerns => ?_
    rw [List.mem_singleton.1 hevent] at hconcerns
    exact hconcerns
  · rw [show Worklist.entry? w' k = _ from hstores.entry? k] at he
    split at he
    · cases he
      cases hstage
      rw [hplan]
      exact hlower
    · exact h.lowered he hstage
  · rw [show Worklist.entry? w' k = _ from hstores.entry? k] at he
    rw [hreadied, List.mem_append, List.mem_singleton] at ht
    split at he
    · cases he
      exact ⟨result, rfl⟩
    · rename_i hkey
      rcases ht with ht | ht
      · exact h.unready he ht
      · exact absurd (h.key_unique hs he hstores.entry (ht.trans hticket.symm)) hkey
  · rw [hreadied, List.nodup_append]
    refine ⟨h.readiedOnce, List.pairwise_singleton _ _, fun a ha b hb hab => hnot ?_⟩
    rw [← List.mem_singleton.1 hb, ← hab]
    exact ha
  · show t < w'.nextTicket
    rw [hstores.nextTicket]
    rw [hreadied, List.mem_append, List.mem_singleton] at ht
    rcases ht with ht | rfl
    · exact h.readiedOf ht
    · exact hs.fresh (List.mem_of_getElem? hjob)
  · have hsame : ∀ k ∈ w.ready.filter (·.owner == owner), w'.ticket? k = w.ticket? k :=
      fun k _ => by
      rw [ticket?, ticket?, hstores.entry?]
      split
      · rename_i hk
        rw [hk, hstores.entry]
        rfl
      · rfl
    have hlast : w'.ticket? job.key = some job.ticket := by
      rw [ticket?, hstores.entry?, if_pos rfl, ← hticket]
      rfl
    have hwaiting : waitingFor owner w' =
        waitingFor owner w ++ ([job.key].filter (·.owner == owner)).filterMap w'.ticket? := by
      rw [waitingFor, hstores.ready, List.filter_append, List.filterMap_append,
        List.filterMap_congr hsame]
      rfl
    show (deliveredTo owner _ ++ waitingFor owner w').Sublist _
    rw [deliveredTo_append, readiedFor_append, hwaiting]
    by_cases howner : job.key.owner = owner
    · have hin : deliveredTo owner [Event.readied job.ticket job.key] = [] := by
        simp [deliveredTo, Event.owner?, howner, Event.deliveredAs?]
      have hout : readiedFor owner [Event.readied job.ticket job.key] = [job.ticket] := by
        simp [readiedFor, Event.owner?, howner, Event.readiedAs?]
      have hend : ([job.key].filter (·.owner == owner)).filterMap w'.ticket? = [job.ticket] := by
        simp [howner, hlast]
      rw [hin, hout, hend, List.append_nil, ← List.append_assoc]
      exact (h.order owner).append_right _
    · have hin : deliveredTo owner [Event.readied job.ticket job.key] = [] := by
        simp [deliveredTo, Event.owner?, howner]
      have hout : readiedFor owner [Event.readied job.ticket job.key] = [] := by
        simp [readiedFor, Event.owner?, howner]
      have hend : ([job.key].filter (·.owner == owner)).filterMap w'.ticket? = [] := by
        simp [howner]
      rw [hin, hout, hend, List.append_nil, List.append_nil, List.append_nil]
      exact h.order owner
  · rcases split_append hsplit with ⟨after', hevents⟩ | ⟨before', -, hin⟩
    · exact h.current hevents
    · have hmem : Event.delivered t key result' ∈ [Event.readied job.ticket job.key] :=
        hin ▸ List.mem_append_right _ List.mem_cons_self
      cases List.mem_singleton.1 hmem
  · rw [hdelivered]
    exact h.deliveredOnce
  · rw [hdelivered] at ht
    obtain ⟨e₀, he₀, hticket₀, -⟩ := exists_of_plansAt hstores.plans he
    rw [hticket₀]
    exact h.spent ht he₀

/-- The results of an owner are delivered. -/
theorem Recalls.delivers {w w' : Worklist} {jobs : List Job} {owner : UInt64}
    {taken : List (CompilationKey × CompileResult)} (h : Recalls layout events ⟨w, jobs⟩)
    (hs : Sound ⟨w, jobs⟩) (hkeys : taken.map Prod.fst = w.ready.filter (·.owner == owner))
    (hresults : ∀ p ∈ taken, w.stage? p.1 = some (.ready p.2))
    (hd : w.Drops w' (w.ready.filter (·.owner == owner))) :
    Recalls layout (events ++ taken.map fun p => .delivered (w.ticket? p.1) p.1 p.2)
      ⟨w', jobs⟩ := by
  have hmem {p : CompilationKey × CompileResult} (hp : p ∈ taken) : p.1 ∈ w.ready.filter
    (·.owner == owner) :=
    hkeys ▸ List.mem_map_of_mem hp
  have howner {p : CompilationKey × CompileResult} (hp : p ∈ taken) : p.1.owner = owner := by
    simpa using (List.mem_filter.1 (hmem hp)).2
  have haccepted : (taken.map fun p => Event.delivered (w.ticket? p.1) p.1 p.2).filterMap
    Event.acceptedAs? = [] := by
    rw [List.filterMap_map]
    exact List.filterMap_eq_nil_iff.2 fun _ _ => rfl
  have hreadied : (events ++ taken.map fun p => Event.delivered (w.ticket? p.1) p.1 p.2).filterMap
    Event.readiedAs? =
      events.filterMap Event.readiedAs? := by
    rw [List.filterMap_append, List.filterMap_map]
    refine (congrArg _ (List.filterMap_eq_nil_iff.2 fun _ _ => rfl)).trans (List.append_nil _)
  have htickets : (taken.map fun p => Event.delivered (w.ticket? p.1) p.1 p.2).filterMap
    Event.deliveredAs? =
      waitingFor owner w := by
    rw [List.filterMap_map, waitingFor, ← hkeys, List.filterMap_map]
    rfl
  have hdelivered : (events ++ taken.map fun p => Event.delivered (w.ticket? p.1) p.1 p.2).filterMap
    Event.deliveredAs? =
      events.filterMap Event.deliveredAs? ++ waitingFor owner w := by
        rw [List.filterMap_append, htickets]
  have hwaits {t : Nat} (ht : t ∈ waitingFor owner w) : ∃ key e,
    key ∈ w.ready.filter (·.owner == owner) ∧
      w.entry? key = some e ∧ e.ticket = t := by
    obtain ⟨key, hkey, ht⟩ := List.mem_filterMap.1 ht
    obtain ⟨e, he, ht⟩ := Option.map_eq_some_iff.1 ht
    exact ⟨key, e, hkey, he, ht⟩
  have hunique (key key' : CompilationKey) (t : Nat) (hkey : w.ticket? key = some t)
      (hkey' : w.ticket? key' = some t) : key = key' := by
    obtain ⟨e, he, ht⟩ := Option.map_eq_some_iff.1 hkey
    obtain ⟨e', he', ht'⟩ := Option.map_eq_some_iff.1 hkey'
    exact h.key_unique hs he he' (ht.trans ht'.symm)
  refine ⟨?_, fun {key e} he => ?_, fun hjob => List.mem_append_left _ (h.inHand hjob),
    fun he hstage => h.lowered (hd.entry?_eq_some.1 he).2 hstage, fun he ht =>
      h.unready (hd.entry?_eq_some.1 he).2 (hreadied ▸ ht),
    hreadied ▸ h.readiedOnce, fun {t} ht => ?_, fun o => ?_,
    fun {before after t key result} hsplit => ?_, ?_,
    fun {t key e} ht he => ?_⟩
  · show _ = List.range w'.nextTicket
    rw [List.filterMap_append, h.tickets, haccepted, hd.nextTicket, List.append_nil]
  · obtain ⟨hnot, he⟩ := hd.entry?_eq_some.1 he
    refine (h.pending he).append fun event hevent hconcerns => hnot ?_
    obtain ⟨p, hp, rfl⟩ := List.mem_map.1 hevent
    rw [← hs.named he, ← show p.1 = e.plan.key from hconcerns]
    exact hmem hp
  · show t < w'.nextTicket
    rw [hd.nextTicket]
    exact h.readiedOf (hreadied ▸ ht)
  · have hnone : readiedFor o (taken.map fun p => Event.delivered (w.ticket? p.1) p.1 p.2) = [] :=
      List.filterMap_eq_nil_iff.2 fun event he => by
        obtain ⟨p, -, rfl⟩ := List.mem_map.1 (List.mem_filter.1 he).1
        rfl
    show (deliveredTo o _ ++ waitingFor o w').Sublist _
    rw [deliveredTo_append, readiedFor_append, hnone, List.append_nil]
    by_cases ho : o = owner
    · subst ho
      have hall : deliveredTo o (taken.map fun p => Event.delivered (w.ticket? p.1) p.1 p.2)
        = waitingFor o w := by
        rw [deliveredTo, List.filter_eq_self.2, htickets]
        intro event he
        obtain ⟨p, hp, rfl⟩ := List.mem_map.1 he
        simp [Event.owner?, howner hp]
      have hempty : waitingFor o w' = [] := by
        rw [waitingFor, hd.ready, List.filter_filter, List.filter_eq_nil_iff.2, List.filterMap_nil]
        intro k hk
        simp [hk]
      rw [hall, hempty, List.append_nil]
      exact h.order o
    · have hother : deliveredTo o (taken.map fun p => Event.delivered (w.ticket? p.1) p.1 p.2)
        = [] := by
        rw [deliveredTo, List.filter_eq_nil_iff.2, List.filterMap_nil]
        intro event he
        obtain ⟨p, hp, rfl⟩ := List.mem_map.1 he
        simpa [Event.owner?, howner hp] using Ne.symm ho
      rw [hother, List.append_nil]
      exact ((waitingFor_sublist (hd.ready ▸ List.filter_sublist) (fun _ => hd.ticket?_of_ready)
        o).append_left _).trans (h.order o)
  · rcases split_append hsplit with ⟨after', hevents⟩ | ⟨before', rfl, hin⟩
    · exact h.current hevents
    · obtain ⟨l₁, l₂, htaken, rfl, hl₂⟩ := List.map_eq_append_iff.1 hin
      obtain ⟨p, l₃, rfl, hp, -⟩ := List.map_eq_cons_iff.1 hl₂
      cases hp
      have hpmem : p ∈ taken := htaken ▸ List.mem_append_right _ List.mem_cons_self
      obtain ⟨e, he, hstage⟩ := stage?_eq_some.1 (hresults p hpmem)
      refine ⟨e.ticket, e.plan, ticket?_eq he, hs.named he, h.lowered he hstage,
        (h.pending he).append ?_⟩
      -- what was delivered just before is of other keys
      intro event hevent hconcerns
      obtain ⟨q, hq, rfl⟩ := List.mem_map.1 hevent
      have hnodup : (taken.map Prod.fst).Nodup := hkeys ▸ hd.nodup
      rw [htaken, List.map_append, List.nodup_append] at hnodup
      exact hnodup.2.2 q.1 (List.mem_map_of_mem hq) p.1 List.mem_cons_self
        ((show q.1 = e.plan.key from hconcerns).trans (hs.named he))
  · rw [hdelivered, List.nodup_append]
    refine ⟨h.deliveredOnce, List.Pairwise.filterMap _ (fun key key' hne t ht t' ht' heq => ?_)
      hd.nodup,
      fun a ha b hb hab => ?_⟩
    · exact hne (hunique key key' t ht (heq ▸ ht'))
    · obtain ⟨key, e, -, he, ht⟩ := hwaits hb
      exact h.spent ha he (ht.trans hab.symm)
  · obtain ⟨hnot, he⟩ := hd.entry?_eq_some.1 he
    rw [hdelivered, List.mem_append] at ht
    rcases ht with ht | ht
    · exact h.spent ht he
    · intro heq
      obtain ⟨key', e', hkey', he', ht'⟩ := hwaits ht
      exact hnot ((h.key_unique hs he he' (heq.trans ht'.symm)) ▸ hkey')

/-! ## Every interleaving -/

theorem Change.recalls (hc : Change layout s new s') (hs : s.Sound) (h : Recalls layout events s) :
    Recalls layout (events ++ new) s' := by
  cases hc with
  | same =>
    rw [List.append_nil]
    exact h
  | accept ha _ => exact h.accepts hs ha nofun fun _ => .inl
  | claim ha _ => exact h.accepts hs ha nofun fun _ hjob => (List.mem_cons.1 hjob).symm
  | start hstarts =>
    rw [List.append_nil]
    exact h.starts hs hstarts
  | store hjob hlower hticket hstores => exact h.stores hs hjob hlower hticket hstores
  | discard w jobs place =>
    rw [List.append_nil]
    exact { h with inHand := fun hjob => h.inHand (mem_of_mem_eraseIdx hjob) }
  | abandon jobs hd => exact h.abandons hs hd
  | deliver jobs owner hkeys hresults hd => exact h.delivers hs hkeys hresults hd

theorem run_recalls (layout : ObjectLayout) (name : String) (actions : List Action) :
    Recalls layout (run layout name actions).1 (run layout name actions).2 :=
  (run_induction (P := fun events s => s.Sound ∧ Recalls layout events s) layout name
    ⟨sound_start name, recalls_start name⟩
    (fun _ _ a h => ⟨(act_change h.1 a).sound h.1, (act_change h.1 a).recalls h.1 h.2⟩) actions).2

/-- After every interleaving of the steps of clients and workers: every plan that was accepted has a
ticket of its own; what is delivered for a key is the lowering of the plan of that key that was
accepted last, and between the two no plan of the key was accepted, abandoned or delivered; no plan
is delivered twice; and the plans of an owner are delivered in the order in which they became ready.
-/
theorem delivery_current (layout : ObjectLayout) (name : String) (actions : List Action) :
    let events := (run layout name actions).1
    (events.filterMap Event.acceptedAs?).Nodup ∧
      (∀ before after ticket key result, events = before ++ .delivered ticket key result :: after →
        ∃ n plan early late, ticket = some n ∧ before = early ++ .accepted n plan :: late ∧
        plan.key = key ∧
          plan.lower layout = .ok result ∧ ∀ event ∈ late, ¬ event.Concerns key) ∧
      (events.filterMap Event.deliveredAs?).Nodup ∧
      (events.filterMap Event.readiedAs?).Nodup ∧
      ∀ owner, (deliveredTo owner events).Sublist (readiedFor owner events) := by
  intro events
  have h : Recalls layout events (run layout name actions).2 := run_recalls layout name actions
  refine ⟨h.nodup, fun before after ticket key result hsplit => ?_, h.deliveredOnce, h.readiedOnce,
    fun owner => ?_⟩
  · obtain ⟨n, plan, hticket, rfl, hlower, early, late, hbefore, hlate⟩ := h.current hsplit
    exact ⟨n, plan, early, late, hticket, hbefore, rfl, hlower, hlate⟩
  · exact (List.sublist_append_left _ _).trans (h.order owner)

end Workshop

end SpecJit
