import Mathlib.Data.List.Rotate
import SpecJit.Profile
import SpecJit.Proofs.Tables

/-!
# Exits that were taken

A ring keeps the last values that failed the checks of an exit. It is written from its first place
on and never turned: once it is full, the oldest value is at the place that is written next. So the
ring is the list of the last values, oldest first, only up to a rotation by the number of values
(`recorded_values`). The ring is found to be in order after sixteen values and not after nine.

A profile counts the exits that were taken since the counts were last forgotten: all of them, those
of each kind, and those of each exit. What holds after a history is `Counted`. An exit that is taken
keeps it (`Counted.taken`), and so does forgetting the counts (`Counted.reset`), so it holds after
any history that can be recorded.

The total and the counts of the exits stop at the largest number of 32 bits. The count of a kind
does not stop there, it faults; no history fails to be recorded in another way (`counts_exact`).
-/

/-! ## Values seen at an exit -/

namespace SpecJit.ValueProfile

/-- Something is written over the place `i` of a ring, and the ring is read from the next place on.
What was read first before is lost, and what was written is read last. -/
theorem rotate_set {α : Type} {l : List α} {i : Nat} (hi : i < l.length) (a : α) :
    (l.set i a).rotate (i + 1) = (l.rotate i).tail ++ [a] := by
  have hlength : (l.take i ++ [a]).length = i + 1 := by simp [Nat.le_of_lt hi]
  have hset : l.set i a = (l.take i ++ [a]) ++ l.drop (i + 1) := by
    rw [List.set_eq_take_append_cons_drop, if_pos hi]
    simp
  have hturned : (l.rotate i).tail = l.drop (i + 1) ++ l.take i := by
    rw [List.rotate_eq_drop_append_take (Nat.le_of_lt hi),
      List.tail_append_of_ne_nil (by simpa using hi), List.tail_drop]
  have hrotate := List.rotate_append_length_eq (l.take i ++ [a]) (l.drop (i + 1))
  rw [hlength] at hrotate
  rw [hset, hrotate, hturned, List.append_assoc]

/-- The union of the kinds of some values. -/
def kindsOf (ws : List Word) : SpecType := ws.foldl (fun ty w => ty ||| Value.specType w) .none

/-- The profile `v` after the values `ws`. -/
structure Remembers (ws : List Word) (v : ValueProfile) : Prop where
  next : v.next = ws.length % capacity
  last : v.buckets.toList.rotate ws.length = ws.drop (ws.length - capacity)
  observed : v.observed = kindsOf ws

variable {ws : List Word} {v : ValueProfile}

theorem remembers_fresh : Remembers [] {} := ⟨rfl, rfl, rfl⟩

theorem Remembers.size (h : Remembers ws v) : v.buckets.size = min ws.length capacity := by
  have hlength := congrArg List.length h.last
  rw [List.length_rotate, Array.length_toList, List.length_drop] at hlength
  omega

/-- The next place is there once the ring is full. -/
theorem Remembers.next_lt (h : Remembers ws v) (hfull : capacity ≤ ws.length) :
    v.next < v.buckets.size := by
  have hmod : ws.length % capacity < capacity := Nat.mod_lt _ (by decide)
  rw [h.size, h.next]
  omega

/-- The ring takes any value. -/
theorem Remembers.put (h : Remembers ws v) (w : Word) : ∃ buckets, v.put w = .ok buckets ∧
    buckets.toList.rotate (ws.length + 1) = (ws ++ [w]).drop (ws.length + 1 - capacity) := by
  unfold ValueProfile.put
  by_cases hroom : ws.length < capacity
  · have hsize := h.size
    have hall := h.last
    rw [Nat.sub_eq_zero_of_le (Nat.le_of_lt hroom), List.drop_zero] at hall
    have hbuckets : v.buckets.toList = ws := by
      have hlength : v.buckets.toList.length = ws.length := by rw [Array.length_toList]; omega
      rw [← hall, ← hlength, List.rotate_length]
    have hmore : (ws ++ [w]).length = ws.length + 1 := by simp
    refine ⟨v.buckets.push w, if_pos (by omega), ?_⟩
    rw [Nat.sub_eq_zero_of_le hroom, List.drop_zero, Array.toList_push, hbuckets, ← hmore,
      List.rotate_length]
  · have hfull : capacity ≤ ws.length := Nat.le_of_not_lt hroom
    have hnext := h.next_lt hfull
    have hsize : v.buckets.size = capacity := by rw [h.size, Nat.min_eq_right hfull]
    refine ⟨v.buckets.setIfInBounds v.next w, by rw [if_neg (by omega), if_pos hnext], ?_⟩
    -- the ring has the length of a full turn, so only the place counts
    have hturn (l : List Word) (hl : l.length = capacity) (k : Nat) :
      l.rotate (ws.length + k) = l.rotate (v.next + k) := by
      rw [← List.rotate_mod l (ws.length + k), ← List.rotate_mod l (v.next + k), h.next, hl,
        Nat.mod_add_mod]
    have hlast : v.buckets.toList.rotate v.next = ws.drop (ws.length - capacity) := by
      rw [← h.last]
      exact (hturn _ hsize 0).symm
    calc (v.buckets.setIfInBounds v.next w).toList.rotate (ws.length + 1)
        = (v.buckets.toList.set v.next w).rotate (v.next + 1) := by
          rw [Array.toList_setIfInBounds, hturn _ (by simpa using hsize)]
      _ = (ws.drop (ws.length - capacity)).tail ++ [w] := by
        rw [rotate_set (by simpa using hnext), hlast]
      _ = (ws ++ [w]).drop (ws.length + 1 - capacity) := by
          rw [List.tail_drop, List.drop_append_of_le_length (by omega), Nat.sub_add_comm hfull]

/-- A value can always be recorded. -/
theorem Remembers.record (h : Remembers ws v) (w : Word) :
    ∃ v', v.record w = .ok v' ∧ Remembers (ws ++ [w]) v' := by
  obtain ⟨buckets, hput, hlast⟩ := h.put w
  have hnext : v.next + 1 < 0x10000000000000000 := by
    have hmod : ws.length % capacity < 8 := Nat.mod_lt _ (by decide)
    rw [h.next]
    omega
  refine ⟨{ buckets, next := (v.next + 1) % capacity,
            observed := v.observed.union (Value.specType w) }, ?_, ?_, ?_, ?_⟩
  · unfold ValueProfile.record
    rw [hput]
    exact if_pos hnext
  · rw [h.next, Nat.mod_add_mod, List.length_append, List.length_singleton]
  · rw [List.length_append, List.length_singleton]
    exact hlast
  · rw [kindsOf, List.foldl_append, ← kindsOf, ← h.observed]
    rfl

theorem Remembers.recordAll (h : Remembers ws v) (more : List Word) :
    ∃ v', more.foldlM ValueProfile.record v = .ok v' ∧ Remembers (ws ++ more) v' := by
  induction more generalizing ws v with
  | nil => exact ⟨v, rfl, by simpa using h⟩
  | cons w more ih =>
    obtain ⟨v₁, h₁, hw⟩ := h.record w
    obtain ⟨v', hv', hall⟩ := ih hw
    refine ⟨v', ?_, by simpa using hall⟩
    rw [List.foldlM_cons, h₁]
    exact hv'

/-- Any values can be recorded. The kinds of all of them are kept, and the ring, read from the place
that is due next, holds the last of them, oldest first. Read from its start it is that list exactly
if turning the list by the number of values makes no difference to it, as with no more values than
the ring has places. -/
theorem recorded_values (ws : List Word) : ∃ v, ws.foldlM ValueProfile.record {} = .ok v ∧
    v.observed = kindsOf ws ∧ v.buckets.toList.rotate ws.length = ws.drop (ws.length - capacity) ∧
    (v.buckets.toList = ws.drop (ws.length - capacity) ↔
      (ws.drop (ws.length - capacity)).rotate ws.length = ws.drop (ws.length - capacity)) := by
  obtain ⟨v, hv, hall⟩ := remembers_fresh.recordAll ws
  rw [List.nil_append] at hall
  refine ⟨v, hv, hall.observed, hall.last, fun h => ?_, fun h => ?_⟩
  · rw [← h]
    exact hall.last.trans h.symm
  · exact List.rotate_eq_rotate.1 (hall.last.trans h.symm)

/-- After the integers from 0 to 8 the ring starts with the last of them. -/
theorem ring_after_nine :
    ∃ v, ((List.range 9).map fun i => Value.boxInt32 (Int32.ofNat i)).foldlM ValueProfile.record
      {} = .ok v ∧
    v.buckets.toList ≠ (((List.range 9).map fun i => Value.boxInt32 (Int32.ofNat i)).drop 1) ∧
    v.buckets.toList = [8, 1, 2, 3, 4, 5, 6, 7].map fun i => Value.boxInt32 (Int32.ofNat i) := by
  refine ⟨_, rfl, by decide, by decide⟩

end SpecJit.ValueProfile

/-! ## Counts of exits -/

namespace SpecJit

namespace ExitProfile

/-! ## Tables in the order of a rank -/

section Assign

variable {κ α : Type} {rank : κ → Nat}

theorem mem_assign (hrank : Function.Injective rank) {entries : List (κ × α)} {key k : κ}
    {value a : α} :
    (k, a) ∈ assign rank entries key value ↔ (k = key ∧ a = value) ∨
      (k ≠ key ∧ (k, a) ∈ entries) := by
  have hne : k ≠ key ↔ rank k < rank key ∨ rank key < rank k := by
    rw [← hrank.ne_iff]
    omega
  simp only [assign, List.mem_append, List.mem_filter, decide_eq_true_eq, List.mem_singleton,
    Prod.mk.injEq, hne]
  tauto

theorem lookup_assign [DecidableEq κ] (hrank : Function.Injective rank) (entries : List (κ × α))
    (key k : κ) (value : α) :
    (assign rank entries key value).lookup k = if k = key then some value else entries.lookup
      k := by
  rw [assign, List.lookup_append, List.lookup_append,
    lookup_filter fun k => decide (rank k < rank key),
    lookup_filter fun k => decide (rank key < rank k)]
  by_cases hk : k = key
  · simp [hk]
  · have hbeq : (k == key) = false := by simpa using hk
    rcases Nat.lt_or_gt_of_ne (hrank.ne hk) with hlt | hlt <;>
      simp [List.lookup_cons, hbeq, hk, hlt, Nat.lt_asymm hlt]

end Assign

theorem kindRank_injective : Function.Injective kindRank := by
  intro a b h
  cases a <;> cases b <;> first | rfl | exact absurd h (by decide)

theorem index_injective : Function.Injective ExitId.index := by
  rintro ⟨a⟩ ⟨b⟩ h
  exact congrArg _ h

/-! ## Histories -/

/-- What happens to a profile. -/
inductive Event where
  /-- code leaves through an exit; `observed` is the value that failed its check -/
  | taken (id : ExitId) (observed : Option Word)
  /-- the function was compiled again -/
  | reset

/-- A profile after an event. What each exit is does not change. -/
def after (exits : ExitId → OsrExit) (p : ExitProfile) : Event → Except Fault ExitProfile
  | .taken id observed => p.record id (exits id).kind (exits id).origin observed
  | .reset => .ok p.resetCounts

/-- A profile after a history that started without exits. -/
def recorded (exits : ExitId → OsrExit) (threshold : Nat) (events : List Event) :
    Except Fault ExitProfile :=
  events.foldlM (after exits) (withThreshold threshold)

/-- The exits that were taken since the counts were last forgotten. -/
def sinceReset (events : List Event) : List ExitId :=
  events.foldl (fun taken e => match e with
    | .taken id _ => taken ++ [id]
    | .reset => []) []

/-- How many of them were of a kind. -/
def kindSinceReset (exits : ExitId → OsrExit) (events : List Event) (kind : ExitKind) : Nat :=
  (sinceReset events).countP fun id => (exits id).kind = kind

/-- The values that failed their checks at an exit, whenever that was. -/
def seenAt (id : ExitId) (events : List Event) : List Word :=
  events.filterMap fun
    | .taken id' observed => if id' = id then observed else none
    | .reset => none

/-- The exit was taken, whenever that was. -/
def WasTaken (id : ExitId) (events : List Event) : Prop :=
  ∃ observed, Event.taken id observed ∈ events

theorem after_taken (exits : ExitId → OsrExit) (p : ExitProfile) (id : ExitId)
    (observed : Option Word) :
    p.after exits (.taken id observed) = p.record id (exits id).kind (exits id).origin observed :=
      rfl

variable {exits : ExitId → OsrExit} {threshold : Nat} {events : List Event} {p p' : ExitProfile}
  {id : ExitId} {observed : Option Word}

theorem sinceReset_taken :
    sinceReset (events ++ [.taken id observed]) = sinceReset events ++ [id] := by
  simp [sinceReset, List.foldl_append]

theorem sinceReset_reset : sinceReset (events ++ [.reset]) = [] := by
  simp [sinceReset, List.foldl_append]

theorem kindSinceReset_taken (kind : ExitKind) :
    kindSinceReset exits (events ++ [.taken id observed]) kind =
    kindSinceReset exits events kind + if (exits id).kind = kind then 1 else 0 := by
  simp [kindSinceReset, sinceReset_taken, List.countP_append, List.countP_singleton]

theorem seenAt_taken (id' : ExitId) : seenAt id' (events ++ [.taken id observed]) =
    seenAt id' events ++ if id = id' then observed.toList else [] := by
  by_cases hid : id = id' <;> cases observed <;> simp [seenAt, hid]

theorem seenAt_reset (id' : ExitId) : seenAt id' (events ++ [.reset]) = seenAt id' events := by
  simp [seenAt]

theorem wasTaken_taken (id' : ExitId) :
    WasTaken id' (events ++ [.taken id observed]) ↔ id' = id ∨ WasTaken id' events := by
  simp [WasTaken, exists_or, or_comm]

theorem wasTaken_reset (id' : ExitId) :
    WasTaken id' (events ++ [.reset]) ↔ WasTaken id' events := by simp [WasTaken]

theorem seenAt_of_not_wasTaken (h : ¬ WasTaken id events) : seenAt id events = [] := by
  refine List.filterMap_eq_nil_iff.2 fun e he => ?_
  cases e with
  | taken id' observed =>
    refine if_neg fun hid => h ⟨observed, ?_⟩
    rw [← hid]
    exact he
  | reset => rfl

theorem wasTaken_of_mem (h : id ∈ sinceReset events) : WasTaken id events := by
  induction events using List.reverseRecOn with
  | nil => cases h
  | append_singleton events e ih =>
    cases e with
    | taken id' observed =>
      rw [sinceReset_taken, List.mem_append, List.mem_singleton] at h
      exact (wasTaken_taken id).2 (h.symm.imp_right ih)
    | reset =>
      rw [sinceReset_reset] at h
      cases h

/-! ## One exit -/

/-- What an exit has seen, of all values that failed their checks there. -/
def keeps (kind : ExitKind) (ws : List Word) : List Word :=
  if kind.recordsValueProfile then ws else []

/-- An exit can always be counted at its site. -/
theorem siteRecord_ok {s : SiteProfile} {ws : List Word}
    (h : ValueProfile.Remembers (keeps s.kind ws) (s.values.getD {})) (observed : Option Word) :
    ∃ s', s.record s.kind observed = .ok s' ∧ s'.kind = s.kind ∧ s'.origin = s.origin ∧
      s'.count = bump s.count ∧
      ValueProfile.Remembers (keeps s.kind (ws ++ observed.toList)) (s'.values.getD {}) := by
  unfold SiteProfile.record
  unfold keeps at h ⊢
  cases hkind : s.kind.recordsValueProfile with
  | false =>
    have hnone : (observed.filter fun _ => s.kind.recordsValueProfile) = none := by
      rw [hkind]
      cases observed <;> rfl
    simp only [hkind, Bool.false_eq_true, if_false] at h ⊢
    rw [← hkind, hnone]
    exact ⟨_, rfl, rfl, rfl, rfl, h⟩
  | true =>
    simp only [hkind, if_true] at h ⊢
    cases observed with
    | none => exact ⟨_, rfl, rfl, rfl, rfl, by simpa using h⟩
    | some w =>
      obtain ⟨v, hv, hw⟩ := h.record w
      refine ⟨{ s with count := bump s.count, values := some v }, ?_, rfl, rfl, rfl, hw⟩
      rw [Option.filter_some, if_pos rfl]
      dsimp only
      rw [hv]
      rfl

/-! ## What a profile counts -/

/-- The site of exit `id` after a history. -/
structure SiteCounted (exits : ExitId → OsrExit) (events : List Event) (id : ExitId)
    (s : SiteProfile) : Prop where
  kind : s.kind = (exits id).kind
  origin : s.origin = (exits id).origin
  count : s.count = min ((sinceReset events).count id) maxCount
  seen : ValueProfile.Remembers (keeps s.kind (seenAt id events)) (s.values.getD {})

/-- The profile after a history. -/
structure Counted (exits : ExitId → OsrExit) (threshold : Nat) (events : List Event)
    (p : ExitProfile) : Prop where
  threshold : p.threshold = max threshold 1
  total : p.total = min (sinceReset events).length maxCount
  kinds : ∀ kind, p.count kind = kindSinceReset exits events kind
  sites : ∀ id s, (id, s) ∈ p.sites → SiteCounted exits events id s
  listed : ∀ id, (∃ s, (id, s) ∈ p.sites) ↔ WasTaken id events

theorem counted_start : Counted exits threshold [] (withThreshold threshold) where
  threshold := rfl
  total := rfl
  kinds _ := rfl
  sites _ _ h := by cases h
  listed id := by simp [withThreshold, WasTaken]

theorem Counted.reset (h : Counted exits threshold events p) :
    Counted exits threshold (events ++ [.reset]) p.resetCounts where
  threshold := h.threshold
  total := by rw [sinceReset_reset]; rfl
  kinds kind := by rw [kindSinceReset, sinceReset_reset]; rfl
  sites id s hs := by
    obtain ⟨⟨id', s'⟩, hs', heq⟩ := List.mem_map.1 hs
    cases heq
    have hsite := h.sites id s' hs'
    exact ⟨hsite.kind, hsite.origin,
      by rw [sinceReset_reset]; rfl, by rw [seenAt_reset]; exact hsite.seen⟩
  listed id := by
    rw [wasTaken_reset, ← h.listed id]
    simp [resetCounts]

theorem mem_of_site? {s : SiteProfile} (h : p.site? id = some s) : (id, s) ∈ p.sites := by
  obtain ⟨l₁, l₂, hsplit, -⟩ := List.lookup_eq_some_iff.1 h
  rw [hsplit]
  simp

theorem site?_isSome_iff : (p.site? id).isSome = true ↔ ∃ s, (id, s) ∈ p.sites := by
  rw [site?, lookup_isSome_iff]
  simp

/-- The site that an exit is counted at: the one that is there, or a new one. -/
theorem Counted.site (h : Counted exits threshold events p) (id : ExitId) :
    SiteCounted exits events id
      ((p.site? id).getD { kind := (exits id).kind, origin := (exits id).origin }) := by
  cases hs : p.site? id with
  | some s => exact h.sites id s (mem_of_site? hs)
  | none =>
    have hnew : ¬ WasTaken id events := fun htaken => by
      have := site?_isSome_iff.2 ((h.listed id).2 htaken)
      simp [hs] at this
    have hcount : (sinceReset events).count id = 0 := List.count_eq_zero.2 fun hmem =>
      hnew (wasTaken_of_mem hmem)
    refine ⟨rfl, rfl, by rw [hcount]; rfl, ?_⟩
    rw [seenAt_of_not_wasTaken hnew]
    unfold keeps
    split <;> exact ValueProfile.remembers_fresh

/-- The site of an exit that is taken once more, and the sites of the others. -/
theorem SiteCounted.taken {s s' : SiteProfile} (h : SiteCounted exits events id s)
    (hkind : s'.kind = s.kind)
    (horigin : s'.origin = s.origin) (hcount : s'.count = bump s.count)
    (hseen : ValueProfile.Remembers (keeps s.kind (seenAt id events ++ observed.toList))
      (s'.values.getD {})) :
    SiteCounted exits (events ++ [.taken id observed]) id s' where
  kind := hkind.trans h.kind
  origin := horigin.trans h.origin
  count := by
    rw [hcount, h.count, sinceReset_taken, List.count_append, List.count_singleton_self]
    unfold bump
    omega
  seen := by
    rw [hkind, seenAt_taken, if_pos rfl]
    exact hseen

theorem SiteCounted.other {id' : ExitId} {s : SiteProfile} (h : SiteCounted exits events id' s)
    (hid : id' ≠ id) :
    SiteCounted exits (events ++ [.taken id observed]) id' s where
  kind := h.kind
  origin := h.origin
  count := by
    rw [h.count, sinceReset_taken, List.count_append, List.count_singleton,
      if_neg (by simpa using hid.symm), Nat.add_zero]
  seen := by
    rw [seenAt_taken, if_neg hid.symm, List.append_nil]
    exact h.seen

theorem record_ok {kind : ExitKind} {origin : CodeOrigin} {perKind : List (ExitKind × Nat)}
    {s : SiteProfile} (hkind : p.countKind kind = .ok perKind)
    (hsite : ((p.site? id).getD { kind, origin }).record kind observed = .ok s) :
    p.record id kind origin observed =
      .ok { p with total := bump p.total, perKind, sites := assign ExitId.index p.sites id s } := by
  rw [record, hkind]
  simp only [bind, Except.bind, hsite]
  rfl

/-- An exit is counted, unless the count of its kind is full. -/
theorem Counted.taken (h : Counted exits threshold events p) (id : ExitId) (observed : Option Word)
    :
    (kindSinceReset exits events (exits id).kind < maxCount ∧ ∃ p',
      p.after exits (.taken id observed) = .ok p' ∧
      Counted exits threshold (events ++ [.taken id observed]) p') ∨
    (maxCount ≤ kindSinceReset exits events (exits id).kind ∧
      p.after exits (.taken id observed) = .error .overflow) := by
  have hcounted := h.kinds (exits id).kind
  rw [after_taken]
  by_cases hfull : kindSinceReset exits events (exits id).kind < maxCount
  · refine .inl ⟨hfull, ?_⟩
    have hsite := h.site id
    obtain ⟨s', hs', hkind, horigin, hcount, hseen⟩ := siteRecord_ok hsite.seen observed
    rw [hsite.kind] at hs'
    have hroom : p.countKind (exits id).kind = .ok (assign kindRank p.perKind (exits id).kind
      (p.count (exits id).kind + 1)) :=
      if_pos (by rw [hcounted]; exact hfull)
    refine ⟨_, record_ok hroom hs', h.threshold, ?_, fun kind => ?_, fun id' s hs => ?_,
      fun id' => ?_⟩
    · dsimp only
      rw [h.total, sinceReset_taken, List.length_append]
      unfold bump
      simp only [List.length_singleton]
      omega
    · change ((assign kindRank p.perKind (exits id).kind _).lookup kind).getD 0 = _
      rw [lookup_assign kindRank_injective, kindSinceReset_taken]
      by_cases hk : kind = (exits id).kind
      · rw [if_pos hk, if_pos hk.symm, hcounted, hk]
        rfl
      · rw [if_neg hk, if_neg (Ne.symm hk), Nat.add_zero]
        exact h.kinds kind
    · obtain ⟨rfl, rfl⟩ | ⟨hid, hs⟩ := (mem_assign index_injective).1 hs
      · exact hsite.taken hkind horigin hcount hseen
      · exact (h.sites id' s hs).other hid
    · rw [wasTaken_taken, ← h.listed id']
      simp only [mem_assign index_injective]
      by_cases hid : id' = id <;> simp [hid]
  · refine .inr ⟨Nat.le_of_not_lt hfull, ?_⟩
    rw [record, countKind, if_neg (by rw [hcounted]; exact hfull)]
    rfl

/-! ## Histories that can be recorded -/

/-- At no time was a kind counted more often than can be counted. -/
def NeverFull (exits : ExitId → OsrExit) (events : List Event) : Prop :=
  ∀ before, before <+: events → ∀ kind, kindSinceReset exits before kind ≤ maxCount

theorem neverFull_append {e : Event} : NeverFull exits (events ++ [e]) ↔
    NeverFull exits events ∧ ∀ kind, kindSinceReset exits (events ++ [e]) kind ≤ maxCount := by
  simp only [NeverFull, List.prefix_concat_iff]
  constructor
  · exact fun h => ⟨fun before hbefore => h before (.inr hbefore), h _ (.inl rfl)⟩
  · rintro ⟨h, hlast⟩ before (rfl | hbefore)
    · exact hlast
    · exact h before hbefore

/-- A history is recorded, or a kind was counted more often than can be counted. -/
theorem recorded_cases (exits : ExitId → OsrExit) (threshold : Nat) (events : List Event) :
    (NeverFull exits events ∧ ∃ p, recorded exits threshold events = .ok p ∧ Counted exits threshold
      events p) ∨
      (¬ NeverFull exits events ∧ recorded exits threshold events = .error .overflow) := by
  induction events using List.reverseRecOn with
  | nil =>
    refine .inl ⟨fun before hbefore kind => ?_, _, rfl, counted_start⟩
    rw [List.prefix_nil.1 hbefore]
    exact Nat.zero_le _
  | append_singleton events e ih =>
    have hrun : recorded exits threshold (events ++ [e]) = recorded exits threshold events >>=
      fun p => p.after exits e := by
      simp [recorded, List.foldlM_append]
    rw [hrun, neverFull_append]
    obtain ⟨hnever, p, hp, hcounted⟩ | ⟨hfull, hp⟩ := ih
    · rw [hp]
      cases e with
      | reset =>
        refine .inl ⟨⟨hnever, fun kind => ?_⟩, _, rfl, hcounted.reset⟩
        rw [kindSinceReset, sinceReset_reset]
        exact Nat.zero_le _
      | taken id observed =>
        simp only [kindSinceReset_taken]
        obtain ⟨hroom, hp'⟩ | ⟨hfull, herror⟩ := hcounted.taken id observed
        · refine .inl ⟨⟨hnever, fun kind => ?_⟩, hp'⟩
          have hbefore := hnever events (List.prefix_refl _) kind
          by_cases hk : (exits id).kind = kind
          · rw [if_pos hk, ← hk]
            exact hroom
          · rw [if_neg hk]
            exact hbefore
        · refine .inr ⟨fun ⟨_, hlast⟩ => ?_, herror⟩
          have := hlast (exits id).kind
          rw [if_pos rfl] at this
          omega
    · refine .inr ⟨fun h => hfull h.1, ?_⟩
      rw [hp]
      rfl

theorem Counted.site?_count (h : Counted exits threshold events p) {s : SiteProfile}
    (hs : p.site? id = some s) :
    WasTaken id events ∧ s.count = min ((sinceReset events).count id) maxCount :=
  ⟨(h.listed id).1 ⟨s, mem_of_site? hs⟩, (h.sites id s (mem_of_site? hs)).count⟩

theorem Counted.hasExitSite_iff (h : Counted exits threshold events p) (origin : CodeOrigin)
    (kind : ExitKind) :
    p.hasExitSite origin kind = true ↔ ∃ id, WasTaken id events ∧ (exits id).origin = origin ∧
      (exits id).kind = kind := by
  simp only [hasExitSite, List.any_eq_true, Bool.and_eq_true, beq_iff_eq]
  constructor
  · rintro ⟨⟨id, s⟩, hs, horigin, hkind⟩
    have hsite := h.sites id s hs
    exact ⟨id, (h.listed id).1 ⟨s, hs⟩, hsite.origin ▸ horigin, hsite.kind ▸ hkind⟩
  · rintro ⟨id, htaken, horigin, hkind⟩
    obtain ⟨s, hs⟩ := (h.listed id).2 htaken
    have hsite := h.sites id s hs
    exact ⟨(id, s), hs, hsite.origin.trans horigin, hsite.kind.trans hkind⟩

/-- A history of exits that are taken and counts that are forgotten is recorded exactly if no kind
was ever counted more often than 32 bits can hold; otherwise the profile faults. What is recorded is
exact up to that number: the total, the count of each kind and the count of each exit since the
counts were forgotten. The function is to be compiled again from the threshold on, and an exit that
was taken once is known from then on. -/
theorem counts_exact (exits : ExitId → OsrExit) (threshold : Nat) (events : List Event) :
    (¬ NeverFull exits events ∧ recorded exits threshold events = .error .overflow) ∨
    (NeverFull exits events ∧ ∃ p, recorded exits threshold events = .ok p ∧
      p.total = min (sinceReset events).length maxCount ∧
      (∀ kind, p.count kind = min (kindSinceReset exits events kind) maxCount) ∧
      (∀ id, ((p.site? id).isSome = true ↔ WasTaken id events) ∧
        ∀ s, p.site? id = some s → s.count = min ((sinceReset events).count id) maxCount) ∧
      (p.shouldReoptimize = true ↔ max threshold 1 ≤ p.total) ∧
      ∀ origin kind, p.hasExitSite origin kind = true ↔
        ∃ id, WasTaken id events ∧ (exits id).origin = origin ∧ (exits id).kind = kind) := by
  obtain ⟨hnever, p, hp, hcounted⟩ | hfull := recorded_cases exits threshold events
  · refine .inr ⟨hnever, p, hp, hcounted.total, fun kind => ?_,
      fun id => ⟨?_, fun s hs => (hcounted.site?_count hs).2⟩, ?_,
      hcounted.hasExitSite_iff⟩
    · rw [hcounted.kinds, Nat.min_eq_left (hnever events (List.prefix_refl _) kind)]
    · rw [site?_isSome_iff, hcounted.listed]
    · rw [shouldReoptimize, decide_eq_true_eq, hcounted.threshold]
  · exact .inl hfull

theorem sinceReset_replicate (id : ExitId) (observed : Option Word) (n : Nat) :
    sinceReset (List.replicate n (.taken id observed)) = List.replicate n id := by
  induction n with
  | zero => rfl
  | succ n ih => rw [List.replicate_succ', sinceReset_taken, ih, ← List.replicate_succ']

/-- Leaves at the third instruction when a result is too large. -/
def tooLarge : OsrExit :=
  { kind := .overflow, origin := ⟨3⟩, profileValue := none, values := default }

/-- One exit more than 32 bits can count is not recorded, although the total and the count of the
exit would have stopped at the largest number. -/
theorem full_kind_faults :
    recorded (fun _ => tooLarge) 100 (List.replicate (maxCount + 1) (.taken ⟨0⟩ none)) = .error
      .overflow := by
  obtain ⟨hnever, -⟩ | ⟨-, hfull⟩ :=
    recorded_cases (fun _ => tooLarge) 100 (List.replicate (maxCount + 1) (.taken ⟨0⟩ none))
  · have hcount := hnever _ (List.prefix_refl _) .overflow
    have hall : kindSinceReset (fun _ => tooLarge) (List.replicate (maxCount + 1) (.taken ⟨0⟩ none))
      .overflow = maxCount + 1 := by
      rw [kindSinceReset, sinceReset_replicate, List.countP_replicate, if_pos (by decide)]
    omega
  · exact hfull

end ExitProfile

end SpecJit
