import Mathlib.Algebra.GroupWithZero.Nat
import Mathlib.Algebra.Order.BigOperators.Group.List
import Mathlib.Algebra.Order.Group.Nat
import Mathlib.Data.List.Nodup
import Mathlib.Data.List.Perm.Subperm
import SpecJit.Proofs.Availability.Step

/-!
# The rounds come to an end

Going over the blocks once more either changes nothing or gives something up: a slot, a node, the
agreement on a slot or a field, or it reaches a block that was not reached so far.
`AvailabilityMap.room` counts what a state can still give up, and `maxRounds` is more than all heads
together can (`Good.room_lt_maxRounds`). So the last round changes nothing: the computed heads are
stable (`blockHeads_cases`), unless arguments are spread over more variables than there can be.
-/

namespace SpecJit

/-! ## What can be given up -/

/-- The steps in which an availability can still be given up. -/
def Availability.room (a : Availability) : Nat :=
  (if a.flushed.isSome then 1 else 0) + (if a.node.isSome then 1 else 0) + if a.conflicting then 0
    else 1

theorem Availability.room_le (a : Availability) : a.room ≤ 3 := by
  unfold room
  split <;> split <;> split <;> omega

/-- Merging keeps each part of an availability or gives it up. -/
theorem Availability.merge_room (a b : Availability) :
    a.merge b = a ∨ (a.merge b).room < a.room := by
  have hflushed : (a.merge b).flushed = a.flushed ∨ (a.merge b).flushed = none ∧
    a.flushed.isSome = true := by
    simp only [merge]
    cases a.flushed <;> split <;> simp
  have hnode : (a.merge b).node = a.node ∨ (a.merge b).node = none ∧ a.node.isSome = true := by
    simp only [merge]
    cases a.node <;> split <;> simp
  have hconflicting : (a.merge b).conflicting = a.conflicting ∨ (a.merge b).conflicting = true ∧
    a.conflicting = false := by
    cases hc : a.conflicting
    · cases (a.merge b).conflicting <;> simp
    · simp [merge, hc]
  rcases hflushed with hf | ⟨hf, hf'⟩ <;> rcases hnode with hn | ⟨hn, hn'⟩ <;>
    rcases hconflicting with hc | ⟨hc, hc'⟩
  · left
    calc a.merge b = ⟨(a.merge b).flushed, (a.merge b).node, (a.merge b).conflicting⟩ := rfl
      _ = a := by rw [hf, hn, hc]
  all_goals exact .inr (by grind [room])

namespace AvailabilityMap

/-- The steps in which a state can still be given up; a field can be dropped, too. -/
def room (m : AvailabilityMap) : Nat :=
  (m.operands.arguments.toList.map (·.room)).sum + (m.operands.locals.toList.map (·.room)).sum +
    (m.heap.map fun e => e.2.room + 1).sum

theorem mapIdx_room {f : Nat → Availability → Availability}
    (hf : ∀ i a, f i a = a ∨ (f i a).room < a.room) (l : List Availability) :
    l.mapIdx f = l ∨ ((l.mapIdx f).map (·.room)).sum < (l.map (·.room)).sum := by
  induction l generalizing f with
  | nil => exact .inl rfl
  | cons a l ih =>
    simp only [List.mapIdx_cons, List.map_cons, List.sum_cons]
    rcases hf 0 a with ha | ha <;> rcases ih (fun i => hf (i + 1)) with hl | hl
    · exact .inl (by rw [ha, hl])
    · exact .inr (by rw [ha]; omega)
    · exact .inr (by rw [hl]; omega)
    · exact .inr (by omega)

theorem heap_room (other heap : List (HeapField × Availability)) :
    heap.filterMap (fun e => (other.lookup e.1).map fun b => (e.1, e.2.merge b)) = heap ∨
      ((heap.filterMap fun e => (other.lookup e.1).map fun b => (e.1, e.2.merge b)).map fun e =>
        e.2.room + 1).sum <
        (heap.map fun e => e.2.room + 1).sum := by
  induction heap with
  | nil => exact .inl rfl
  | cons e heap ih =>
    cases hlookup : other.lookup e.1 with
    | none =>
      rw [List.filterMap_cons_none (by rw [hlookup]; rfl), List.map_cons, List.sum_cons]
      rcases ih with ih | ih
      · exact .inr (by rw [ih]; omega)
      · exact .inr (by omega)
    | some b =>
      rw [List.filterMap_cons_some (b := (e.1, e.2.merge b)) (by rw [hlookup]; rfl), List.map_cons,
        List.map_cons, List.sum_cons, List.sum_cons]
      dsimp only
      rcases ih with ih | ih <;> rcases Availability.merge_room e.2 b with ha | ha
      · exact .inl (by rw [ih, ha])
      · exact .inr (by rw [ih]; omega)
      · exact .inr (by rw [ha]; omega)
      · exact .inr (by omega)

/-- Merging changes nothing or gives something up. -/
theorem merge_room (m other : AvailabilityMap) :
    m.merge other = m ∨ (m.merge other).room < m.room := by
  obtain ⟨⟨arguments, locals⟩, heap⟩ := m
  have hargs := mapIdx_room (f := fun i a => a.merge (other.get (.arg i)))
    (fun _ _ => Availability.merge_room ..) arguments.toList
  have hlocals := mapIdx_room (f := fun i a => a.merge (other.get (.loc i)))
    (fun _ _ => Availability.merge_room ..) locals.toList
  have hheap := heap_room other.heap heap
  simp only [merge, Operands.map, room, mk.injEq, Operands.mk.injEq, ← Array.toList_inj,
    Array.toList_mapIdx]
  rcases hargs with hargs | hargs <;> rcases hlocals with hlocals | hlocals <;>
    rcases hheap with hheap | hheap
  · exact .inl ⟨⟨hargs, hlocals⟩, hheap⟩
  all_goals
    right
    first | rw [hargs] | skip
    first | rw [hlocals] | skip
    first | rw [hheap] | skip
    omega

/-! ## States that fit a graph -/

/-- The field that a node gives a value to. -/
def hintedField? (node : Node) : Option HeapField :=
  match node.op, node.children with
  | .putHint location, e :: _ => some ⟨e.node, location⟩
  | _, _ => none

/-- The state is one of the graph: it has an entry for each variable of the frame, and one at most
for each field that some node gives a value to. -/
structure Fits (g : Graph) (m : AvailabilityMap) : Prop where
  arguments : m.operands.arguments.size = g.numArguments
  locals : m.operands.locals.size = g.numLocals
  distinct : (m.heap.map (·.1)).Nodup
  hinted : m.heap.map (·.1) ⊆ g.nodes.toList.filterMap hintedField?

variable {g : Graph} {m m' : AvailabilityMap} {id : NodeId} {v : Operand} {a : Availability}

theorem sum_map_le {α : Type} {f : α → Nat} {k : Nat} {l : List α} (hf : ∀ a ∈ l, f a ≤ k) :
    (l.map f).sum ≤ k * l.length := by
  have h := List.sum_le_card_nsmul (l.map f) k fun x hx => by
    obtain ⟨a, ha, rfl⟩ := List.mem_map.1 hx
    exact hf a ha
  simpa [Nat.mul_comm] using h

/-- More than a state of the graph has room. -/
def roomOf (g : Graph) : Nat := 3 * (g.numArguments + g.numLocals) + 4 * g.nodes.size + 1

theorem Fits.room_lt (h : m.Fits g) : m.room < roomOf g := by
  have hargs := sum_map_le (f := fun a => a.room) (l := m.operands.arguments.toList)
    fun a _ => a.room_le
  have hlocals := sum_map_le (f := fun a => a.room) (l := m.operands.locals.toList)
    fun a _ => a.room_le
  have hheap := sum_map_le (f := fun e : HeapField × Availability => e.2.room + 1) (l := m.heap)
    fun e _ => Nat.succ_le_succ e.2.room_le
  have hlength : m.heap.length ≤ g.nodes.size := by
    have hsub := (h.distinct.subperm h.hinted).length_le
    have hfilter := List.length_filterMap_le hintedField? g.nodes.toList
    simp only [List.length_map, Array.length_toList] at hsub hfilter
    omega
  simp only [Array.length_toList, h.arguments, h.locals] at hargs hlocals
  unfold room roomOf
  omega

theorem Fits.setVariable (h : m.Fits g) (v : Operand) (a : Availability) :
    (m.setVariable v a).Fits g where
  arguments := by
    have hargs := h.arguments
    cases v <;> simp_all [AvailabilityMap.setVariable, Operands.set]
  locals := by
    have hlocals := h.locals
    cases v <;> simp_all [AvailabilityMap.setVariable, Operands.set]
  distinct := h.distinct
  hinted := h.hinted

theorem Fits.foldl_slots (h : m.Fits g) (l : List Operand) :
    (l.foldl (fun m v => m.setVariable v (.inSlot v .jsValue none)) m).Fits g := by
  induction l generalizing m with
  | nil => exact h
  | cons v l ih => exact ih (h.setVariable v _)

theorem Fits.spread {d : LoadVarargsData} (h : m.Fits g) (hs : m.spread d = .ok m') :
    m'.Fits g := by
  unfold AvailabilityMap.spread at hs
  dsimp only at hs
  split at hs
  · cases hs
    exact h.setVariable ..
  · split at hs
    · cases hs
    · cases hs
      exact (h.setVariable ..).foldl_slots _

theorem before_irrefl (key : HeapField) : key.before key = false := by simp [HeapField.before]

theorem before_asymm {k k' : HeapField} (h : k.before k' = true) : k'.before k = false := by
  simp only [HeapField.before, Bool.or_eq_true, Bool.and_eq_true, decide_eq_true_eq, beq_iff_eq]
    at h
  rw [← Bool.not_eq_true]
  simp only [HeapField.before, Bool.or_eq_true, Bool.and_eq_true, decide_eq_true_eq, beq_iff_eq]
  omega

theorem Fits.setField {key : HeapField} (h : m.Fits g)
    (hkey : key ∈ g.nodes.toList.filterMap hintedField?) (a : Availability) :
    (m.setField key a).Fits g where
  arguments := h.arguments
  locals := h.locals
  distinct := by
    have hfilter (p : HeapField × Availability → Bool) : ((m.heap.filter p).map (·.1)).Nodup :=
      h.distinct.sublist (List.filter_sublist.map _)
    simp only [AvailabilityMap.setField, List.map_append, List.map_cons, List.map_nil,
      List.append_assoc]
    refine List.nodup_append.2 ⟨hfilter _, List.nodup_append.2 ⟨by simp, hfilter _, ?_⟩, ?_⟩
    · rintro x hx y hy rfl
      obtain ⟨e, he, rfl⟩ := List.mem_map.1 hy
      simp_all [before_irrefl]
    · rintro x hx y hy rfl
      obtain ⟨e, he, rfl⟩ := List.mem_map.1 hx
      have hlt := (List.mem_filter.1 he).2
      rcases List.mem_append.1 hy with hy | hy
      · rw [List.mem_singleton.1 hy, before_irrefl] at hlt
        cases hlt
      · obtain ⟨e', he', heq⟩ := List.mem_map.1 hy
        have hgt := (List.mem_filter.1 he').2
        rw [heq, before_asymm hlt] at hgt
        cases hgt
  hinted := by
    simp only [AvailabilityMap.setField, List.map_append, List.map_cons, List.map_nil]
    refine List.append_subset.2 ⟨List.append_subset.2 ⟨?_, by simpa using hkey⟩, ?_⟩
    all_goals exact fun x hx => h.hinted ((List.filter_sublist.map _).subset hx)

/-- Executing a node gives a state of the graph. -/
theorem Fits.execute (h : m.Fits g) (hm : m.execute g id = .ok m') : m'.Fits g := by
  unfold AvailabilityMap.execute at hm
  obtain ⟨node, hn, hm⟩ := bind_eq_ok_iff.1 hm
  split at hm
  case h_5 v hop =>
    split at hm
    · cases hm
      exact h.setVariable ..
    · cases hm
      exact h
  case h_6 location hop =>
    obtain ⟨e, he, hm⟩ := bind_eq_ok_iff.1 hm
    obtain ⟨e', -, hm⟩ := bind_eq_ok_iff.1 hm
    cases hm
    refine h.setField (List.mem_filterMap.2 ⟨node, ?_, ?_⟩) _
    · exact Array.mem_toList_iff.2 (Array.mem_of_getElem? (Fault.ofOption_eq_ok.1 hn))
    · have hchild := Fault.ofOption_eq_ok.1 he
      cases hchildren : node.children with
      | nil => simp [hchildren] at hchild
      | cons e'' rest =>
        obtain rfl : e'' = e := by simpa [hchildren] using hchild
        simp [hintedField?, hop, hchildren]
  case h_7 d hop => exact h.spread hm
  case h_8 d hop => exact h.spread hm
  case h_9 hop =>
    cases hm
    exact ⟨h.arguments, h.locals, h.distinct.sublist (List.filter_sublist.map _),
      fun x hx => h.hinted ((List.filter_sublist.map _).subset hx)⟩
  case h_2 v hop =>
    obtain ⟨e, -, hm⟩ := bind_eq_ok_iff.1 hm
    cases hm
    exact h.setVariable ..
  case h_4 d hop =>
    obtain ⟨e, -, hm⟩ := bind_eq_ok_iff.1 hm
    cases hm
    exact h.setVariable ..
  all_goals
    cases hm
    first | exact h.setVariable .. | exact h

theorem Fits.executeAll {ids : List NodeId} (h : m.Fits g) (hm : m.executeAll g ids = .ok m') :
    m'.Fits g := by
  induction ids generalizing m with
  | nil =>
    cases hm
    exact h
  | cons id ids ih =>
    rw [AvailabilityMap.executeAll, List.foldlM_cons] at hm
    obtain ⟨m₁, h₁, hm⟩ := bind_eq_ok_iff.1 hm
    exact ih (h.execute h₁) hm

theorem Fits.merge (h : m.Fits g) (other : AvailabilityMap) : (m.merge other).Fits g := by
  have hkeys : ((m.merge other).heap.map (·.1)).Sublist (m.heap.map (·.1)) := by
    simp only [AvailabilityMap.merge]
    induction m.heap with
    | nil => exact .slnil
    | cons e heap ih =>
      cases hlookup : other.heap.lookup e.1 with
      | none =>
        rw [List.filterMap_cons_none (by rw [hlookup]; rfl)]
        exact ih.cons _
      | some b =>
        rw [List.filterMap_cons_some (b := (e.1, e.2.merge b)) (by rw [hlookup]; rfl)]
        exact ih.cons_cons _
  exact ⟨by
    simpa [AvailabilityMap.merge, Operands.map] using h.arguments, by
      simpa [AvailabilityMap.merge, Operands.map] using h.locals,
    h.distinct.sublist hkeys, fun x hx => h.hinted (hkeys.subset hx)⟩

theorem fits_atEntry (g : Graph) : (atEntry g).Fits g := by
  refine ⟨?_, ?_, .nil, List.nil_subset _⟩ <;> simp [atEntry, empty, Operands.map,
    Operands.replicate]

/-! ## Faults -/

/-- Arguments are spread over more variables than there can be. -/
def Overflows (node : Node) : Prop :=
  ∃ d first, (node.op = .loadVarargs d ∨ node.op = .forwardVarargs d) ∧ d.start = .loc first ∧
    0x100000000 < first + d.limit

theorem spread_error {d : LoadVarargsData} {f : Fault} (h : m.spread d = .error f) :
    f = .overflow ∧ ∃ first, d.start = .loc first ∧ 0x100000000 < first + d.limit := by
  unfold spread at h
  dsimp only at h
  split at h
  · cases h
  · rename_i first hstart
    split at h
    · rename_i hover
      cases h
      exact ⟨rfl, first, hstart, hover.2⟩
    · cases h

/-- Executing a node that passed validation fails only if it spreads arguments too far. -/
theorem execute_error {f : Fault} (hid : g.checkListed id = .ok ()) (h : m.execute g id = .error f)
    :
    f = .overflow ∧ ∃ node, g.node id = .ok node ∧ Overflows node := by
  obtain ⟨node, hn, hlength⟩ := Graph.checkListed_ok hid
  have hchild {i : Nat} (hi : i < node.op.minChildren) : node.child i ≠ .error f := by
    rw [Node.child, List.getElem?_eq_getElem (Nat.lt_of_lt_of_le hi hlength)]
    simp [Fault.ofOption]
  have hspread {d : LoadVarargsData} (hop : node.op = .loadVarargs d ∨ node.op = .forwardVarargs d)
      (h : m.spread d = .error f) : f = .overflow ∧ ∃ node, g.node id = .ok node ∧
        Overflows node := by
    obtain ⟨hf, first, hfirst⟩ := spread_error h
    exact ⟨hf, node, hn, d, first, hop, hfirst⟩
  unfold execute at h
  obtain h | ⟨node', hn', h⟩ := Fault.bind_error h
  · rw [hn] at h
    cases h
  cases hn.symm.trans hn'
  split at h
  case h_2 v hop =>
    obtain h | ⟨e, -, h⟩ := Fault.bind_error h
    · exact absurd h (hchild (by rw [hop]; exact Nat.zero_lt_one))
    · cases h
  case h_4 d hop =>
    obtain h | ⟨e, -, h⟩ := Fault.bind_error h
    · exact absurd h (hchild (by rw [hop]; exact Nat.zero_lt_one))
    · cases h
  case h_5 v hop => split at h <;> cases h
  case h_6 location hop =>
    obtain h | ⟨e, -, h⟩ := Fault.bind_error h
    · exact absurd h (hchild (by rw [hop]; exact Nat.zero_lt_two))
    obtain h | ⟨e', -, h⟩ := Fault.bind_error h
    · exact absurd h (hchild (by rw [hop]; exact Nat.one_lt_two))
    · cases h
  case h_7 d hop => exact hspread (.inl hop) h
  case h_8 d hop => exact hspread (.inr hop) h
  all_goals cases h

theorem executeAll_error {f : Fault} {ids : List NodeId}
    (hids : ∀ id ∈ ids, g.checkListed id = .ok ()) (h : m.executeAll g ids = .error f) :
    f = .overflow ∧ ∃ id ∈ ids, ∃ node, g.node id = .ok node ∧ Overflows node := by
  induction ids generalizing m with
  | nil => cases h
  | cons id ids ih =>
    rw [List.forall_mem_cons] at hids
    rw [executeAll, List.foldlM_cons] at h
    obtain h | ⟨m₁, -, h⟩ := Fault.bind_error h
    · obtain ⟨hf, hnode⟩ := execute_error hids.1 h
      exact ⟨hf, id, by simp, hnode⟩
    · obtain ⟨hf, id', hid', hnode⟩ := ih hids.2 h
      exact ⟨hf, id', by simp [hid'], hnode⟩

/-! ## Block heads -/

/-- The steps in which the state at a head can still be given up. A block that was not reached can
be reached, too. -/
def headRoom (g : Graph) : Option AvailabilityMap → Nat
  | none => roomOf g
  | some m => m.room

def headsRoom (g : Graph) (heads : Array (Option AvailabilityMap)) : Nat :=
  (heads.toList.map (headRoom g)).sum

theorem sum_map_set {α : Type} {f : α → Nat} {l : List α} {i : Nat} {a : α} (h : l[i]? = some a)
    (b : α) :
    ((l.set i b).map f).sum + f a = (l.map f).sum + f b := by
  induction l generalizing i with
  | nil => cases h
  | cons c l ih =>
    cases i with
    | zero =>
      cases h
      simp only [List.set_cons_zero, List.map_cons, List.sum_cons]
      omega
    | succ i =>
      have hrest := ih h
      simp only [List.set_cons_succ, List.map_cons, List.sum_cons]
      omega

/-- What holds of the heads after any number of steps. -/
structure Good (g : Graph) (heads : Array (Option AvailabilityMap)) : Prop where
  size : heads.size = g.blocks.size
  fits : ∀ (i : Nat) head, heads[i]? = some (some head) → head.Fits g
  entry : ∃ head, heads[0]? = some (some head) ∧ head.Below (atEntry g)

theorem Good.room_le {heads : Array (Option AvailabilityMap)} (h : Good g heads) :
    headsRoom g heads ≤ roomOf g * g.blocks.size := by
  rw [← h.size, ← Array.length_toList]
  refine sum_map_le fun head hhead => ?_
  cases head with
  | none => exact Nat.le_refl _
  | some m =>
    obtain ⟨i, hi⟩ := Array.getElem?_of_mem (Array.mem_toList_iff.1 hhead)
    exact Nat.le_of_lt (h.fits i m hi).room_lt

/-- A step that gives something up, and tells so. -/
def GivesUp (g : Graph) (s s' : Array (Option AvailabilityMap) × Bool) : Prop :=
  s'.2 = true ∧ headsRoom g s'.1 < headsRoom g s.1

variable {heads heads' : Array (Option AvailabilityMap)}
  {s s' : Array (Option AvailabilityMap) × Bool} {tail : AvailabilityMap} {b succ : BlockIndex}

theorem Good.set {i : Nat} {head : AvailabilityMap} (h : Good g heads) (hfits : head.Fits g)
    (hentry : i = 0 → head.Below (atEntry g)) : Good g (heads.setIfInBounds i (some head)) where
  size := by simp [h.size]
  fits j head' hj := by
    rw [Array.getElem?_setIfInBounds] at hj
    split at hj
    · split at hj
      · cases hj
        exact hfits
      · cases hj
    · exact h.fits j head' hj
  entry := by
    obtain ⟨head₀, h₀, hbelow⟩ := h.entry
    by_cases hi : i = 0
    · subst hi
      have hlt := (Array.getElem?_eq_some_iff.1 h₀).1
      exact ⟨head, by simp [hlt], hentry rfl⟩
    · exact ⟨head₀, by simp [hi, h₀], hbelow⟩

theorem flow_of_none {changed : Bool} (h : heads[succ.index]? = some none) :
    flow tail (heads, changed) succ = (heads.setIfInBounds succ.index (some tail), true) := by
  simp [flow, h]

theorem flow_of_some {changed : Bool} {head : AvailabilityMap}
    (h : heads[succ.index]? = some (some head)) :
    flow tail (heads, changed) succ =
      (heads.setIfInBounds succ.index (some (head.merge tail)), changed ||
        head.merge tail != head) := by
  simp [flow, h]

/-- The head of a successor takes in what comes to it, or has it already. -/
theorem flow_cases (h : Good g s.1) (htail : tail.Fits g) (hsucc : succ.index < g.blocks.size) :
    Good g (flow tail s succ).1 ∧ (GivesUp g s (flow tail s succ) ∨
      flow tail s succ = s ∧ ∃ head, s.1[succ.index]? = some (some head) ∧
      head.merge tail = head) := by
  obtain ⟨heads, changed⟩ := s
  have hlt : succ.index < heads.size := by rw [h.size]; exact hsucc
  obtain ⟨old, hold⟩ : ∃ old, heads[succ.index]? = some old := ⟨_, Array.getElem?_eq_getElem hlt⟩
  have hroom (new : Option AvailabilityMap) : headsRoom g (heads.setIfInBounds succ.index new)
    + headRoom g old =
      headsRoom g heads + headRoom g new := by
    simp only [headsRoom, Array.toList_setIfInBounds]
    exact sum_map_set (by simpa using hold) new
  obtain ⟨head₀, h₀, hbelow⟩ := h.entry
  cases old with
  | none =>
    rw [flow_of_none hold]
    refine ⟨h.set htail fun hzero => ?_, .inl ⟨rfl, ?_⟩⟩
    · rw [hzero, h₀] at hold
      cases hold
    · have hroom := hroom (some tail)
      have htail := htail.room_lt
      simp only [headRoom] at hroom
      dsimp only
      omega
  | some head =>
    rw [flow_of_some hold]
    refine ⟨h.set ((h.fits _ _ hold).merge tail) fun hzero => ?_, ?_⟩
    · rw [hzero, h₀] at hold
      cases hold
      exact (merge_below _ tail).1.trans hbelow
    · obtain hmerge | hmerge := merge_room head tail
      · refine .inr ⟨?_, head, hold, hmerge⟩
        rw [hmerge, bne_self_eq_false, Bool.or_false, Prod.mk.injEq]
        refine ⟨Array.ext_getElem? fun i => ?_, rfl⟩
        rw [Array.getElem?_setIfInBounds]
        split
        · rename_i hi
          subst hi
          exact hold.symm
        · rfl
      · have hroom := hroom (some (head.merge tail))
        have hne : head.merge tail ≠ head := fun heq => by simp [heq] at hmerge
        refine .inl ⟨by simp [hne], ?_⟩
        simp only [headRoom] at hroom
        dsimp only
        omega

/-! ## One block and one round -/

theorem GivesUp.trans {s'' : Array (Option AvailabilityMap) × Bool} (h₁ : GivesUp g s s')
    (h₂ : GivesUp g s' s'') : GivesUp g s s'' :=
  ⟨h₂.1, Nat.lt_trans h₂.2 h₁.2⟩

/-- The heads of all successors have taken in what comes from the end of the block. -/
def StableAt (g : Graph) (heads : Array (Option AvailabilityMap)) (b : BlockIndex) : Prop :=
  ∀ head, heads[b.index]? = some (some head) → ∃ blk tail, g.block b = .ok blk ∧
    head.executeAll g blk.nodes.toList = .ok tail ∧
    ∀ succ ∈ g.successors b, ∃ head', heads[succ.index]? = some (some head') ∧
    head'.merge tail = head'

theorem foldl_flow_cases {succs : List BlockIndex} (h : Good g s.1) (htail : tail.Fits g)
    (hsuccs : ∀ succ ∈ succs, succ.index < g.blocks.size) :
    Good g (succs.foldl (flow tail) s).1 ∧ (GivesUp g s (succs.foldl (flow tail) s) ∨
      succs.foldl (flow tail) s = s ∧ ∀ succ ∈ succs, ∃ head, s.1[succ.index]? = some (some head) ∧
      head.merge tail = head) := by
  induction succs generalizing s with
  | nil => exact ⟨h, .inr ⟨rfl, by simp⟩⟩
  | cons succ succs ih =>
    rw [List.forall_mem_cons] at hsuccs
    rw [List.foldl_cons]
    obtain ⟨h₁, hstep⟩ := flow_cases (s := s) h htail hsuccs.1
    obtain ⟨h₂, hrest⟩ := ih h₁ hsuccs.2
    refine ⟨h₂, ?_⟩
    rcases hstep with hstep | ⟨hstep, hhead⟩ <;> rcases hrest with hrest | ⟨hrest, hheads⟩
    · exact .inl (hstep.trans hrest)
    · exact .inl (by rw [hrest]; exact hstep)
    · exact .inl (by rw [hstep] at hrest ⊢; exact hrest)
    · rw [hstep] at hrest hheads ⊢
      exact .inr ⟨hrest, List.forall_mem_cons.2 ⟨hhead, hheads⟩⟩

/-- Some block lists a node that spreads arguments too far. -/
def SpreadsTooFar (g : Graph) : Prop :=
  ∃ blk ∈ g.blocks, ∃ id ∈ blk.nodes, ∃ node, g.node id = .ok node ∧ Overflows node

theorem flowBlock_of_some {head : AvailabilityMap} {blk : BasicBlock} (hg : g.SuccessorsExist)
    (hhead : s.1[b.index]? = some (some head)) (hblk : g.block b = .ok blk) :
    flowBlock g s b = (head.executeAll g blk.nodes.toList >>=
      fun tail => .ok ((g.successors b).foldl (flow tail) s)) := by
  have hsuccs : ((g.successors b).any fun t => decide (g.blocks.size ≤ t.index)) = false := by
    rw [List.any_eq_false]
    intro t ht
    have hlt := hg b t ht
    simp only [decide_eq_true_eq]
    omega
  have hjoin : s.1[b.index]?.join = some head := by rw [hhead]; rfl
  unfold flowBlock
  rw [hjoin]
  dsimp only
  rw [hblk, hsuccs]
  rfl

/-- Going over a block gives something up or changes nothing. -/
theorem flowBlock_cases (hg : g.validate = .ok ()) (h : Good g s.1) (hb : b.index < g.blocks.size) :
    (∃ s', flowBlock g s b = .ok s' ∧ Good g s'.1 ∧ (GivesUp g s s' ∨ s' = s ∧ StableAt g s.1 b)) ∨
      flowBlock g s b = .error .overflow ∧ SpreadsTooFar g := by
  have hexist := Graph.validate_successorsExist hg
  obtain ⟨blk, hblk⟩ : ∃ blk, g.block? b = some blk := ⟨_, Array.getElem?_eq_getElem hb⟩
  have hmem := Array.mem_of_getElem? hblk
  have hlisted := ((Graph.validate_ok hg).2 blk hmem).listed
  replace hblk : g.block b = .ok blk := Fault.ofOption_eq_ok.2 hblk
  cases hold : s.1[b.index]?.join with
  | none =>
    refine .inl ⟨s, by simp [flowBlock, hold]; rfl, h, .inr ⟨rfl, fun head hhead => ?_⟩⟩
    rw [hhead] at hold
    cases hold
  | some head =>
    have hhead : s.1[b.index]? = some (some head) := Option.join_eq_some_iff.1 hold
    rw [flowBlock_of_some hexist hhead hblk]
    cases htail : head.executeAll g blk.nodes.toList with
    | error f =>
      obtain ⟨rfl, id, hid, hnode⟩ :=
        executeAll_error (fun id hid => hlisted id (by simpa using hid)) htail
      exact .inr ⟨rfl, blk, hmem, id, by simpa using hid, hnode⟩
    | ok tail =>
      have htail' := (h.fits _ _ hhead).executeAll htail
      obtain ⟨hgood, hcases⟩ := foldl_flow_cases h htail' (hexist b)
      refine .inl ⟨_, rfl, hgood, hcases.imp_right fun hsame => ⟨hsame.1, fun head' hhead' => ?_⟩⟩
      cases hhead.symm.trans hhead'
      exact ⟨blk, tail, hblk, htail, hsame.2⟩

/-- Going over all blocks gives something up or changes nothing. -/
theorem foldlM_flowBlock_cases (hg : g.validate = .ok ()) {order : List BlockIndex} (h : Good g s.1)
    (horder : ∀ b ∈ order, b.index < g.blocks.size) :
    (∃ s', order.foldlM (flowBlock g) s = .ok s' ∧ Good g s'.1 ∧
      (GivesUp g s s' ∨ s' = s ∧ ∀ b ∈ order, StableAt g s.1 b)) ∨
      order.foldlM (flowBlock g) s = .error .overflow ∧ SpreadsTooFar g := by
  induction order generalizing s with
  | nil => exact .inl ⟨s, rfl, h, .inr ⟨rfl, by simp⟩⟩
  | cons b order ih =>
    rw [List.forall_mem_cons] at horder
    rw [List.foldlM_cons]
    obtain ⟨s₁, hs₁, h₁, hstep⟩ | ⟨herror, hfar⟩ := flowBlock_cases hg h horder.1
    · rw [hs₁]
      obtain ⟨s₂, hs₂, h₂, hrest⟩ | ⟨herror, hfar⟩ := ih h₁ horder.2
      · refine .inl ⟨s₂, hs₂, h₂, ?_⟩
        rcases hstep with hstep | ⟨rfl, hstable⟩ <;> rcases hrest with hrest | ⟨rfl, hstables⟩
        · exact .inl (hstep.trans hrest)
        · exact .inl hstep
        · exact .inl hrest
        · exact .inr ⟨rfl, List.forall_mem_cons.2 ⟨hstable, hstables⟩⟩
      · exact .inr ⟨herror, hfar⟩
    · rw [herror]
      exact .inr ⟨rfl, hfar⟩

/-- With more rounds than there is to give up, the last round changes nothing. -/
theorem settle_cases (hg : g.validate = .ok ()) {order : List BlockIndex} {rounds : Nat}
    (h : Good g heads) (horder : ∀ b ∈ order, b.index < g.blocks.size)
    (hrounds : headsRoom g heads < rounds) :
    (∃ heads', settle g order rounds heads = .ok heads' ∧ order.foldlM (flowBlock g) (heads',
      false) = .ok (heads', false) ∧
        Good g heads' ∧ ∀ b ∈ order, StableAt g heads' b) ∨
      settle g order rounds heads = .error .overflow ∧ SpreadsTooFar g := by
  induction rounds generalizing heads with
  | zero => omega
  | succ rounds ih =>
    rw [settle]
    obtain ⟨⟨heads₁, changed⟩, hround, h₁, hcases⟩ | ⟨herror, hfar⟩ :=
      foldlM_flowBlock_cases (s := (heads, false)) hg h horder
    · rw [hround]
      rcases hcases with ⟨hchanged, hless⟩ | ⟨hsame, hstable⟩
      · obtain rfl : changed = true := hchanged
        exact ih h₁ (by dsimp only at hless; omega)
      · cases hsame
        exact .inl ⟨heads, rfl, hround, h, hstable⟩
    · rw [herror]
      exact .inr ⟨rfl, hfar⟩

/-- Nothing is known at the start but the state at the entry. -/
theorem good_initial (hne : 0 < g.blocks.size) :
    Good g ((Array.replicate g.blocks.size none).setIfInBounds 0 (some (atEntry g))) := by
  refine ⟨by simp, fun i head hi => ?_, atEntry g, by simp [hne], .refl _⟩
  rw [Array.getElem?_setIfInBounds] at hi
  split at hi
  · split at hi
    · cases hi
      exact fits_atEntry g
    · cases hi
  · simp [Array.getElem?_replicate] at hi

theorem Good.room_lt_maxRounds (h : Good g heads) : headsRoom g heads < maxRounds g := by
  calc headsRoom g heads ≤ roomOf g * g.blocks.size := h.room_le
    _ ≤ (1 + 4 * (g.numArguments + g.numLocals + g.nodes.size)) * g.blocks.size :=
      Nat.mul_le_mul_right _ (by unfold roomOf; omega)
    _ < maxRounds g := by rw [maxRounds, Nat.mul_comm]; exact Nat.lt_succ_self _

/-- The states at the block heads are computed until they are stable, unless arguments are spread
too far. -/
theorem blockHeads_cases (hg : g.validate = .ok ()) :
    (∃ heads, blockHeads g = .ok heads ∧ g.reversePostorder.foldlM (flowBlock g)
      (heads, false) = .ok (heads, false) ∧
        Good g heads ∧ ∀ b ∈ g.reversePostorder, StableAt g heads b) ∨
      blockHeads g = .error .overflow ∧ SpreadsTooFar g := by
  have hordered := Graph.reversePostorder_ordered (Graph.validate_successorsExist hg)
    (Graph.validate_ok hg).1
  have hgood := good_initial (Graph.validate_ok hg).1
  exact settle_cases hg hgood hordered.range hgood.room_lt_maxRounds

/-! ## Any graph -/

/-- The states at the heads are those of the graph. -/
def AllFit (g : Graph) (heads : Array (Option AvailabilityMap)) : Prop :=
  ∀ (i : Nat) head, heads[i]? = some (some head) → head.Fits g

theorem AllFit.set {head : AvailabilityMap} (h : AllFit g heads) (hfits : head.Fits g) (i : Nat) :
    AllFit g (heads.setIfInBounds i (some head)) := fun j head' hj => by
  rw [Array.getElem?_setIfInBounds] at hj
  split at hj
  · split at hj
    · cases hj
      exact hfits
    · cases hj
  · exact h j head' hj

theorem AllFit.flow (h : AllFit g s.1) (htail : tail.Fits g) (succ : BlockIndex) :
    AllFit g (flow tail s succ).1 := by
  unfold AvailabilityMap.flow
  dsimp only
  split
  · exact h.set htail _
  · rename_i head hhead
    exact h.set ((h _ head (Option.join_eq_some_iff.1 hhead)).merge tail) _

theorem AllFit.flowAll (h : AllFit g s.1) (htail : tail.Fits g) (succs : List BlockIndex) :
    AllFit g (succs.foldl (AvailabilityMap.flow tail) s).1 := by
  induction succs generalizing s with
  | nil => exact h
  | cons succ succs ih => exact ih (h.flow htail succ)

theorem AllFit.flowBlock (h : AllFit g s.1) (hs : flowBlock g s b = .ok s') : AllFit g s'.1 := by
  unfold AvailabilityMap.flowBlock at hs
  split at hs
  · cases hs
    exact h
  · rename_i head hhead
    obtain ⟨blk, -, hs⟩ := bind_eq_ok_iff.1 hs
    obtain ⟨tail, htail, hs⟩ := bind_eq_ok_iff.1 hs
    dsimp only at hs
    split at hs
    · cases hs
    · cases hs
      exact h.flowAll ((h _ head (Option.join_eq_some_iff.1 hhead)).executeAll htail) _

theorem AllFit.round {order : List BlockIndex} (h : AllFit g s.1)
    (hs : order.foldlM (AvailabilityMap.flowBlock g) s = .ok s') :
    AllFit g s'.1 := by
  induction order generalizing s with
  | nil =>
    cases hs
    exact h
  | cons b order ih =>
    rw [List.foldlM_cons] at hs
    obtain ⟨s₁, h₁, hs⟩ := bind_eq_ok_iff.1 hs
    exact ih (h.flowBlock h₁) hs

theorem AllFit.settle {order : List BlockIndex} {rounds : Nat} (h : AllFit g heads)
    (hs : settle g order rounds heads = .ok heads') :
    AllFit g heads' := by
  induction rounds generalizing heads with
  | zero =>
    cases hs
    exact h
  | succ rounds ih =>
    rw [AvailabilityMap.settle] at hs
    obtain ⟨⟨heads₁, changed⟩, h₁, hs⟩ := bind_eq_ok_iff.1 hs
    have hfit := AllFit.round (s := (heads, false)) h h₁
    dsimp only at hs
    split at hs
    · exact ih hfit hs
    · cases hs
      exact hfit

theorem allFit_blockHeads (h : blockHeads g = .ok heads) : AllFit g heads := by
  refine AllFit.settle (AllFit.set (fun i head hi => ?_) (fits_atEntry g) 0) h
  simp [Array.getElem?_replicate] at hi

theorem fits_empty (g : Graph) : (empty g).Fits g :=
  ⟨by
    simp [empty, Operands.replicate], by simp [empty, Operands.replicate], .nil, List.nil_subset _⟩

/-- The state at the head of a block is one of the graph, whether control reaches the block or not.
-/
theorem AllFit.headOrEmpty (h : AllFit g heads) (b : BlockIndex) :
    (headOrEmpty g heads b).Fits g := by
  unfold AvailabilityMap.headOrEmpty
  cases hhead : heads[b.index]?.join with
  | none => exact fits_empty g
  | some head => exact h _ head (Option.join_eq_some_iff.1 hhead)

end AvailabilityMap

end SpecJit
