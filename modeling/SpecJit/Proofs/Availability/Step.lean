import SpecJit.Availability
import SpecJit.Proofs.Execution
import SpecJit.Proofs.Graph.Valid
import SpecJit.Proofs.Tables

/-!
# What one node does to the availability of a variable

`Node.Sets` says which nodes give a variable a new value, from which node, and in which slot of the
frame they leave it. Executing a node makes the availability of a variable what the node sets it to,
gives up its slot if the node kills it, and keeps it otherwise (`AvailabilityMap.execute_get`).
Merging only gives up what is available (`Availability.Below`).
-/

namespace SpecJit

theorem Fault.ofOption_eq_ok {α : Type} {x : Option α} {a : α} :
    ofOption x = .ok a ↔ x = some a := by
  cases x <;> simp [ofOption]

theorem Fault.bind_error {α β : Type} {x : Except Fault α} {f : α → Except Fault β} {e : Fault}
    (h : x >>= f = .error e) :
    x = .error e ∨ ∃ a, x = .ok a ∧ f a = .error e := by
  cases x with
  | error e' =>
    cases h
    exact .inl rfl
  | ok a => exact .inr ⟨a, rfl, h⟩

/-! ## Nodes that set a variable -/

/-- The variable is one of those that arguments are spread over. -/
def LoadVarargsData.covers (d : LoadVarargsData) (v : Operand) : Bool :=
  match d.start, v with
  | .loc first, .loc k => first ≤ k && k < first + d.limit
  | _, _ => false

/-- The node gives the variable a new value: that of the node `source`, if it tells one, and left in
a slot of the frame, if it tells one. -/
inductive Node.Sets (n : Node) (v : Operand) : Option NodeId → Option FlushedAt → Prop
  | setArgument : n.op = .setArgument v → Sets n v none (some ⟨v, .jsValue⟩)
  | movHint {e : Edge} : n.op = .movHint v → n.child 0 = .ok e → Sets n v (some e.node) none
  | zombieHint : n.op = .zombieHint v → Sets n v none (some ⟨v, .dead⟩)
  | putStack {d : StackAccess} {e : Edge} : n.op = .putStack d → d.operand = v → n.child 0 = .ok e →
      Sets n v (some e.node) (some ⟨d.slot, d.format⟩)
  | count {d : LoadVarargsData} : n.op = .loadVarargs d ∨ n.op = .forwardVarargs d → d.count = v →
    d.covers v = false →
      Sets n v none (some ⟨v, .int32⟩)
  | spread {d : LoadVarargsData} : n.op = .loadVarargs d ∨ n.op = .forwardVarargs d →
    d.covers v = true →
      Sets n v none (some ⟨v, .jsValue⟩)

/-- The operation is one that gives the variable a new value. -/
def Op.writes (v : Operand) : Op → Prop
  | .setArgument w | .movHint w | .zombieHint w => w = v
  | .putStack d => d.operand = v
  | .loadVarargs d | .forwardVarargs d => d.count = v ∨ d.covers v = true
  | _ => False

theorem Node.Sets.writes {n : Node} {v : Operand} {source : Option NodeId} {slot : Option FlushedAt}
    (h : n.Sets v source slot) :
    n.op.writes v := by
  cases h with
  | setArgument hop | movHint hop | zombieHint hop =>
    rw [hop]
    exact rfl
  | putStack hop hv =>
    rw [hop]
    exact hv
  | count hop hv =>
    rcases hop with hop | hop <;> rw [hop]
    all_goals exact .inl hv
  | spread hop hv =>
    rcases hop with hop | hop <;> rw [hop]
    all_goals exact .inr hv

/-- The node leaves the variable alone. -/
def Node.Keeps (n : Node) (v : Operand) : Prop :=
  (∀ source slot, ¬ n.Sets v source slot) ∧ n.op ≠ .killStack v

theorem Node.keeps_of_op {n : Node} {v : Operand} {op : Op} (hop : n.op = op)
    (hwrites : ¬ op.writes v) (hkill : op ≠ .killStack v) :
    n.Keeps v :=
  ⟨fun _ _ hs => hwrites (hop ▸ hs.writes), hop ▸ hkill⟩

namespace AvailabilityMap

variable {g : Graph} {m m' : AvailabilityMap} {id : NodeId} {node : Node} {v w : Operand}
  {a : Availability}

/-! ## Entries -/

/-- The frame has the variable. -/
def InFrame (m : AvailabilityMap) (v : Operand) : Prop := (m.operands.get? v).isSome = true

theorem get_of_not_inFrame (h : ¬ m.InFrame v) : m.get v = .unavailable := by
  rw [InFrame, Option.not_isSome_iff_eq_none] at h
  simp [get, h]

theorem inFrame_setVariable : (m.setVariable v a).InFrame w ↔ m.InFrame w := by
  simp only [InFrame, setVariable, Operands.get?_set]
  split <;> simp

theorem get_setVariable_self (h : m.InFrame v) : (m.setVariable v a).get v = a := by
  obtain ⟨b, hb⟩ := Option.isSome_iff_exists.1 h
  simp [get, setVariable, Operands.get?_set, hb]

theorem get_setVariable_ne (h : v ≠ w) : (m.setVariable v a).get w = m.get w := by
  simp [get, setVariable, Operands.get?_set, h]

theorem inFrame_foldl_slots (l : List Operand) :
    (l.foldl (fun m v => m.setVariable v (.inSlot v .jsValue none)) m).InFrame w ↔ m.InFrame w := by
  induction l generalizing m with
  | nil => rfl
  | cons v l ih => rw [List.foldl_cons, ih, inFrame_setVariable]

theorem get_foldl_slots (l : List Operand) (h : m.InFrame w) :
    (l.foldl (fun m v => m.setVariable v (.inSlot v .jsValue none)) m).get w =
      if w ∈ l then .inSlot w .jsValue none else m.get w := by
  induction l generalizing m with
  | nil => rfl
  | cons v l ih =>
    rw [List.foldl_cons, ih (inFrame_setVariable.2 h)]
    by_cases hw : w ∈ l
    · simp [hw]
    · by_cases hv : v = w
      · subst hv
        simp [hw, get_setVariable_self h]
      · simp [hw, Ne.symm hv, get_setVariable_ne hv]

/-! ## One node -/

theorem get_setVariable_cases :
    (m.setVariable v a).get v = a ∨ (m.setVariable v a).get v = .unavailable := by
  by_cases h : m.InFrame v
  · exact .inl (get_setVariable_self h)
  · exact .inr (get_of_not_inFrame (fun h' => h (inFrame_setVariable.1 h')))

/-- What executing a node can do to the entry of a variable. -/
inductive Effect (node : Node) (v : Operand) (before after : Availability) : Prop
  | sets {source : Option NodeId} {slot : Option FlushedAt} : node.Sets v source slot →
      after = { flushed := slot, node := source } ∨ after = .unavailable →
      Effect node v before after
  | kills : node.op = .killStack v → (∀ source slot, ¬ node.Sets v source slot) →
    after = { before with flushed := none } →
      Effect node v before after
  | keeps : node.Keeps v → after = before → Effect node v before after

/-- Where the node of an entry comes from. -/
theorem Effect.node_origin {before after : Availability} {n : NodeId}
    (h : Effect node v before after) (hn : after.node = some n) :
    (∃ slot, node.Sets v (some n) slot) ∨ before.node = some n ∧ ∀ source slot,
      ¬ node.Sets v source slot := by
  cases h with
  | sets hset hafter =>
    rcases hafter with rfl | rfl
    · cases hn
      exact .inl ⟨_, hset⟩
    · cases hn
  | kills _ hset hafter =>
    subst hafter
    exact .inr ⟨hn, hset⟩
  | keeps hkeeps hafter =>
    subst hafter
    exact .inr ⟨hn, hkeeps.1⟩

/-- Where the slot of an entry comes from. -/
theorem Effect.slot_origin {before after : Availability} {f : FlushedAt}
    (h : Effect node v before after) (hf : after.flushed = some f) :
    (∃ source, node.Sets v source (some f)) ∨ before.flushed = some f ∧ node.Keeps v := by
  cases h with
  | sets hset hafter =>
    rcases hafter with rfl | rfl
    · cases hf
      exact .inl ⟨_, hset⟩
    · cases hf
  | kills _ _ hafter =>
    subst hafter
    cases hf
  | keeps hkeeps hafter =>
    subst hafter
    exact .inr ⟨hf, hkeeps⟩

theorem Effect.of_setVariable {source : Option NodeId} {slot : Option FlushedAt}
    (hset : node.Sets w source slot) (hkeep : v ≠ w → node.Keeps v) :
    Effect node v (m.get v) ((m.setVariable w { flushed := slot, node := source }).get v) := by
  by_cases hvw : v = w
  · subst hvw
    exact .sets hset get_setVariable_cases
  · exact .keeps (hkeep hvw) (get_setVariable_ne (Ne.symm hvw))

theorem mem_spreadLocals {d : LoadVarargsData} {first : Nat} (hstart : d.start = .loc first)
    (h : m.InFrame v) :
    v ∈ spreadLocals first d.limit m.operands.locals.size ↔ d.covers v = true := by
  cases v with
  | arg k => simp [spreadLocals, LoadVarargsData.covers, hstart]
  | loc k =>
    have hk : k < m.operands.locals.size := by simpa [InFrame, Operands.get?] using h
    simp only [spreadLocals, LoadVarargsData.covers, hstart, List.mem_map, List.mem_range,
      Operand.loc.injEq, Bool.and_eq_true, decide_eq_true_eq]
    constructor
    · rintro ⟨i, hi, rfl⟩
      omega
    · intro hcovers
      exact ⟨k - first, by omega, by omega⟩

/-- Spread arguments go to their variables, and their number to another one. -/
theorem spread_eq {d : LoadVarargsData} (h : m.spread d = .ok m') (hv : m.InFrame v) :
    m'.get v = if d.covers v then .inSlot v .jsValue none else if d.count = v then .inSlot v .int32
      none else m.get v := by
  have hcount : (m.setVariable d.count (.inSlot d.count .int32 none)).get v =
      if d.count = v then .inSlot v .int32 none else m.get v := by
    split
    · rename_i heq
      subst heq
      exact get_setVariable_self hv
    · rename_i hne
      exact get_setVariable_ne hne
  have hv₁ := (inFrame_setVariable (v := d.count) (a := .inSlot d.count .int32 none)).2 hv
  unfold spread at h
  dsimp only at h
  generalize m.setVariable d.count (.inSlot d.count .int32 none) = m₁ at h hcount hv₁
  split at h
  · rename_i hstart
    cases h
    simp [hcount, LoadVarargsData.covers, hstart]
  · rename_i first hstart
    split at h
    · cases h
    · cases h
      rw [get_foldl_slots _ hv₁, hcount]
      simp [mem_spreadLocals hstart hv₁]

theorem inFrame_spread {d : LoadVarargsData} (h : m.spread d = .ok m') :
    m'.InFrame v ↔ m.InFrame v := by
  unfold spread at h
  dsimp only at h
  split at h
  · cases h
    exact inFrame_setVariable
  · split at h
    · cases h
    · cases h
      rw [inFrame_foldl_slots, inFrame_setVariable]

theorem Effect.of_spread {d : LoadVarargsData} (h : m.spread d = .ok m')
    (hop : node.op = .loadVarargs d ∨ node.op = .forwardVarargs d) :
    Effect node v (m.get v) (m'.get v) := by
  have hkeeps (hcovers : d.covers v = false) (hcount : d.count ≠ v) : node.Keeps v := by
    have hnot : ¬ (d.count = v ∨ d.covers v = true) := by simp [hcovers, hcount]
    rcases hop with hop | hop
    · exact Node.keeps_of_op hop hnot (by simp)
    · exact Node.keeps_of_op hop hnot (by simp)
  have hget (a : Availability) (ha : m.InFrame v → m'.get v = a) : m'.get v = a ∨
    m'.get v = .unavailable := by
    by_cases hv : m.InFrame v
    · exact .inl (ha hv)
    · exact .inr (get_of_not_inFrame fun hv' => hv ((inFrame_spread h).1 hv'))
  by_cases hcovers : d.covers v = true
  · exact .sets (.spread hop hcovers) (hget _ fun hv => by rw [spread_eq h hv, if_pos hcovers]; rfl)
  · rw [Bool.not_eq_true] at hcovers
    by_cases hcount : d.count = v
    · exact .sets (.count hop hcount hcovers)
        (hget _ fun hv => by simp [spread_eq h hv, hcovers, hcount, Availability.inSlot])
    · refine .keeps (hkeeps hcovers hcount) ?_
      by_cases hv : m.InFrame v
      · simp [spread_eq h hv, hcovers, hcount]
      · rw [get_of_not_inFrame hv, get_of_not_inFrame fun hv' => hv ((inFrame_spread h).1 hv')]

/-- Executing a node sets a variable, kills its slot or keeps it. -/
theorem execute_get (h : m.execute g id = .ok m') (hn : g.node id = .ok node) (v : Operand) :
    Effect node v (m.get v) (m'.get v) := by
  unfold execute at h
  obtain ⟨node', hn', h⟩ := bind_eq_ok_iff.1 h
  cases hn.symm.trans hn'
  split at h
  case h_1 w hop =>
    cases h
    exact .of_setVariable (.setArgument hop) fun hvw => Node.keeps_of_op hop (Ne.symm hvw) (by simp)
  case h_2 w hop =>
    obtain ⟨e, he, h⟩ := bind_eq_ok_iff.1 h
    cases h
    exact .of_setVariable (.movHint hop he) fun hvw => Node.keeps_of_op hop (Ne.symm hvw) (by simp)
  case h_3 w hop =>
    cases h
    exact .of_setVariable (.zombieHint hop) fun hvw => Node.keeps_of_op hop (Ne.symm hvw) (by simp)
  case h_4 d hop =>
    obtain ⟨e, he, h⟩ := bind_eq_ok_iff.1 h
    cases h
    exact .of_setVariable (.putStack hop rfl he) fun hvw => Node.keeps_of_op hop (Ne.symm hvw)
      (by simp)
  case h_5 w hop =>
    have hset (source : Option NodeId) (slot : Option FlushedAt) : ¬ node.Sets v source slot :=
      fun hs => by
      have hwrites := hs.writes
      rw [hop] at hwrites
      exact hwrites
    by_cases hvw : v = w
    · subst hvw
      refine .kills hop hset ?_
      split at h
      · rename_i a ha
        cases h
        rw [get_setVariable_self (by simp [InFrame, ha])]
        simp [get, ha]
      · rename_i hnone
        cases h
        simp [get, hnone, Availability.unavailable]
    · refine .keeps ⟨hset, by simp [hop, Ne.symm hvw]⟩ ?_
      split at h
      · cases h
        exact get_setVariable_ne (Ne.symm hvw)
      · cases h
        rfl
  case h_6 location hop =>
    obtain ⟨e, -, h⟩ := bind_eq_ok_iff.1 h
    obtain ⟨e', -, h⟩ := bind_eq_ok_iff.1 h
    cases h
    exact .keeps (Node.keeps_of_op hop not_false (by simp)) rfl
  case h_7 d hop => exact .of_spread h (.inl hop)
  case h_8 d hop => exact .of_spread h (.inr hop)
  case h_9 hop =>
    cases h
    exact .keeps (Node.keeps_of_op hop not_false (by simp)) rfl
  case h_10 =>
    cases h
    exact .keeps ⟨fun _ _ hs => by cases hs <;> simp_all, by simp_all⟩ rfl

end AvailabilityMap

/-! ## Merging -/

/-- Whatever is available in the first way is available in the second way, too. -/
structure Availability.Below (a b : Availability) : Prop where
  node : ∀ n, a.node = some n → b.node = some n
  flushed : ∀ f, a.flushed = some f → b.flushed = some f

namespace Availability

variable {a b c : Availability}

theorem Below.refl (a : Availability) : a.Below a := ⟨fun _ => id, fun _ => id⟩

theorem Below.trans (h₁ : a.Below b) (h₂ : b.Below c) : a.Below c :=
  ⟨fun n hn => h₂.node n (h₁.node n hn), fun f hf => h₂.flushed f (h₁.flushed f hf)⟩

theorem unavailable_below (a : Availability) : unavailable.Below a where
  node _ h := by cases h
  flushed _ h := by cases h

theorem merge_below_left (a b : Availability) : (a.merge b).Below a := by
  refine ⟨fun n hn => ?_, fun f hf => ?_⟩
  · simp only [merge] at hn
    split at hn
    · exact hn
    · cases hn
  · simp only [merge] at hf
    split at hf
    · exact hf
    · cases hf

theorem merge_below_right (a b : Availability) : (a.merge b).Below b := by
  refine ⟨fun n hn => ?_, fun f hf => ?_⟩
  · simp only [merge] at hn
    split at hn
    · rename_i heq
      exact heq ▸ hn
    · cases hn
  · simp only [merge] at hf
    split at hf
    · rename_i heq
      exact heq ▸ hf
    · cases hf

end Availability

namespace AvailabilityMap

variable {m m' m'' other : AvailabilityMap} {v : Operand}

/-- Whatever is available in the first state is available in the second one, too. -/
def Below (m m' : AvailabilityMap) : Prop := ∀ v, (m.get v).Below (m'.get v)

theorem Below.refl (m : AvailabilityMap) : m.Below m := fun _ => .refl _

theorem Below.trans (h₁ : m.Below m') (h₂ : m'.Below m'') : m.Below m'' :=
  fun v => (h₁ v).trans (h₂ v)

theorem inFrame_merge : (m.merge other).InFrame v ↔ m.InFrame v := by
  simp [InFrame, merge, Operands.get?_map]

theorem get_merge (h : m.InFrame v) : (m.merge other).get v = (m.get v).merge (other.get v) := by
  obtain ⟨a, ha⟩ := Option.isSome_iff_exists.1 h
  simp [get, merge, Operands.get?_map, ha]

theorem merge_below (m other : AvailabilityMap) :
    (m.merge other).Below m ∧ (m.merge other).Below other := by
  refine ⟨fun v => ?_, fun v => ?_⟩ <;> by_cases h : m.InFrame v
  · rw [get_merge h]
    exact Availability.merge_below_left ..
  · rw [get_of_not_inFrame (fun h' => h (inFrame_merge.1 h'))]
    exact Availability.unavailable_below _
  · rw [get_merge h]
    exact Availability.merge_below_right ..
  · rw [get_of_not_inFrame (fun h' => h (inFrame_merge.1 h'))]
    exact Availability.unavailable_below _

end AvailabilityMap

end SpecJit
