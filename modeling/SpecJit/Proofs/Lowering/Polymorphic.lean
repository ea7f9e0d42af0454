import SpecJit.Proofs.Lowering.Butterflies
import SpecJit.Proofs.Lowering.Dispatch
import SpecJit.Proofs.Lowering.Transitions
import SpecJit.Proofs.Results
import SpecJit.Proofs.StructureSet

/-!
# Accesses by several structures

A polymorphic read or write tells its cases apart by the structure of the cell. Cases that are
impossible according to the facts are left out, and the last one is not tested if the cases cover
what is possible. All the same the first case applies that lists the structure of the cell, and the
code leaves exactly if there is none (`polymorphic_access`). A write that changes the structure of
the cell makes the facts untrue that other nodes have of it (`multi_put_fact_iff`).
-/

namespace SpecJit

open Lir

theorem Lir.Emit.int64_yieldsIn {σ : Type} {m : Machine σ} {L : Set Word} {b : Builder}
    {c : Config σ} (n : Nat) :
    (Emit.int64 n).YieldsIn m L b c .i64 (UInt64.ofNat n) := by
  refine (Emit.iconst_yieldsIn _).congr ?_
  rw [Ty.normalize_i64, toUInt64_ofInt, ← UInt64.toNat_inj, toNat_ofInt, UInt64.toNat_ofNat']
  omega

/-! ## What is known of a structure -/

/-- The structure ids of a set have 32 bits. -/
def StructureSet.Fits (set : StructureSet) : Prop := ∀ id ∈ set.ids, id.index < 0x100000000

section Facts

variable {α : Type} {known : StructureFact} {structures : α → StructureSet} {cases : List α}
  {id : StructureId}

/-- Of the structures that are possible, the first case that lists one is not left out. -/
theorem find?_possibleCases (h : Lowering.structurePossible known id = true) :
    (Lowering.possibleCases known structures cases).find?
      (fun k => decide (id ∈ (structures k).ids)) =
      cases.find? fun k => decide (id ∈ (structures k).ids) := by
  rw [Lowering.possibleCases, List.find?_filter]
  congr 1
  funext k
  by_cases hid : id ∈ (structures k).ids
  · have hany : (structures k).ids.any (Lowering.structurePossible known) = true :=
      List.any_eq_true.2 ⟨id, hid, h⟩
    simp [hid, hany]
  · simp [hid]

/-- Sets that are collected in a fold. -/
theorem mem_foldl_structures {step : StructureSet → α → StructureSet} {P : α → Prop}
    (hstep : ∀ all k, id ∈ (step all k).ids ↔ id ∈ all.ids ∨ P k) (all : StructureSet) :
    id ∈ (cases.foldl step all).ids ↔ id ∈ all.ids ∨ ∃ k ∈ cases, P k := by
  induction cases generalizing all with
  | nil => simp
  | cons k cases ih => rw [List.foldl_cons, ih, hstep]; simp [or_assoc]

/-- If the cases cover what is possible, one of them lists the structure. -/
theorem exists_of_coveredBy (h : Lowering.structurePossible known id = true)
    (hcovered : Lowering.coveredBy known structures cases = true) :
    ∃ k ∈ cases, id ∈ (structures k).ids := by
  cases known with
  | top => cases hcovered
  | known set =>
    have hall := List.all_eq_true.1 hcovered id (StructureSet.mem_of_contains h)
    have hmem := (mem_foldl_structures (P := fun k => id ∈ (structures k).ids)
      (fun _ k => StructureSet.mem_merge (t := structures k)) {}).1
      (StructureSet.mem_of_contains hall)
    exact hmem.resolve_left (by simp)

end Facts

/-! ## Cases -/

/-- What the offset of a property counts from: the cell, or its butterfly. -/
def ObjectLayout.slotOrigin (layout : ObjectLayout) (memory : Memory) (cell : Word)
    (offset : PropertyOffset) : Word :=
  if offset.isInline then cell else memory.read (Butterfly.fieldAddress layout cell) 8

/-- The word that a case of a polymorphic read gives. -/
def ReadMethod.Gives (layout : ObjectLayout) (memory : Memory) (cell : Word) :
    ReadMethod → Word → Prop
  | .load offset, w => ∃ k, layout.propertyOffset offset = .ok k ∧
      w = memory.read (Machine.address (layout.slotOrigin memory cell offset) (Int32.ofInt k)) 8
  | .constant v, w => w = Value.ofFrozen v

/-- A cell of one of the old structures has no room for what is written. -/
def WriteCase.NeedsRoom (registry : Registry) (k : WriteCase) : Prop :=
  ∃ old ∈ k.oldStructures.ids, ∃ s, registry.get? old = some s ∧
    s.outOfLineCapacity ≤ k.offset.outOfLineIndex

/-- The ids of the structures of a write have 32 bits. -/
structure WriteCase.Fits (k : WriteCase) : Prop where
  old : k.oldStructures.Fits
  new : ∀ next, k.newStructure = some next → next.index < 0x100000000

/-- The storage of the cell is replaced when it is written. -/
def WriteCase.Grows (registry : Registry) (k : WriteCase) : Prop :=
  k.newStructure.isSome = true ∧ k.offset.isInline = false ∧ k.NeedsRoom registry

section Writes

variable {σ : Type} (m : Machine σ) (layout : ObjectLayout) (registry : Registry) (cell w : Word)
  (k : WriteCase) (before : Memory)

/-- What the offset of a write counts from, and the memory there is by then. -/
def WriteCase.Origin (origin : Word) (after : Memory) : Prop :=
  (k.Grows registry ∧ ∃ next s, k.newStructure = some next ∧ registry.get? next = some s ∧
    Lowering.Answers m .reallocateStorage [cell, UInt64.ofNat s.outOfLineCapacity] before origin
      after) ∨
  (¬ k.Grows registry ∧ origin = layout.slotOrigin before cell k.offset ∧ after = before)

/-- What a case of a polymorphic write makes of memory: the property has the word, and the cell has
the new structure. -/
def WriteCase.Writes (after : Memory) : Prop :=
  ∃ origin memory, k.Origin m layout registry cell before origin memory ∧ ∃ d,
    layout.propertyOffset k.offset = .ok d ∧
    after = (k.newStructure.elim id fun next memory => memory.write (layout.structureAddress cell) 4
      (UInt64.ofNat next.index))
      (memory.write (Machine.address origin (Int32.ofInt d)) 8 w)

/-- Neither the write of the property nor the collector changes the structure of a cell `q`. -/
structure WriteCase.Spares (q : Word) : Prop where
  property : ∀ {origin memory d}, k.Origin m layout registry cell before origin memory →
    layout.propertyOffset k.offset = .ok d →
    layout.structureOf (memory.write (Machine.address origin (Int32.ofInt d)) 8 w) q =
      layout.structureOf before q
  collector : ∀ {memory x after}, Lowering.Answers m .writeBarrier [cell] memory x after →
    layout.structureOf after q = layout.structureOf memory q

variable {m layout registry cell w k before}
  {after told : Memory} {t : σ} {q : Word} {needed : Prop}

/-- The written cell has its new structure, if there is one. Other cells keep theirs. -/
theorem WriteCase.Writes.structureOf_told (h : k.Writes m layout registry cell w before after)
    (htold : Lowering.Told m needed cell after t told) (hfits : k.Fits)
    (hspares : k.Spares m layout registry cell w before q) (hq : q = cell ∨ Apart cell q) :
    layout.structureOf told q = if q = cell then
      k.newStructure.getD (layout.structureOf before q) else layout.structureOf before q := by
  have hcollector : layout.structureOf told q = layout.structureOf after q := by
    obtain ⟨-, x, hcalled⟩ | ⟨-, rfl⟩ := htold
    · exact hspares.collector hcalled.answers
    · rfl
  obtain ⟨origin, memory, horigin, d, hd, rfl⟩ := h
  have hproperty := hspares.property horigin hd
  rw [hcollector]
  cases hnew : k.newStructure with
  | none =>
    rw [Option.elim_none, id_eq, hproperty, Option.getD_none, ite_self]
  | some next =>
    rw [Option.elim_some, Option.getD_some, ← Offset.ofInt32_ofIndex (hfits.new next hnew)]
    rcases hq with rfl | hq
    · rw [if_pos rfl, ObjectLayout.structureOf_write (hfits.new next hnew)]
    · rw [if_neg hq.ne, ObjectLayout.structureOf_write_apart hq, hproperty]

end Writes

namespace Lowering

section

variable {σ : Type} {m : Machine σ} {L : Set Word} {b : Builder} {c c' : Config σ} {env : Env}
  {s s' : State} {id : NodeId} {node : Node} {cell value base : Reg} {a w : Word} {u : Unit}
  {kind : ExitKind}

/-! ## Tests -/

theorem structureEq_yieldsIn {sid t : StructureId} {r : Reg} (ht : t.index < 0x100000000)
    (hsid : sid.index < 0x100000000) (h : c.Has b r .i32 (UInt64.ofNat sid.index)) :
    (Emit.icmpImm .eq r t.index).YieldsIn m L b c .i32 (ofBool (decide (sid = t))) := by
  refine (Emit.icmpImm_yieldsIn h).congr (congrArg ofBool ?_)
  have heq : decide (sid = t) = (sid.index == t.index) := by
    cases sid
    cases t
    rw [Bool.eq_iff_iff, decide_eq_true_eq, beq_iff_eq, StructureId.mk.injEq]
  rw [heq]
  simp only [IntCC.eval, IntCC.holds, low_ofInt, UInt64.toUInt32_ofNat', UInt32.toNat_ofNat']
  rw [Nat.mod_eq_of_lt (show _ < 2 ^ 32 from hsid), Nat.mod_eq_of_lt (show _ < 2 ^ 32 from ht)]

/-- The test whether a structure id is in a set. -/
theorem structureIn_yieldsIn {sid : StructureId} {set : StructureSet} {r : Reg} (hset : set.Fits)
    (hsid : sid.index < 0x100000000) (h : c.Has b r .i32 (UInt64.ofNat sid.index)) :
    (structureIn r set).YieldsIn m L b c .i32 (ofBool (decide (sid ∈ set.ids))) := by
  unfold structureIn
  unfold StructureSet.Fits at hset
  cases hids : set.ids with
  | nil => exact (Emit.int32_yieldsIn 0).congr (by simp only [List.not_mem_nil, decide_false]; rfl)
  | cons first rest =>
    rw [hids] at hset
    -- what was found so far, and is looked for in the rest
    have hloop : ∀ (l : List StructureId) (found : Bool) {r' : Reg} {b' : Builder} {c' : Config σ},
        (∀ t ∈ l, t.index < 0x100000000) → c.Follows b c' b' → c'.Has b' r' .i32 (ofBool found) →
        (l.foldlM (fun found s => do Emit.binary .or found (← Emit.icmpImm .eq r s.index)) r' : Emit
          Reg).YieldsIn m L b' c' .i32
          (ofBool (found || decide (sid ∈ l))) := by
      intro l
      induction l with
      | nil =>
        intro found r' b' c' _ _ hr'
        simpa using Emit.YieldsIn.pure hr'
      | cons t l ih =>
        intro found r' b' c' hl hf hr'
        rw [List.foldlM_cons]
        refine Emit.YieldsIn.bind ((structureEq_yieldsIn (hl t (by simp)) hsid (h.later hf)).bind
          fun hf₁ ht =>
          (Emit.binary_yieldsIn (hr'.later hf₁) ht).congr (BinaryOp.or_ofBool _ _))
            fun hf₂ hr₂ => ?_
        refine (ih _ (fun t ht => hl t (by simp [ht])) (hf.trans hf₂) hr₂).congr ?_
        simp [Bool.or_assoc]
    refine (structureEq_yieldsIn (hset first (by simp)) hsid h).bind fun hf hr => ?_
    refine (hloop rest _ (fun t ht => hset t (by simp [ht])) hf hr).congr ?_
    simp

/-- The structure id of a cell, which has 32 bits. -/
theorem loadStructureId_yieldsIn (h : c.Has b cell .i64 a) :
    YieldsIn m .univ env b c (loadStructureId cell) .i32
    (UInt64.ofNat (env.layout.structureOf c.memory a).index) := by
  have hread := c.memory.read_lt (env.layout.structureAddress a) (n := 4) (by omega)
  have hword : UInt32.toUInt64 (UInt64.toUInt32 (c.memory.read (env.layout.structureAddress a) 4)) =
      UInt64.ofNat (env.layout.structureOf c.memory a).index := by
    apply UInt64.toNat_inj.1
    rw [UInt32.toNat_toUInt64, UInt64.toNat_toUInt32, ObjectLayout.structureOf, UInt64.ofNat_toNat]
    omega
  rw [← hword]
  exact loadField32_yieldsIn h .structureId trivial

theorem structureOf_lt (layout : ObjectLayout) (memory : Memory) (a : Word) :
    (layout.structureOf memory a).index < 0x100000000 :=
  Memory.read_lt (n := 4) memory (layout.structureAddress a) (by omega)

/-! ## Leaving without a test -/

theorem terminate_proceeds (hvalid : s.facts.valid = true) :
    Proceeds m L env s c (terminate kind) (.error kind) := by
  intro s₁ s' u c₁ hsame hf hc h hm
  obtain ⟨exit, captured, s₂, hbuilt, hexits, hquits⟩ :=
    terminate_quits (L := L) h hm hc (by rw [hsame.facts]; exact hvalid)
  obtain ⟨e, he, hkind⟩ := (buildExit_adds hbuilt).1
  exact ⟨exit, e, hquits, by rw [hexits]; exact he, hkind⟩

/-- What is known of a node, before the rest. -/
theorem Proceeds.ofFact {β : Type} {f : AbstractValue → Lower β} {known : AbstractValue}
    {o : Except ExitKind (β → State → Config σ → Prop)}
    (hknown : s.facts.factOf env.graph id = .ok known) (hf : Proceeds m L env s c (f known) o) :
    Proceeds m L env s c (factOf id >>= f) o := by
  intro s₁ s' a c₁ hsame hfollows hc h hm
  obtain ⟨known', s₂, h₁, h₂⟩ := bind_ok h
  obtain ⟨hknown', rfl⟩ := factOf_ok h₁
  rw [hsame.facts, hknown] at hknown'
  cases hknown'
  exact hf hsame hfollows hc h₂ hm

/-- The case that is taken for a structure: the first possible one that lists it, or the last one if
that is not tested. -/
def caseOf {κ : Type} (known : StructureFact) (structures : κ → StructureSet) (cases : List κ)
    (sid : StructureId) : Option κ :=
  chosen (coveredBy known structures (possibleCases known structures cases))
    (fun k => decide (sid ∈ (structures k).ids))
    (possibleCases known structures cases)

/-- For a structure that is possible it is the first case that lists it. -/
theorem caseOf_eq_find? {κ : Type} {known : StructureFact} {structures : κ → StructureSet}
    {cases : List κ} {sid : StructureId} (h : structurePossible known sid = true) :
    caseOf known structures cases sid = cases.find? fun k => decide (sid ∈ (structures k).ids) := by
  rw [← find?_possibleCases h]
  exact chosen_eq_find? fun hcovered => (exists_of_coveredBy h hcovered).imp fun _ h =>
    ⟨h.1, decide_eq_true h.2⟩

/-- A dispatch by the structure of a cell. -/
theorem structures_departs {κ : Type} {structures : κ → StructureSet} {exhaustive : Bool}
    {ks : List κ} {sid : StructureId} {current : Reg} {p : BlockId} {params : List Reg}
    {body : κ → Lower (List Reg)} [∀ k, Tidy (body k)] {profile : Option Reg}
    {Q : κ → Config σ → Prop} (hcurrent : c.Has b current .i32 (UInt64.ofNat sid.index))
    (hsid : sid.index < 0x100000000) (hfits : ∀ k ∈ ks, (structures k).Fits)
    (hbody : ∀ k ∈ ks, Departs m L env b c p params (do Emit.jump p (← body k)) (.ok (Q k))) :
    Departs m L env b c p params
      (dispatch p exhaustive (fun k => structureIn current (structures k)) body
        (exitHere kind profile) ks)
      ((outcome kind (chosen exhaustive (fun k => decide (sid ∈ (structures k).ids)) ks)).map Q) :=
  dispatch_departs (fun k hk => .ofEmit (structureIn_yieldsIn (hfits k hk) hsid hcurrent)) hbody
    (fun _ => exitHere_departs)
    fun _ _ _ _ => exitHere_closed

/-! ## Reading -/

theorem slotBase_yieldsIn {offset : PropertyOffset} (h : c.Has b base .i64 a) :
    YieldsIn m .univ env b c (slotBase base offset) .i64
      (env.layout.slotOrigin c.memory a offset) := by
  unfold slotBase ObjectLayout.slotOrigin
  split
  · exact .pure fun hf => ⟨_, h.later hf, rfl, hf.memory⟩
  · exact loadField64_yieldsIn h .butterfly trivial

theorem readCase_acts {method : ReadMethod} (h : c.Has b base .i64 a) :
    Acts m .univ env b c (readCase base method)
      (InRegister .i64 fun w memory => memory = c.memory ∧ method.Gives env.layout c.memory a
        w) := by
  cases method with
  | load offset =>
    refine YieldsIn.andThen (slotBase_yieldsIn h) fun hf hbase => ?_
    refine .ofRead (.ofCheck fun {k} hk => ?_)
    refine YieldsIn.inRegister (.ofEmit (Emit.load_yieldsIn hbase trivial)) ⟨hf.memory, k, hk, ?_⟩
    rw [hf.memory]
    rfl
  | constant v => exact YieldsIn.inRegister (.ofEmit (Emit.word_yieldsIn _)) ⟨rfl, rfl⟩

/-! ## Writing -/

theorem storeStructureId_acts {sid : StructureId} (hsid : sid.index < 0x100000000)
    (h : c.Has b cell .i64 a) :
    Acts m L env b c (storeStructureId cell sid) fun _ _ c' =>
      c'.memory = c.memory.write (env.layout.structureAddress a) 4 (UInt64.ofNat sid.index) := by
  unfold storeStructureId
  refine YieldsIn.andThen (.ofEmit (Emit.int32_yieldsIn _)) fun hf hid => ?_
  refine (storeField_acts hid (h.later hf)).mono fun hmem => ?_
  rw [hmem, hf.memory, Offset.ofInt32_ofIndex hsid]
  rfl

/-- Steps that look something up while the code is built. -/
theorem Acts.ofLookup {α β : Type} {x : Lower α} {f : α → Lower β} {P : α → Prop}
    {Q : β → Builder → Config σ → Prop} (hx : ∀ {s a s'}, x env s = .ok (a, s') → s' = s ∧ P a)
    (hf : ∀ {a}, P a → Acts m L env b c (f a) Q) :
    Acts m L env b c (x >>= f) Q := by
  intro s s' r c' hfollows hc h hm
  obtain ⟨a, s₁, h₁, h₂⟩ := bind_ok h
  obtain ⟨rfl, ha⟩ := hx h₁
  exact hf ha hfollows hc h₂ hm

theorem getStructure_ok {sid : StructureId} {t : Structure}
    (h : getStructure sid env s = .ok (t, s')) :
    s' = s ∧ env.graph.structures.get? sid = some t := by
  rw [getStructure, read_bind] at h
  cases ht : env.graph.structures.get? sid with
  | none =>
    rw [ht] at h
    cases h
  | some t' =>
    rw [ht] at h
    cases h
    exact ⟨rfl, rfl⟩

theorem anyM_ok {α : Type} {f : α → Lower Bool} {P : α → Prop} {l : List α} {found : Bool}
    (hf : ∀ {a found s s'}, f a env s = .ok (found, s') → s' = s ∧ (found = true ↔ P a))
    (h : l.anyM f env s = .ok (found, s')) :
    s' = s ∧ (found = true ↔ ∃ a ∈ l, P a) := by
  induction l generalizing s with
  | nil =>
    cases h
    simp
  | cons a l ih =>
    rw [List.anyM] at h
    obtain ⟨here, s₁, h₁, h⟩ := bind_ok h
    obtain ⟨rfl, hhere⟩ := hf h₁
    cases here with
    | true =>
      cases h
      exact ⟨rfl, by simp [hhere.1 rfl]⟩
    | false =>
      obtain ⟨rfl, hrest⟩ := ih h
      refine ⟨rfl, hrest.trans ?_⟩
      have hnot : ¬ P a := fun hp => Bool.noConfusion (hhere.2 hp)
      simp [hnot]

theorem needsGrowth_ok {k : WriteCase} {grows : Bool} (h : needsGrowth k env s = .ok (grows, s')) :
    s' = s ∧ (grows = true ↔ k.NeedsRoom env.graph.structures) := by
  refine anyM_ok (P := fun old => ∃ t, env.graph.structures.get? old = some t ∧
    t.outOfLineCapacity ≤ k.offset.outOfLineIndex)
    (fun {old found s s'} hold => ?_) h
  obtain ⟨t, s₁, h₁, h₂⟩ := bind_ok hold
  obtain ⟨rfl, ht⟩ := getStructure_ok h₁
  cases h₂
  simp [ht]

theorem reallocateStorage_acts {object : Reg} {slots : Nat} (h : c.Has b object .i64 a) :
    Acts m .univ env b c (reallocateStorage object slots)
      (InRegister .i64 (Answers m .reallocateStorage [a, UInt64.ofNat slots] c.memory)) := by
  refine YieldsIn.andThen (.ofEmit (Emit.int64_yieldsIn slots)) fun hf hslots => ?_
  rw [← hf.memory]
  exact callHelper_acts (.cons ⟨_, h.later hf⟩ (.cons ⟨_, hslots⟩ .nil))

theorem writeBase_acts {k : WriteCase} (h : c.Has b base .i64 a) :
    Acts m .univ env b c (writeBase base k)
      (InRegister .i64 (k.Origin m env.layout env.graph.structures a c.memory)) := by
  have hhere (hnot : ¬ k.Grows env.graph.structures) : Acts m .univ env b c (slotBase base k.offset)
      (InRegister .i64 (k.Origin m env.layout env.graph.structures a c.memory)) :=
    YieldsIn.inRegister (slotBase_yieldsIn h) (.inr ⟨hnot, rfl, rfl⟩)
  unfold writeBase
  cases hnew : k.newStructure with
  | none => exact hhere fun hgrows => by simpa [hnew] using hgrows.1
  | some next =>
    dsimp only
    split
    case isTrue hinline => exact hhere fun hgrows => by simpa [hinline] using hgrows.2.1
    case isFalse hinline =>
      refine .ofLookup needsGrowth_ok fun {grows} hgrows => ?_
      split
      case isTrue ht =>
        refine .ofLookup getStructure_ok fun {t} hnext => (reallocateStorage_acts h).mono ?_
        rintro r b' c' ⟨w, hw, hanswer⟩
        exact ⟨w, hw, .inl ⟨⟨by rw [hnew]; rfl, by simpa using hinline, hgrows.1 ht⟩, next, t, hnew,
          hnext, hanswer⟩⟩
      case isFalse hf => exact hhere fun hg => hf (hgrows.2 hg.2.2)

theorem tidy_changeStructure (base : Reg) (new : Option StructureId) : Tidy (match new with
    | some next => storeStructureId base next
    | none => pure ()) := by
  split <;> infer_instance

theorem writeCase_acts {k : WriteCase}
    (hfits : ∀ next, k.newStructure = some next → next.index < 0x100000000)
    (h : c.Has b base .i64 a) (hv : c.Has b value .i64 w) :
    Acts m .univ env b c (writeCase base value k) fun _ _ c' =>
      k.Writes m env.layout env.graph.structures a w c.memory c'.memory := by
  unfold writeCase
  have := tidy_changeStructure base k.newStructure
  refine Acts.bind (writeBase_acts h) fun {r b₁ c₁} e₁ hregs₁ hr => ?_
  obtain ⟨origin, hr, horigin⟩ := hr
  refine Acts.bind (Q := fun _ _ c' => ∃ d, env.layout.propertyOffset k.offset = .ok d ∧
    c'.memory = c₁.memory.write (Machine.address origin (Int32.ofInt d)) 8 w) ?_
      fun {_ b₂ c₂} e₂ hregs₂ hstored => ?_
  · refine .ofRead (.ofCheck fun {d} hd => (store_acts (hv.retain e₁ hregs₁) hr).mono
      fun hmem => ⟨d, hd, hmem⟩)
  obtain ⟨d, hd, hmem⟩ := hstored
  cases hnew : k.newStructure with
  | none =>
    exact .pure fun hf => ⟨origin, c₁.memory, horigin, d, hd, by rw [hf.memory, hmem, hnew]; rfl⟩
  | some next =>
    refine (storeStructureId_acts (hfits next hnew) ((h.retain e₁ hregs₁).retain e₂ hregs₂)).mono
      fun hlast => ?_
    exact ⟨origin, c₁.memory, horigin, d, hd, by rw [hlast, hmem, hnew]; rfl⟩

/-! ## Accesses -/

/-- Control stands where the cell of an access was read. According to the facts the cell may have
the structure that it has. -/
structure AtCell (m : Machine σ) (env : Env) (e : Edge) (base : Reg) (a : Word) (s : State)
    (c : Config σ) : Prop where
  stands : m.At s.builder c
  cell : c.Has s.builder base .i64 a
  valid : s.facts.valid = true
  possible : ∃ known, s.facts.factOf env.graph e.node = .ok known ∧
    structurePossible known.structures (env.layout.structureOf c.memory a) = true

theorem multiGet_course {e : Edge} {cases : List ReadCase} {s₁ : State}
    (hnode : env.graph.node id = .ok node) (hop : node.op = .multiGetByOffset cases)
    (hchild : node.child 0 = .ok e) (hresult : node.result.form? = some .jsValue)
    (h : lowerOp id node env s = .ok ((), s')) (hm : s'.builder.Completes m.func)
    (hread : asCell e env s = .ok (base, s₁)) (hcell : AtCell m env e base a s₁ c)
    (hdepth : s₁.armDepth = 0) (hfits : ∀ k ∈ cases, k.structures.Fits) :
    Course m .univ s₁ s' c ()
      ((outcome .badCache
        (cases.find? fun k => decide (env.layout.structureOf c.memory a ∈ k.structures.ids))).map
      fun k => HeldAs id .jsValue fun w memory => memory = c.memory ∧ k.method.Gives env.layout
        c.memory a w) := by
  have hlower : lowerOp id node = lowerMultiGetByOffset id node cases := by simp only [lowerOp, hop]
  rw [hlower, lowerMultiGetByOffset] at h
  obtain ⟨e', he, h⟩ := check_bind_ok h
  obtain rfl : e = e' := Except.ok.inj (hchild.symm.trans he)
  rw [bind_of_ok hread] at h
  obtain ⟨known, hknown, hpossible⟩ := hcell.possible
  refine Proceeds.ofFact hknown ?_ (.refl s₁) (.refl _ _) hcell.stands h hm
  dsimp only
  rw [← caseOf_eq_find? hpossible, caseOf]
  split
  case isTrue hnone =>
    rw [List.isEmpty_iff.1 hnone]
    exact terminate_proceeds hcell.valid
  case isFalse hsome =>
    refine Proceeds.rejoinWith (loadStructureId_yieldsIn hcell.cell)
      (fun {p r result b' c'} hf hcurrent hresult => ?_)
      fun {k s' c' result} _ hsame _ _ hr => proceeds_setResult hnode hresult
        (hsame.armDepth.trans hdepth) hr
    refine structures_departs hcurrent (structureOf_lt ..)
      (fun k hk => hfits k (List.mem_filter.1 hk).1) fun k hk => ?_
    refine Acts.departsWith ((readCase_acts (hcell.cell.later hf)).bind fun _ _ hr => .pure
      fun hf' => ?_) hresult
    obtain ⟨w, hw, hmem, hgives⟩ := hr
    rw [hf.memory] at hmem hgives
    exact ⟨_, rfl, w, hw.later hf', hf'.memory.trans hmem, hgives⟩

/-- A polymorphic write does what the case says that is taken, and then tells the collector. -/
theorem multiPut_taken {e stored : Edge} {cases : List WriteCase} {s₁ s₂ : State}
    {known knownCell : AbstractValue} (hop : node.op = .multiPutByOffset cases)
    (hchild : node.child 0 = .ok e) (hchild' : node.child 1 = .ok stored)
    (h : lowerOp id node env s = .ok ((), s')) (hm : s'.builder.Completes m.func)
    (hread : asCell e env s = .ok (base, s₁)) (hread' : asValue stored env s₁ = .ok (value, s₂))
    (hc : m.At s₂.builder c) (hcell : c.Has s₂.builder base .i64 a) (hvalid : s₂.facts.valid = true)
    (hknownCell : s₂.facts.factOf env.graph e.node = .ok knownCell)
    (hvalue : c.Has s₂.builder value .i64 w)
    (hknown : s₂.facts.factOf env.graph stored.node = .ok known) (hfits : ∀ k ∈ cases, k.Fits) :
    Course m .univ s₂ s' c () ((outcome .badCache
      (caseOf knownCell.structures WriteCase.oldStructures cases (env.layout.structureOf c.memory
        a))).map fun k _ _ c' =>
        ∃ memory, k.Writes m env.layout env.graph.structures a w c.memory memory ∧
          Told m (known.ty.overlaps .cell = true ∧ Cell.marked env.layout memory a = true) a memory
            c'.runtimeState c'.memory) := by
  have hlower : lowerOp id node = lowerMultiPutByOffset node cases := by simp only [lowerOp, hop]
  rw [hlower, lowerMultiPutByOffset] at h
  obtain ⟨e', he, h⟩ := check_bind_ok h
  obtain rfl : e = e' := Except.ok.inj (hchild.symm.trans he)
  obtain ⟨stored', hstored, h⟩ := check_bind_ok h
  obtain rfl : stored = stored' := Except.ok.inj (hchild'.symm.trans hstored)
  rw [bind_of_ok hread, bind_of_ok hread'] at h
  refine Proceeds.ofFact hknownCell ?_ (.refl s₂) (.refl _ _) hc h hm
  dsimp only
  rw [caseOf]
  split
  case isTrue hnone =>
    rw [List.isEmpty_iff.1 hnone]
    exact terminate_proceeds hvalid
  case isFalse hsome =>
    refine Proceeds.rejoin (R := fun k _ memory => k.Writes m env.layout env.graph.structures a w
      c.memory memory)
      (loadStructureId_yieldsIn hcell) (fun {p r b' c'} hf hcurrent => ?_)
      fun {k s' c'} _ hsame e hregs hwritten => ?_
    · refine structures_departs hcurrent (structureOf_lt ..)
        (fun k hk => (hfits k (List.mem_filter.1 hk).1).old) fun k hk => ?_
      refine Acts.departs (R := fun _ memory => k.Writes m env.layout env.graph.structures a w
        c.memory memory)
        ((writeCase_acts (hfits k (List.mem_filter.1 hk).1).new (hcell.later hf)
          (hvalue.later hf)).bind
          fun _ _ hw => .pure fun hf' => ⟨rfl, ?_⟩)
      rw [hf.memory] at hw
      exact hf'.memory ▸ hw
    · have hknown' : s'.facts.factOf env.graph stored.node = .ok known := by
        rw [hsame.facts]
        exact hknown
      exact (barrierFor_proceeds (hcell.retain e hregs) hknown').mono fun htold =>
        ⟨c'.memory, hwritten, htold⟩

theorem multiPut_course {e stored : Edge} {cases : List WriteCase} {s₁ s₂ : State}
    {known : AbstractValue} (hop : node.op = .multiPutByOffset cases)
    (hchild : node.child 0 = .ok e) (hchild' : node.child 1 = .ok stored)
    (h : lowerOp id node env s = .ok ((), s')) (hm : s'.builder.Completes m.func)
    (hread : asCell e env s = .ok (base, s₁)) (hread' : asValue stored env s₁ = .ok (value, s₂))
    (hcell : AtCell m env e base a s₂ c) (hvalue : c.Has s₂.builder value .i64 w)
    (hknown : s₂.facts.factOf env.graph stored.node = .ok known) (hfits : ∀ k ∈ cases, k.Fits) :
    Course m .univ s₂ s' c ()
      ((outcome .badCache
        (cases.find? fun k => decide (env.layout.structureOf c.memory a ∈ k.oldStructures.ids))).map
      fun k _ _ c' => ∃ memory, k.Writes m env.layout env.graph.structures a w c.memory memory ∧
        Told m (known.ty.overlaps .cell = true ∧ Cell.marked env.layout memory a = true) a memory
          c'.runtimeState c'.memory) := by
  obtain ⟨knownCell, hknownCell, hpossible⟩ := hcell.possible
  rw [← caseOf_eq_find? hpossible]
  exact multiPut_taken hop hchild hchild' h hm hread hread' hcell.stands hcell.cell hcell.valid
    hknownCell hvalue hknown hfits

theorem outcome_map_eq_error_iff {α β : Type} {f : α → β} {o : Option α} :
    (outcome kind o).map f = .error kind ↔ o = none := by
  cases o <;> simp [outcome, Except.map]

/-- Where the cell of a polymorphic access was read, and the facts allow the structure that it has,
the code does what the first case says that lists this structure. It reads the property or gives the
constant; or it writes the property, in storage that is replaced if it has to grow, gives the cell
its new structure, and tells the collector. It leaves exactly if no case lists the structure, with
memory as it was. -/
theorem polymorphic_access {e : Edge} {s₁ : State} (hnode : env.graph.node id = .ok node)
    (hchild : node.child 0 = .ok e) (h : lowerOp id node env s = .ok ((), s'))
    (hm : s'.builder.Completes m.func) (hread : asCell e env s = .ok (base, s₁)) :
    (∀ {cases : List ReadCase} {c : Config σ} {a : Word}, node.op = .multiGetByOffset cases →
      node.result.form? = some .jsValue →
      (∀ k ∈ cases, k.structures.Fits) → s₁.armDepth = 0 → AtCell m env e base a s₁ c →
      Course m .univ s₁ s' c () ((outcome .badCache
        (cases.find? fun k => decide (env.layout.structureOf c.memory a ∈ k.structures.ids))).map
          fun k =>
          HeldAs id .jsValue fun w memory => memory = c.memory ∧ k.method.Gives env.layout c.memory
            a w) ∧
      (LeavesBy m .badCache s' c ↔ ∀ k ∈ cases, env.layout.structureOf c.memory a ∉
        k.structures.ids)) ∧
    (∀ {cases : List WriteCase} {stored : Edge} {value : Reg} {s₂ : State} {known
      : AbstractValue} {c : Config σ} {a w : Word},
      node.op = .multiPutByOffset cases → node.child 1 = .ok stored →
      asValue stored env s₁ = .ok (value, s₂) →
      s₂.facts.factOf env.graph stored.node = .ok known → (∀ k ∈ cases, k.Fits) →
      AtCell m env e base a s₂ c →
      c.Has s₂.builder value .i64 w →
      Course m .univ s₂ s' c () ((outcome .badCache
        (cases.find? fun k => decide (env.layout.structureOf c.memory a ∈ k.oldStructures.ids))).map
          fun k _ _ c' =>
          ∃ memory, k.Writes m env.layout env.graph.structures a w c.memory memory ∧
            Told m (known.ty.overlaps .cell = true ∧ Cell.marked env.layout memory a = true) a
              memory c'.runtimeState c'.memory) ∧
      (LeavesBy m .badCache s' c ↔ ∀ k ∈ cases, env.layout.structureOf c.memory a ∉
        k.oldStructures.ids)) := by
  constructor
  · intro cases c a hop hresult hfits hdepth hcell
    have hcourse := multiGet_course hnode hop hchild hresult h hm hread hcell hdepth hfits
    exact ⟨hcourse, hcourse.leavesBy_iff.trans (outcome_map_eq_error_iff.trans (by simp))⟩
  · intro cases stored value s₂ known c a w hop hchild' hread' hknown hfits hcell hvalue
    have hcourse := multiPut_course hop hchild hchild' h hm hread hread' hcell hvalue hknown hfits
    exact ⟨hcourse, hcourse.leavesBy_iff.trans (outcome_map_eq_error_iff.trans (by simp))⟩

end

/-! ## An object with structure 5 -/

namespace TwoCases

open TwoArguments

def read : Node where
  op := .multiGetByOffset [⟨⟨[⟨7⟩]⟩, .load ⟨0⟩⟩, ⟨⟨[⟨5⟩, ⟨7⟩]⟩, .constant (.int32 3)⟩]
  result := .jsValue
  children := [{ node := ⟨0⟩, useKind := .knownCell }]

def write : Node where
  op := .multiPutByOffset [⟨⟨[⟨7⟩]⟩, none, ⟨1⟩⟩, ⟨⟨[⟨5⟩]⟩, some ⟨6⟩, ⟨0⟩⟩]
  children := [{ node := ⟨0⟩, useKind := .knownCell }, { node := ⟨1⟩ }]

/-- The structure of the object. -/
def memory : Memory := ({} : Memory).write 0x5000 4 5

/-- The object has structure 6, and its first property is 8. -/
def written : Memory := (memory.write 0x5010 8 (Value.boxInt32 8)).write 0x5000 4 6

/-- The object and 8 are the arguments. -/
def start (f : Function) : Config Unit := { config f 0x5000 (Value.boxInt32 8) with memory }

theorem start_atCell {node : Node} {f : Function} (hf : 3 < f.types.size) :
    AtCell (Machine.plain f) (env (graph node .jsValue .jsValue))
      { node := ⟨0⟩, useKind := .knownCell }
      ⟨2⟩ 0x5000
      (before (graph node .jsValue .jsValue) .jsValue) (start f) where
  stands := before_atMemory _
  cell := (config_hasIn hf).1
  valid := rfl
  possible := ⟨_, rfl, rfl⟩

theorem start_structure (g : Graph) (f : Function) :
    (env g).layout.structureOf (start f).memory 0x5000 = ⟨5⟩ := by
  change ObjectLayout.structureOf {} memory 0x5000 = _
  decide +kernel

theorem write_fits :
    ∀ k ∈ ([⟨⟨[⟨7⟩]⟩, none, ⟨1⟩⟩, ⟨⟨[⟨5⟩]⟩, some ⟨6⟩, ⟨0⟩⟩] : List WriteCase), k.Fits := by
  intro k hk
  rcases List.mem_pair.1 hk with rfl | rfl <;> exact ⟨by simp [StructureSet.Fits], by simp⟩

end TwoCases

open TwoArguments TwoCases in
/-- The second case applies: the object gives 3, or it gets the property and its new structure. -/
theorem polymorphic_access_second : ∃ s₁ s₂,
    lowerOp ⟨2⟩ TwoCases.read (env (graph TwoCases.read .jsValue .jsValue))
      (before (graph TwoCases.read .jsValue .jsValue) .jsValue) =
        .ok ((), s₁) ∧
      lowerOp ⟨2⟩ write (env (graph write .jsValue .jsValue))
        (before (graph write .jsValue .jsValue) .jsValue) = .ok ((), s₂) ∧
      Course (Machine.plain s₁.builder.func) .univ (before (graph TwoCases.read .jsValue .jsValue)
        .jsValue) s₁ (start s₁.builder.func) ()
        (.ok (HeldAs ⟨2⟩ .jsValue fun w after => w = Value.boxInt32 3 ∧ after = memory)) ∧
      Course (Machine.plain s₂.builder.func) .univ (before (graph write .jsValue .jsValue) .jsValue)
        s₂
        (start s₂.builder.func) ()
        (.ok fun _ _ c' => c'.memory = written) := by
  have hcheck : ((lowerOp ⟨2⟩ TwoCases.read (env (graph TwoCases.read .jsValue .jsValue))
      (before (graph TwoCases.read .jsValue .jsValue) .jsValue)).toOption.any fun r =>
        3 < r.2.builder.func.types.size) = true := by
    decide +kernel
  have hcheck₂ : ((lowerOp ⟨2⟩ write (env (graph write .jsValue .jsValue))
      (before (graph write .jsValue .jsValue) .jsValue)).toOption.any fun r =>
        3 < r.2.builder.func.types.size) = true := by
    decide +kernel
  obtain ⟨⟨⟨⟩, s₁⟩, h₁, hsize₁⟩ := ok_of_any hcheck
  obtain ⟨⟨⟨⟩, s₂⟩, h₂, hsize₂⟩ := ok_of_any hcheck₂
  rw [decide_eq_true_eq] at hsize₁ hsize₂
  have hread (node : Node) : asCell { node := ⟨0⟩, useKind := .knownCell }
    (env (graph node .jsValue .jsValue))
      (before (graph node .jsValue .jsValue) .jsValue) = .ok (⟨2⟩,
        before (graph node .jsValue .jsValue) .jsValue) := rfl
  have hreads :=
    (polymorphic_access (m := Machine.plain s₁.builder.func) rfl rfl h₁ s₁.builder.completes_self
      (hread _)).1 rfl rfl
    (by simp [StructureSet.Fits]) rfl (start_atCell hsize₁)
  have hwrites :=
    (polymorphic_access (m := Machine.plain s₂.builder.func) rfl rfl h₂ s₂.builder.completes_self
      (hread _)).2 rfl rfl rfl rfl write_fits
    (start_atCell hsize₂) (config_hasIn hsize₂).2
  refine ⟨s₁, s₂, h₁, h₂, ?_, ?_⟩
  · obtain ⟨hcourse, -⟩ := hreads
    rw [start_structure] at hcourse
    exact Machine.Does.mono hcourse fun c' _ _ hheld => hheld.mono fun ⟨hmem, hw⟩ => ⟨hw, hmem⟩
  · obtain ⟨hcourse, -⟩ := hwrites
    rw [start_structure] at hcourse
    refine Machine.Does.mono hcourse fun c' _ _ hwritten => ?_
    obtain ⟨after, ⟨origin, grown, horigin, d, hd, rfl⟩, htold⟩ := hwritten
    obtain ⟨hgrows, -⟩ | ⟨-, rfl, rfl⟩ := horigin
    · exact absurd hgrows.2.1 (by decide)
    obtain rfl : 16 = d := Except.ok.inj hd
    -- the collector leaves memory as it is
    obtain ⟨-, x, t, hcalled⟩ | ⟨-, hmem⟩ := htold
    · exact (congrArg (·.2.2) hcalled).symm
    · exact hmem

/-! ## The cell under other names -/

/-- A structure is possible after a polymorphic write exactly if a case gives it to a cell, or
leaves it to a cell. -/
theorem mem_structuresAfter {cases : List WriteCase} {id : StructureId} :
    id ∈ (WriteCase.structuresAfter cases).ids ↔
      ∃ k ∈ cases, k.newStructure = some id ∨ k.newStructure = none ∧ id ∈ k.oldStructures.ids := by
  refine (mem_foldl_structures (P := fun k => k.newStructure = some id ∨
    k.newStructure = none ∧ id ∈ k.oldStructures.ids) (fun all k => ?_) {}).trans (by simp)
  cases k.newStructure with
  | none => simp [StructureSet.mem_merge]
  | some next => simp [StructureSet.mem_insert, or_comm, eq_comm]

section

variable {σ : Type} {m : Machine σ} {c : Config σ} {env : Env} {s s' s₁ s₂ : State} {id : NodeId}
  {node : Node} {base value : Reg} {a w : Word} {e stored : Edge} {cases : List WriteCase}

/-- A polymorphic write leaves what is known of nodes that it does not concern as it is, and its
cell has one of the structures that are then known of the node it uses. Another node holds a cell of
which its fact was true: it still is exactly if that is another cell, or the case that applies has
no new structure or one of those that the fact allows. This is about cells whose headers are left
alone by the property and by the collector. -/
theorem multi_put_fact_iff {known : AbstractValue} {facts : AbstractState}
    (hnode : env.graph.node id = .ok node) (hop : node.op = .multiPutByOffset cases)
    (hchild : node.child 0 = .ok e) (hchild' : node.child 1 = .ok stored)
    (h : lowerOp id node env s = .ok ((), s')) (hm : s'.builder.Completes m.func)
    (hread : asCell e env s = .ok (base, s₁)) (hread' : asValue stored env s₁ = .ok (value, s₂))
    (hcell : AtCell m env e base a s₂ c) (hvalue : c.Has s₂.builder value .i64 w)
    (hknown : s₂.facts.factOf env.graph stored.node = .ok known) (hfits : ∀ k ∈ cases, k.Fits)
    (hexec : s'.facts.execute env.graph id = .ok facts) (hvalid : facts.valid = true) :
    (∃ v, facts.current.get? e.node = some v ∧
      v.structures = .known (WriteCase.structuresAfter cases)) ∧
    (∀ y, ¬ env.graph.Concerns id y → facts.current.get? y = s'.facts.current.get? y) ∧
    Course m .univ s₂ s' c () ((outcome .badCache
      (cases.find? fun k => decide (env.layout.structureOf c.memory a ∈ k.oldStructures.ids))).map
      fun k _ _ c' => ∀ q, k.Spares m env.layout env.graph.structures a w c.memory q →
        (q = a → env.layout.structureOf c'.memory q ∈ (WriteCase.structuresAfter cases).ids) ∧
        ∀ set : StructureSet, q = a ∨ Apart a q → env.layout.structureOf c.memory q ∈ set.ids →
          (env.layout.structureOf c'.memory q ∈ set.ids ↔
            q ≠ a ∨ ∀ next, k.newStructure = some next → next ∈ set.ids)) := by
  have hstored : AbstractState.storedStructures node.op =
      some (.known (WriteCase.structuresAfter cases)) := by
    rw [hop]
    rfl
  obtain ⟨hown, hkept⟩ :=
    AbstractState.execute_storedStructures hexec hvalid hnode hstored hchild
  refine ⟨hown, hkept, ?_⟩
  have hcourse := multiPut_course hop hchild hchild' h hm hread hread' hcell hvalue hknown hfits
  cases hfind : cases.find? fun k =>
      decide (env.layout.structureOf c.memory a ∈ k.oldStructures.ids) with
  | none =>
    rw [hfind] at hcourse
    exact hcourse
  | some k =>
    rw [hfind] at hcourse
    have hk := List.mem_of_find?_eq_some hfind
    have hold : env.layout.structureOf c.memory a ∈ k.oldStructures.ids := by
      simpa using List.find?_some hfind
    refine Machine.Does.mono hcourse fun c' _ _ hwritten q hspares => ?_
    obtain ⟨memory, hwrites, htold⟩ := hwritten
    have hafter := hwrites.structureOf_told htold (hfits k hk) hspares
    constructor
    · rintro rfl
      rw [hafter (.inl rfl), if_pos rfl, mem_structuresAfter]
      cases hnew : k.newStructure with
      | none => exact ⟨k, hk, .inr ⟨hnew, hold⟩⟩
      | some next => exact ⟨k, hk, .inl hnew⟩
    · intro set hq hin
      rw [hafter hq]
      split
      case isFalse hne => simp [hin, hne]
      case isTrue heq =>
        cases hnew : k.newStructure with
        | none => simp [hin]
        | some next => simp [heq]

end

end Lowering

end SpecJit
