import Mathlib.Algebra.GroupWithZero.Nat
import Mathlib.Algebra.Order.BigOperators.Group.List
import Mathlib.Algebra.Order.Group.Nat
import Mathlib.Data.Finset.Card
import SpecJit.Proofs.AbstractState
import SpecJit.Proofs.StructureSet

/-!
# Facts compared

`Covers`: one fact allows all that another one allows, as the union of two facts does with both. A
union either leaves a fact as it is, or it gives something up of it: it gets more kinds or more
structures, or the structures or the constant are dropped. `room` counts what can still be given up,
and so how often a fact can change.
-/

namespace SpecJit

/-! ## Kinds -/

namespace SpecType

variable {a b : SpecType}

theorem getLsbD_or {i : Nat} :
    (a ||| b).bits.toBitVec.getLsbD i = (a.bits.toBitVec.getLsbD i || b.bits.toBitVec.getLsbD
      i) := by
  change (a.bits ||| b.bits).toBitVec.getLsbD i = _
  rw [UInt64.toBitVec_or, BitVec.getLsbD_or]

theorem subset_or_left : a.isSubsetOf (a ||| b) = true := by
  rw [isSubsetOf_iff]
  intro i hi
  rw [getLsbD_or, hi, Bool.true_or]

theorem subset_or_right : b.isSubsetOf (a ||| b) = true := by
  rw [isSubsetOf_iff]
  intro i hi
  rw [getLsbD_or, hi, Bool.or_true]

/-- The kinds that are not in the set. -/
def missing (a : SpecType) : Nat :=
  ((Finset.range 64).filter fun i => a.bits.toBitVec.getLsbD i = false).card

theorem missing_le (a : SpecType) : a.missing ≤ 64 := by
  have h := Finset.card_filter_le (Finset.range 64) fun i => a.bits.toBitVec.getLsbD i = false
  rwa [Finset.card_range] at h

theorem missing_or (h : a ||| b ≠ a) : (a ||| b).missing < a.missing := by
  refine Finset.card_lt_card ⟨fun i hi => ?_, fun hsub => h ?_⟩
  · simp only [Finset.mem_filter, getLsbD_or, Bool.or_eq_false_iff] at hi ⊢
    exact ⟨hi.1, hi.2.1⟩
  · -- what is not missing in the union is not missing in the set
    have hbits : (a ||| b).bits = a.bits := by
      rw [← UInt64.toBitVec_inj]
      refine BitVec.eq_of_getLsbD_eq fun i hi => ?_
      rw [getLsbD_or]
      cases ha : a.bits.toBitVec.getLsbD i with
      | true => rfl
      | false =>
        have hmem := hsub (Finset.mem_filter.2 ⟨Finset.mem_range.2 hi, ha⟩)
        simp only [Finset.mem_filter, getLsbD_or, ha] at hmem
        exact hmem.2
    calc a ||| b = ⟨(a ||| b).bits⟩ := rfl
      _ = a := by rw [hbits]

end SpecType

/-! ## Structures -/

namespace StructureFact

variable {f f' f'' : StructureFact} {limit : Nat}

/-- All structures that the second fact allows are allowed by the first one. -/
def Covers : StructureFact → StructureFact → Prop
  | .top, _ => True
  | .known _, .top => False
  | .known s, .known t => ∀ id ∈ t.ids, id ∈ s.ids

theorem Covers.refl (f : StructureFact) : f.Covers f := by
  cases f with
  | top => trivial
  | known s => exact fun _ h => h

theorem Covers.trans (h₁ : f.Covers f') (h₂ : f'.Covers f'') : f.Covers f'' := by
  cases f with
  | top => trivial
  | known s =>
    cases f' with
    | top => exact h₁.elim
    | known t =>
      cases f'' with
      | top => exact h₂.elim
      | known u => exact fun id hid => h₁ id (h₂ id hid)

theorem merge_covers (limit : Nat) (f f' : StructureFact) :
    (f.merge limit f').1.Covers f ∧ (f.merge limit f').1.Covers f' := by
  cases f with
  | top => exact ⟨trivial, trivial⟩
  | known s =>
    cases f' with
    | top => exact ⟨trivial, trivial⟩
    | known t =>
      simp only [merge]
      split
      · exact ⟨trivial, trivial⟩
      · exact ⟨fun id hid => StructureSet.mem_merge.2 (.inl hid),
          fun id hid => StructureSet.mem_merge.2 (.inr hid)⟩

/-- How often the structures can still change; a set that is too large is given up when it is next
looked at. -/
def room (limit : Nat) : StructureFact → Nat
  | .top => 0
  | .known s => limit - s.size + 1

theorem room_le (limit : Nat) (f : StructureFact) : f.room limit ≤ limit + 1 := by
  cases f with
  | top => exact Nat.zero_le _
  | known s => exact Nat.succ_le_succ (Nat.sub_le ..)

theorem merge_room (limit : Nat) (f f' : StructureFact) :
    f.merge limit f' = (f, false) ∨ (f.merge limit f').2 = true ∧ (f.merge limit f').1.room
      limit < f.room limit := by
  cases f with
  | top => exact .inl rfl
  | known s =>
    cases f' with
    | top => exact .inr ⟨rfl, Nat.succ_pos _⟩
    | known t =>
      simp only [merge]
      split
      · exact .inr ⟨rfl, Nat.succ_pos _⟩
      · rename_i hlimit
        rcases StructureSet.merge_cases s t with hsame | ⟨hchanged, hgrown⟩
        · exact .inl (by rw [hsame])
        · refine .inr ⟨hchanged, ?_⟩
          simp only [room]
          omega

end StructureFact

/-! ## Values -/

namespace AbstractValue

variable {v v' v'' : AbstractValue} {limit : Nat}

/-- What the second fact allows is allowed by the first one, which names the same constant or none.
-/
structure Covers (v v' : AbstractValue) : Prop where
  ty : v'.ty.isSubsetOf v.ty = true
  structures : v.structures.Covers v'.structures
  value : v.value = v'.value ∨ v.value = none

theorem Covers.refl (v : AbstractValue) : v.Covers v := ⟨SpecType.subset_refl _, .refl _, .inl rfl⟩

theorem Covers.trans (h₁ : v.Covers v') (h₂ : v'.Covers v'') : v.Covers v'' where
  ty := SpecType.subset_trans h₂.ty h₁.ty
  structures := h₁.structures.trans h₂.structures
  value := h₁.value.elim (fun h => h ▸ h₂.value) .inr

theorem Covers.not_bottom (h : v.Covers v') (hv' : v'.isBottom = false) : v.isBottom = false :=
  SpecType.not_isEmpty_of_subset h.ty hv'

/-- The union of two facts that values can have. -/
theorem merge_of_not_bottom (hv : v.isBottom = false) (hv' : v'.isBottom = false) :
    v.merge limit v' =
    ({ ty := v.ty ||| v'.ty
       structures := (v.structures.merge limit v'.structures).1
       value := if v.value.isSome && v.value != v'.value then none else v.value },
      v.ty ||| v'.ty != v.ty || (v.structures.merge limit v'.structures).2 ||
      (v.value.isSome && v.value != v'.value)) := by
  simp only [merge, hv, hv', Bool.false_eq_true, ↓reduceIte]

theorem merge_covers (limit : Nat) (hv : v.isBottom = false) (hv' : v'.isBottom = false) :
    (v.merge limit v').1.Covers v ∧ (v.merge limit v').1.Covers v' := by
  rw [merge_of_not_bottom hv hv']
  obtain ⟨hmine, htheirs⟩ := StructureFact.merge_covers limit v.structures v'.structures
  refine ⟨⟨SpecType.subset_or_left, hmine, ?_⟩, ⟨SpecType.subset_or_right, htheirs, ?_⟩⟩
  · dsimp only
    split
    · exact .inr rfl
    · exact .inl rfl
  · dsimp only
    split
    · exact .inr rfl
    · rename_i hkept
      cases hvalue : v.value with
      | none => exact .inr rfl
      | some c =>
        rw [hvalue] at hkept
        exact .inl (by simpa using hkept)

/-- A constant can be given up once. -/
def constantRoom : Option FrozenValue → Nat
  | none => 0
  | some _ => 1

theorem constantRoom_none : constantRoom none = 0 := rfl

/-- How often the fact can still change. -/
def room (limit : Nat) (v : AbstractValue) : Nat :=
  v.ty.missing + v.structures.room limit + constantRoom v.value

theorem room_le (limit : Nat) (v : AbstractValue) : v.room limit ≤ limit + 66 := by
  have hty := v.ty.missing_le
  have hstructures := v.structures.room_le limit
  have hvalue : constantRoom v.value ≤ 1 := by cases v.value <;> simp [constantRoom]
  unfold room
  omega

/-- A union changes nothing, or it gives something up and tells so. -/
theorem merge_room (limit : Nat) (hv : v.isBottom = false) (v' : AbstractValue) :
    v.merge limit v' = (v, false) ∨ (v.merge limit v').2 = true ∧ (v.merge limit v').1.room
      limit < v.room limit := by
  cases hv' : v'.isBottom with
  | true => exact .inl (by simp [merge, hv'])
  | false =>
    rw [merge_of_not_bottom hv hv']
    -- each part stays as it is, or gives something up, which is noticed
    have hty : v.ty ||| v'.ty = v.ty ∨
        (v.ty ||| v'.ty != v.ty) = true ∧ (v.ty ||| v'.ty).missing < v.ty.missing := by
      by_cases he : v.ty ||| v'.ty = v.ty
      · exact .inl he
      · exact .inr ⟨by simp [he], SpecType.missing_or he⟩
    have hvalue : (v.value.isSome && v.value != v'.value) = false ∨
        (v.value.isSome && v.value != v'.value) = true ∧ 0 < constantRoom v.value := by
      cases v.value with
      | none => exact .inl rfl
      | some c =>
        cases hd : some c != v'.value with
        | false => exact .inl rfl
        | true => exact .inr ⟨rfl, Nat.one_pos⟩
    have hstructures := StructureFact.merge_room limit v.structures v'.structures
    rcases hty with hty | ⟨hty, htyRoom⟩ <;> rcases hstructures with hs | ⟨hs, hsRoom⟩ <;>
      rcases hvalue with hd | ⟨hd, hdRoom⟩
    · left
      rw [hty, hs, hd]
      simp
    all_goals
      right
      simp only [room, hty, hs, hd, bne_self_eq_false, Bool.or_true, Bool.or_false,
        Bool.false_eq_true, ↓reduceIte, constantRoom_none, true_and]
      omega

end AbstractValue

/-! ## Facts about all nodes -/

namespace Facts

variable {g : Graph} {f f' f'' : Facts} {limit : Nat} {o o' o'' : Option AbstractValue}

/-- If values can have the second fact, the first one is there and allows as much. -/
def SlotCovers (o o' : Option AbstractValue) : Prop :=
  ∀ v', o' = some v' → v'.isBottom = false → ∃ v, o = some v ∧ v.Covers v'

theorem SlotCovers.refl (o : Option AbstractValue) : SlotCovers o o :=
  fun v hv _ => ⟨v, hv, .refl v⟩

theorem SlotCovers.trans (h₁ : SlotCovers o o') (h₂ : SlotCovers o' o'') : SlotCovers o o'' :=
  fun v'' hv'' hb => by
  obtain ⟨v', hv', hcovers'⟩ := h₂ v'' hv'' hb
  obtain ⟨v, hv, hcovers⟩ := h₁ v' hv' (hcovers'.not_bottom hb)
  exact ⟨v, hv, hcovers.trans hcovers'⟩

/-- What is known of a node is not that it has no value. -/
def SlotPossible (o : Option AbstractValue) : Prop := ∀ v, o = some v → v.isBottom = false

theorem mergeSlot_covers (limit : Nat) (ho : SlotPossible o) (o' : Option AbstractValue) :
    SlotCovers (mergeSlot limit o o').1 o ∧ SlotCovers (mergeSlot limit o o').1 o' := by
  cases o' with
  | none =>
    have hsame : mergeSlot limit o none = (o, false) := by cases o <;> rfl
    rw [hsame]
    exact ⟨.refl o, fun v' hv' => by cases hv'⟩
  | some v' =>
    cases o with
    | none =>
      constructor
      · intro v hv
        cases hv
      · intro v hv hb
        cases hv
        rw [mergeSlot, if_neg (by simp [hb])]
        exact ⟨v', rfl, .refl v'⟩
    | some v =>
      have hv := ho v rfl
      cases hb : v'.isBottom with
      | true =>
        have hsame : mergeSlot limit (some v) (some v') = (some v, false) := by
          simp [mergeSlot, AbstractValue.merge, hb]
        rw [hsame]
        refine ⟨.refl _, fun u hu hub => ?_⟩
        cases hu
        rw [hb] at hub
        cases hub
      | false =>
        obtain ⟨hmine, htheirs⟩ := AbstractValue.merge_covers limit hv hb
        refine ⟨fun u hu _ => ?_, fun u hu _ => ?_⟩
        · cases hu
          exact ⟨_, rfl, hmine⟩
        · cases hu
          exact ⟨_, rfl, htheirs⟩

theorem mergeSlot_possible (ho : SlotPossible o) : SlotPossible (mergeSlot limit o o').1 := by
  intro v hv
  cases o with
  | some u =>
    obtain ⟨w, hw, hcovers⟩ := (mergeSlot_covers limit ho o').1 u rfl (ho u rfl)
    rw [hv] at hw
    cases hw
    exact hcovers.not_bottom (ho u rfl)
  | none =>
    cases o' with
    | none => cases hv
    | some v' =>
      rw [mergeSlot] at hv
      split at hv
      · cases hv
      · rename_i hb
        cases hv
        simpa using hb

/-- How often what is known of one node can still change. -/
def slotRoom (limit : Nat) : Option AbstractValue → Nat
  | none => limit + 67
  | some v => v.room limit

theorem slotRoom_le (limit : Nat) (o : Option AbstractValue) : slotRoom limit o ≤ limit + 67 := by
  cases o with
  | none => exact Nat.le_refl _
  | some v => exact Nat.le_succ_of_le (v.room_le limit)

theorem mergeSlot_room (limit : Nat) (ho : SlotPossible o) (o' : Option AbstractValue) :
    mergeSlot limit o o' = (o, false) ∨
    (mergeSlot limit o o').2 = true ∧ slotRoom limit (mergeSlot limit o o').1 < slotRoom limit
      o := by
  cases o with
  | none =>
    cases o' with
    | none => exact .inl rfl
    | some v' =>
      rw [mergeSlot]
      split
      · exact .inl rfl
      · exact .inr ⟨rfl, Nat.lt_succ_of_le (v'.room_le limit)⟩
  | some v =>
    cases o' with
    | none => exact .inl rfl
    | some v' =>
      rcases AbstractValue.merge_room limit (ho v rfl) v' with hsame | hless
      · exact .inl (by simp [mergeSlot, hsame])
      · exact .inr hless

/-- The facts are about nodes of the graph. -/
structure About (g : Graph) (f : Facts) : Prop where
  size : f.slots.size = g.nodes.size
  strays : f.strays = []

theorem about_empty (g : Graph) : (empty g).About g := ⟨by simp [empty], rfl⟩

theorem About.set {id : NodeId} (h : f.About g) (hid : id.index < g.nodes.size) (v : AbstractValue)
    : (f.set id v).About g := by
  have hlt : id.index < f.slots.size := by rw [h.size]; exact hid
  unfold Facts.set
  rw [if_pos hlt]
  exact ⟨by simp [h.size], h.strays⟩

theorem About.map (h : f.About g) (k : AbstractValue → AbstractValue) : (f.map k).About g :=
  ⟨by simp [Facts.map, h.size], by simp [Facts.map, h.strays]⟩

/-- For every fact of the second kind that values can have, there is one of the first kind that
allows as much. -/
def Covers (f f' : Facts) : Prop := ∀ id, SlotCovers (f.get? id) (f'.get? id)

theorem Covers.refl (f : Facts) : f.Covers f := fun _ => .refl _

theorem Covers.trans (h₁ : f.Covers f') (h₂ : f'.Covers f'') : f.Covers f'' :=
  fun id => (h₁ id).trans (h₂ id)

/-- Of no node it is known that it has no value. -/
def Possible (f : Facts) : Prop := ∀ id, SlotPossible (f.get? id)

theorem possible_empty (g : Graph) : (empty g).Possible := by
  intro id v hv
  have hnone : (empty g).get? id = none := by
    simp only [get?, empty, Array.getElem?_replicate, Array.size_replicate]
    split <;> rfl
  rw [hnone] at hv
  cases hv

theorem get?_merge (hf : f.About g) (hf' : f'.About g) (id : NodeId) :
    (f.merge limit f').1.get? id = (mergeSlot limit (f.get? id) (f'.get? id)).1 := by
  by_cases hid : id.index < f.slots.size
  · simp [merge, get?, hid]
  · have hid' : ¬ id.index < f'.slots.size := by rwa [hf'.size, ← hf.size]
    simp [merge, get?, hid, hid', hf.strays, hf'.strays, mergeStrays, mergeSlot]

theorem About.merge (hf : f.About g) (hf' : f'.About g) : (f.merge limit f').1.About g :=
  ⟨by simp [Facts.merge, hf.size], by simp [Facts.merge, hf.strays, hf'.strays, mergeStrays]⟩

theorem merge_covers (limit : Nat) (hf : f.About g) (hf' : f'.About g) (hp : f.Possible) :
    (f.merge limit f').1.Covers f ∧ (f.merge limit f').1.Covers f' := by
  refine ⟨fun id => ?_, fun id => ?_⟩ <;> rw [get?_merge hf hf']
  · exact (mergeSlot_covers limit (hp id) _).1
  · exact (mergeSlot_covers limit (hp id) _).2

theorem Possible.merge (hp : f.Possible) (hf : f.About g) (hf' : f'.About g) :
    (f.merge limit f').1.Possible := fun id => by
  rw [get?_merge hf hf']
  exact mergeSlot_possible (hp id)

/-- How often the facts can still change. -/
def room (limit : Nat) (f : Facts) : Nat := (f.slots.toList.map (slotRoom limit)).sum

theorem About.room_le (h : f.About g) (limit : Nat) :
    f.room limit ≤ (limit + 67) * g.nodes.size := by
  have hsum := List.sum_le_card_nsmul (f.slots.toList.map (slotRoom limit)) (limit + 67)
    fun x hx => by
    obtain ⟨o, -, rfl⟩ := List.mem_map.1 hx
    exact slotRoom_le limit o
  simpa [room, h.size, Nat.mul_comm] using hsum

/-- Going over what is known of each node. -/
theorem mapIdx_room (limit : Nat) {k : Nat → Option AbstractValue → Option AbstractValue × Bool}
    {l : List (Option AbstractValue)}
    (hk : ∀ i, ∀ o ∈ l, k i o = (o, false) ∨ (k i o).2 = true ∧ slotRoom limit (k i o).1 < slotRoom
      limit o) :
    ((l.mapIdx k).map (·.1) = l ∧ (l.mapIdx k).any (·.2) = false) ∨ ((l.mapIdx k).any (·.2) = true ∧
      (((l.mapIdx k).map (·.1)).map (slotRoom limit)).sum < (l.map (slotRoom limit)).sum) := by
  induction l generalizing k with
  | nil => exact .inl ⟨rfl, rfl⟩
  | cons o l ih =>
    simp only [List.mapIdx_cons, List.map_cons, List.any_cons, List.sum_cons]
    rcases hk 0 o (by simp) with ho | ⟨ho, hroom⟩ <;>
      rcases ih (k := fun i => k (i + 1)) (fun i o' ho' => hk (i + 1) o' (by simp [ho']))
        with ⟨hl, hany⟩ | ⟨hany, hsum⟩
    · exact .inl ⟨by rw [ho, hl], by rw [ho, hany]; rfl⟩
    · exact .inr ⟨by rw [hany, Bool.or_true], by rw [ho]; exact Nat.add_lt_add_left hsum _⟩
    · exact .inr ⟨by rw [ho, Bool.true_or], by rw [hl]; omega⟩
    · exact .inr ⟨by rw [ho, Bool.true_or], by omega⟩

/-- The union of facts with others changes nothing, or it gives something up and tells so. -/
theorem merge_room (limit : Nat) (hf : f.About g) (hf' : f'.About g) (hp : f.Possible) :
    f.merge limit f' = (f, false) ∨
    (f.merge limit f').2 = true ∧ (f.merge limit f').1.room limit < f.room limit := by
  have hslots := mapIdx_room limit (k := fun i mine => mergeSlot limit mine (f'.get? ⟨i⟩)) (l :=
    f.slots.toList)
    fun i o ho => mergeSlot_room limit (fun v hv => by
      obtain ⟨j, hj⟩ := List.getElem?_of_mem (hv ▸ ho)
      rw [Array.getElem?_toList] at hj
      have hlt := (Array.getElem?_eq_some_iff.1 hj).1
      have hget : f.get? ⟨j⟩ = some v := by rw [get?, if_pos hlt, hj]; rfl
      exact hp ⟨j⟩ v hget) _
  have hmerge : f.merge limit f' =
      ({ slots := (f.slots.mapIdx fun i mine => mergeSlot limit mine (f'.get? ⟨i⟩)).map (·.1),
         strays := [] },
        (f.slots.mapIdx fun i mine => mergeSlot limit mine (f'.get? ⟨i⟩)).any (·.2)) := by
    simp [merge, hf.strays, hf'.strays, mergeStrays]
  rw [hmerge]
  simp only [room, Array.toList_map, Array.toList_mapIdx, ← Array.any_toList]
  rcases hslots with ⟨hsame, hany⟩ | ⟨hany, hsum⟩
  · left
    rw [hany, Prod.mk.injEq]
    refine ⟨?_, rfl⟩
    obtain ⟨slots, strays⟩ := f
    obtain rfl : strays = [] := hf.strays
    rw [mk.injEq, ← Array.toList_inj, Array.toList_map, Array.toList_mapIdx]
    exact ⟨hsame, rfl⟩
  · exact .inr ⟨hany, hsum⟩

end Facts

end SpecJit
