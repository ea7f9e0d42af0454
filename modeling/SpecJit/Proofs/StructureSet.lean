import Mathlib.Data.Finset.Basic
import Mathlib.Data.List.Nodup
import Mathlib.Data.List.Perm.Subperm
import SpecJit.Structure

/-!
# Sets of structures

All operations on a set of structures look ids up by halving a window. In a set whose ids ascend the
search finds every member (`Ascending.contains_iff`), and no set of different ids that does not
ascend has that property (`ascending_iff_found`).

A set that was read need not ascend. Inserting an id adds it to the list nevertheless, unless the
search finds it (`mem_insert`), and so a merged set has the members of both (`mem_merge`). Inserting
into a set that ascends keeps it so, and then the order in which sets are merged does not matter
(`Ascending.merge_right_comm`).

All sets that the operations build ascend (`Built.ascending`), and so each operation on them is the
one on their members (`built_actsAsSet`).
-/

namespace SpecJit.StructureSet

variable {s t : StructureSet} {ids : List StructureId} {id x : StructureId} {base size place : Nat}

/-- The ids ascend. -/
def Ascending (s : StructureSet) : Prop := s.ids.Pairwise fun a b => a.index < b.index

instance (s : StructureSet) : Decidable s.Ascending :=
  inferInstanceAs (Decidable (s.ids.Pairwise fun a b => a.index < b.index))

/-! ## Halving a window -/

theorem narrow_of_le (h : size ≤ 1) : narrow ids id base size = base := by
  rw [narrow, if_neg (by omega)]

theorem narrow_of_lt (h : 1 < size) (hm : base + size / 2 < ids.length) : narrow ids id base size =
    if id.index < ids[base + size / 2].index then narrow ids id base (size - size / 2)
    else narrow ids id (base + size / 2) (size - size / 2) := by
  rw [narrow, if_pos h]
  simp only [List.getElem?_eq_getElem hm, Option.any_some, decide_eq_true_eq]
  split <;> rfl

/-- The search stays in the window. -/
theorem narrow_mem (ids : List StructureId) (id : StructureId) (base size : Nat) (h : 0 < size)
    (hlen : base + size ≤ ids.length) :
    base ≤ narrow ids id base size ∧ narrow ids id base size < base + size := by
  induction size using Nat.strongRecOn generalizing base with
  | ind size ih =>
    by_cases hsize : 1 < size
    · rw [narrow_of_lt hsize (by omega)]
      split
      · have := ih (size - size / 2) (by omega) base (by omega) (by omega)
        omega
      · have := ih (size - size / 2) (by omega) (base + size / 2) (by omega) (by omega)
        omega
    · rw [narrow_of_le (by omega)]
      omega

/-- The search comes to the last id of a window that is not above the one that it looks for. -/
theorem narrow_le (hasc : ids.Pairwise fun a b => a.index < b.index) (id : StructureId) (base : Nat)
    (h : 0 < size) (hlen : base + size ≤ ids.length) :
    (∀ i (hi : i < ids.length), narrow ids id base size < i → i < base + size →
      id.index < ids[i].index) ∧
      (narrow ids id base size = base ∨
        ∃ hr : narrow ids id base size < ids.length,
        ids[narrow ids id base size].index ≤ id.index) := by
  induction size using Nat.strongRecOn generalizing base with
  | ind size ih =>
    by_cases hsize : 1 < size
    · have hmid : base + size / 2 < ids.length := by omega
      rw [narrow_of_lt hsize hmid]
      split
      · rename_i habove
        obtain ⟨hright, hleft⟩ := ih (size - size / 2) (by omega) base (by omega) (by omega)
        refine ⟨fun i hi hlt hend => ?_, hleft⟩
        by_cases hin : i < base + (size - size / 2)
        · exact hright i hi hlt hin
        · obtain heq | hbefore : i = base + size / 2 ∨ base + size / 2 < i := by omega
          · subst heq
            exact habove
          · have := List.pairwise_iff_getElem.1 hasc _ _ hmid hi hbefore
            omega
      · rename_i hnot
        obtain ⟨hright, hleft⟩ := ih (size - size / 2) (by omega) (base + size / 2) (by omega)
          (by omega)
        refine ⟨fun i hi hlt hend => hright i hi hlt (by omega), .inr ?_⟩
        rcases hleft with heq | hle
        · exact ⟨by omega, by simp only [heq]; omega⟩
        · exact hle
    · rw [narrow_of_le (by omega)]
      exact ⟨fun i _ hlt hend => absurd hlt (by omega), .inl rfl⟩

/-! ## Looking up an id -/

theorem search_inl {i : Nat} (h : s.search id = .inl i) : id ∈ s.ids := by
  rw [search] at h
  split at h
  · cases h
  · rename_i found hfound
    split at h
    · rename_i heq
      exact heq ▸ List.mem_of_getElem? hfound
    · split at h <;> cases h

theorem search_inr_le (h : s.search id = .inr place) : place ≤ s.ids.length := by
  rw [search] at h
  split at h
  · cases h
    exact Nat.zero_le _
  · rename_i found hfound
    have hlt := (List.getElem?_eq_some_iff.1 hfound).1
    split at h
    · cases h
    · split at h <;> cases h <;> omega

/-- In an ascending set, the ids before the place where an id belongs are below it, and the others
above. -/
theorem Ascending.search_inr (hs : s.Ascending) (h : s.search id = .inr place) :
    (∀ i (hi : i < s.ids.length), i < place → s.ids[i].index < id.index) ∧
      ∀ i (hi : i < s.ids.length), place ≤ i → id.index < s.ids[i].index := by
  rw [search] at h
  split at h
  · rename_i hnone
    cases h
    refine ⟨nofun, fun i hi _ => ?_⟩
    have hin := (narrow_mem s.ids id 0 s.ids.length (Nat.zero_lt_of_lt hi) (by omega)).2
    rw [List.getElem?_eq_none_iff] at hnone
    omega
  · rename_i found hfound
    obtain ⟨hlt, rfl⟩ := List.getElem?_eq_some_iff.1 hfound
    obtain ⟨hright, hleft⟩ := narrow_le hs id 0 (Nat.zero_lt_of_lt hlt) (by omega)
    have hasc := List.pairwise_iff_getElem.1 hs
    split at h
    · cases h
    · rename_i hne
      have hne' : (s.ids[narrow s.ids id 0 s.ids.length]).index ≠ id.index := fun he => hne (by
        cases id
        exact congrArg StructureId.mk he)
      split at h
      · rename_i hbelow
        cases h
        refine ⟨fun i hi hle => ?_, fun i hi hle => hright i hi (by omega) (by omega)⟩
        obtain heq | hbefore : i = narrow s.ids id 0 s.ids.length ∨
          i < narrow s.ids id 0 s.ids.length := by omega
        · subst heq
          exact hbelow
        · have := hasc i _ hi hlt hbefore
          omega
      · rename_i hnot
        cases h
        -- the search has not moved: the first id is above the one looked for
        have hzero : narrow s.ids id 0 s.ids.length = 0 := hleft.resolve_right fun ⟨_, hle⟩ => by
          omega
        refine ⟨fun i hi hlt' => by omega, fun i hi hle => ?_⟩
        obtain heq | hafter : i = narrow s.ids id 0 s.ids.length ∨
          narrow s.ids id 0 s.ids.length < i := by omega
        · subst heq
          omega
        · exact hright i hi hafter (by omega)

/-- An id that belongs somewhere else is not in the set. -/
theorem Ascending.notMem (hs : s.Ascending) (h : s.search id = .inr place) : id ∉ s.ids := by
  intro hmem
  obtain ⟨i, hi, rfl⟩ := List.mem_iff_getElem.1 hmem
  obtain ⟨hbelow, habove⟩ := hs.search_inr h
  by_cases hlt : i < place
  · exact absurd (hbelow i hi hlt) (Nat.lt_irrefl _)
  · exact absurd (habove i hi (by omega)) (Nat.lt_irrefl _)

theorem mem_of_contains (h : s.contains id = true) : id ∈ s.ids := by
  rw [contains] at h
  cases hsearch : s.search id with
  | inl i => exact search_inl hsearch
  | inr place => simp [hsearch] at h

/-- In an ascending set the search finds every member. -/
theorem Ascending.contains_iff (hs : s.Ascending) : s.contains id = true ↔ id ∈ s.ids := by
  refine ⟨mem_of_contains, fun hmem => ?_⟩
  rw [contains]
  cases hsearch : s.search id with
  | inl i => rfl
  | inr place => exact absurd hmem (hs.notMem hsearch)

theorem Ascending.nodup (hs : s.Ascending) : s.ids.Nodup := by
  refine List.Pairwise.imp ?_ hs
  rintro a b hlt rfl
  exact Nat.lt_irrefl _ hlt

/-! ## Sets in which the search finds every member -/

/-- If no id of a window is above the one looked for, the search comes to the last one. -/
theorem narrow_eq_last (h : 0 < size) (hlen : base + size ≤ ids.length)
    (hle : ∀ i (hi : i < ids.length), base ≤ i → i < base + size → ids[i].index ≤ id.index) :
    narrow ids id base size = base + size - 1 := by
  induction size using Nat.strongRecOn generalizing base with
  | ind size ih =>
    by_cases hsize : 1 < size
    · have hmid := hle (base + size / 2) (by omega) (by omega) (by omega)
      rw [narrow_of_lt hsize (by omega), if_neg (by omega),
        ih (size - size / 2) (by omega) (by omega) (by omega)]
      · omega
      · exact fun i hi hbase hend => hle i hi (by omega) (by omega)
    · rw [narrow_of_le (by omega)]
      omega

/-- A window in which the search comes to every id ascends. -/
theorem ascending_of_narrow (base : Nat) (hlen : base + size ≤ ids.length)
    (hfound : ∀ i (hi : i < ids.length), base ≤ i → i < base + size → narrow ids ids[i] base
      size = i)
    {i j : Nat} (hi : i < ids.length) (hj : j < ids.length) (hbase : base ≤ i) (hlt : i < j)
    (hend : j < base + size) :
    ids[i].index < ids[j].index := by
  induction size using Nat.strongRecOn generalizing base i j with
  | ind size ih =>
    have hsize : 1 < size := by omega
    have hm : base + size / 2 < ids.length := by omega
    -- what stands before the middle is below it, and the search goes left for it
    have hleft (k : Nat) (hk : k < ids.length) (hkbase : base ≤ k) (hkm : k < base + size / 2) :
        ids[k].index < ids[base + size / 2].index ∧ narrow ids ids[k] base
          (size - size / 2) = k := by
      have hk' := hfound k hk hkbase (by omega)
      rw [narrow_of_lt hsize hm] at hk'
      split at hk'
      · exact ⟨‹_›, hk'⟩
      · have hmem := narrow_mem ids ids[k] (base + size / 2) (size - size / 2) (by omega) (by omega)
        omega
    have hright (k : Nat) (hk : k < ids.length) (hkm : base + size / 2 ≤ k)
      (hkend : k < base + size) :
        narrow ids ids[k] (base + size / 2) (size - size / 2) = k := by
      have hk' := hfound k hk (by omega) hkend
      rw [narrow_of_lt hsize hm] at hk'
      split at hk'
      · -- the window to the left holds the middle at most
        have hmem := narrow_mem ids ids[k] base (size - size / 2) (by omega) (by omega)
        obtain rfl : k = base + size / 2 := by omega
        omega
      · exact hk'
    have hwindow {k l : Nat} (hk : k < ids.length) (hl : l < ids.length) (hkm : base + size / 2 ≤ k)
      (hkl : k < l)
        (hlend : l < base + size) : ids[k].index < ids[l].index :=
      ih (size - size / 2) (by omega) (base + size / 2) (by omega)
        (fun k hk hkm hkend => hright k hk hkm (by omega))
        hk hl hkm hkl (by omega)
    by_cases hjm : j < base + size / 2
    · refine ih (size - size / 2) (by omega) base (by omega) (fun k hk hkbase hkend => ?_) hi hj
        hbase hlt (by omega)
      by_cases hkm : k < base + size / 2
      · exact (hleft k hk hkbase hkm).2
      · -- a window of odd size shares its middle with the left half
        obtain rfl : k = base + size / 2 := by omega
        rw [narrow_eq_last (by omega) (by omega)]
        · omega
        · intro l hl hlbase hlend
          obtain rfl | hlm : l = base + size / 2 ∨ l < base + size / 2 := by omega
          · exact Nat.le_refl _
          · exact Nat.le_of_lt (hleft l hl hlbase hlm).1
    · by_cases him : i < base + size / 2
      · have hbelow := (hleft i hi hbase him).1
        obtain rfl | hmj : j = base + size / 2 ∨ base + size / 2 < j := by omega
        · exact hbelow
        · exact Nat.lt_trans hbelow (hwindow hm hj (Nat.le_refl _) hmj hend)
      · exact hwindow hi hj (by omega) hlt hend

/-- A set ascends if no id is there twice and the search finds each. -/
theorem ascending_iff_found : s.Ascending ↔ s.ids.Nodup ∧ ∀ id ∈ s.ids, s.contains id = true := by
  refine ⟨fun hs => ⟨hs.nodup, fun id hid => hs.contains_iff.2 hid⟩, fun ⟨hnodup, hfound⟩ => ?_⟩
  have hplace (i : Nat) (hi : i < s.ids.length) : narrow s.ids s.ids[i] 0 s.ids.length = i := by
    have hin := hfound s.ids[i] (List.getElem_mem hi)
    rw [contains, search] at hin
    have hlt := (narrow_mem s.ids s.ids[i] 0 s.ids.length (Nat.zero_lt_of_lt hi) (by omega)).2
    rw [Nat.zero_add] at hlt
    rw [List.getElem?_eq_getElem hlt] at hin
    dsimp only at hin
    split at hin
    · rename_i heq
      exact (List.Nodup.getElem_inj_iff hnodup).1 heq
    · split at hin <;> cases hin
  exact List.pairwise_iff_getElem.2 fun i j hi hj hlt =>
    ascending_of_narrow 0 (by omega) (fun i hi _ _ => hplace i hi) hi hj (by omega) hlt (by omega)

/-! ## Adding ids -/

theorem insert_of_inl {i : Nat} (h : s.search id = .inl i) : s.insert id = (s, false) := by
  simp [insert, h]

theorem insert_of_inr (h : s.search id = .inr place) :
    s.insert id = (⟨s.ids.insertIdx place id⟩, true) := by
  simp [insert, h]

/-- A set gets one id more, or it has the id and stays as it is. -/
theorem insert_cases (s : StructureSet) (id : StructureId) :
    (id ∈ s.ids ∧ s.insert id = (s, false)) ∨ (s.insert id).2 = true ∧
    (s.insert id).1.size = s.size + 1 := by
  cases h : s.search id with
  | inl i => exact .inl ⟨search_inl h, insert_of_inl h⟩
  | inr place =>
    rw [insert_of_inr h]
    exact .inr ⟨rfl, List.length_insertIdx_of_le_length (search_inr_le h) id⟩

theorem mem_insert : x ∈ (s.insert id).1.ids ↔ x = id ∨ x ∈ s.ids := by
  cases h : s.search id with
  | inl i =>
    rw [insert_of_inl h]
    refine ⟨.inr, ?_⟩
    rintro (rfl | hx)
    · exact search_inl h
    · exact hx
  | inr place =>
    rw [insert_of_inr h]
    exact List.mem_insertIdx (search_inr_le h)

/-- Adding ids in turn, as `merge` does. -/
def insertAll (l : List StructureId) (s : StructureSet × Bool) : StructureSet × Bool :=
  l.foldl (fun (s, changed) id => let (s, isNew) := s.insert id; (s, changed || isNew)) s

theorem insertAll_cons (id : StructureId) (l : List StructureId) (s : StructureSet) (changed : Bool)
    :
    insertAll (id :: l) (s, changed) = insertAll l ((s.insert id).1, changed || (s.insert id).2) :=
      rfl

theorem merge_eq (s other : StructureSet) : s.merge other = insertAll other.ids (s, false) := rfl

theorem mem_insertAll {l : List StructureId} {changed : Bool} :
    x ∈ (insertAll l (s, changed)).1.ids ↔ x ∈ s.ids ∨ x ∈ l := by
  induction l generalizing s changed with
  | nil => simp [insertAll]
  | cons id l ih =>
    rw [insertAll_cons, ih, mem_insert, List.mem_cons, or_assoc, or_left_comm]

/-- The set stays as it is, or it grows and this is noticed. -/
theorem insertAll_cases (l : List StructureId) (s : StructureSet) (changed : Bool) :
    insertAll l (s, changed) = (s, changed) ∨
      (insertAll l (s, changed)).2 = true ∧ s.size < (insertAll l (s, changed)).1.size := by
  induction l generalizing s changed with
  | nil => exact .inl rfl
  | cons id l ih =>
    rw [insertAll_cons]
    rcases insert_cases s id with ⟨-, hsame⟩ | ⟨hnew, hsize⟩
    · rw [hsame, Bool.or_false]
      exact ih s changed
    · rw [hnew, Bool.or_true]
      rcases ih (s.insert id).1 true with hrest | ⟨hrest, hgrown⟩
      · rw [hrest]
        have hlt : s.size < (s.insert id).1.size := by omega
        exact .inr ⟨rfl, hlt⟩
      · exact .inr ⟨hrest, by omega⟩

theorem mem_merge : x ∈ (s.merge t).1.ids ↔ x ∈ s.ids ∨ x ∈ t.ids := by
  rw [merge_eq]
  exact mem_insertAll

/-- The set stays as it is, or it grows and this is noticed. -/
theorem merge_cases (s t : StructureSet) :
    s.merge t = (s, false) ∨ (s.merge t).2 = true ∧ s.size < (s.merge t).1.size := by
  rw [merge_eq]
  exact insertAll_cases t.ids s false

theorem merge_snd : (s.merge t).2 = true ↔ (s.merge t).1 ≠ s := by
  rcases merge_cases s t with hsame | ⟨hchanged, hgrown⟩
  · simp [hsame]
  · exact iff_of_true hchanged fun heq => Nat.lt_irrefl _ (heq ▸ hgrown)

theorem size_le_merge (s t : StructureSet) : s.size ≤ (s.merge t).1.size := by
  rcases merge_cases s t with hsame | ⟨-, hgrown⟩
  · simp [hsame]
  · exact Nat.le_of_lt hgrown

/-! ## Unions of ascending sets -/

theorem Ascending.insert (hs : s.Ascending) (id : StructureId) : (s.insert id).1.Ascending := by
  cases h : s.search id with
  | inl i =>
    rw [insert_of_inl h]
    exact hs
  | inr place =>
    rw [insert_of_inr h]
    obtain ⟨hbelow, habove⟩ := hs.search_inr h
    have hasc := List.pairwise_iff_getElem.1 hs
    refine List.pairwise_iff_getElem.2 fun i j hi hj hlt => ?_
    have hend : j < s.ids.length + 1 := by
      rwa [List.length_insertIdx_of_le_length (search_inr_le h)] at hj
    simp only [List.getElem_insertIdx]
    -- each of the two places is before the new id, at it, or after it
    rcases Nat.lt_trichotomy i place with hi' | rfl | hi'
    · rw [dif_pos hi']
      rcases Nat.lt_trichotomy j place with hj' | rfl | hj'
      · rw [dif_pos hj']
        exact hasc i j _ _ hlt
      · rw [dif_neg (Nat.lt_irrefl _), dif_pos rfl]
        exact hbelow i _ hi'
      · rw [dif_neg (by omega), dif_neg (by omega)]
        exact hasc i (j - 1) _ _ (by omega)
    · rw [dif_neg (Nat.lt_irrefl _), dif_pos rfl, dif_neg (by omega), dif_neg (by omega)]
      exact habove (j - 1) _ (by omega)
    · rw [dif_neg (by omega), dif_neg (by omega), dif_neg (by omega), dif_neg (by omega)]
      exact hasc (i - 1) (j - 1) _ _ (by omega)

theorem Ascending.merge (hs : s.Ascending) (t : StructureSet) : (s.merge t).1.Ascending := by
  have hall (l : List StructureId) : ∀ {s : StructureSet} {changed : Bool}, s.Ascending →
      (insertAll l (s, changed)).1.Ascending := by
    induction l with
    | nil => exact fun hs => hs
    | cons id l ih => exact fun hs => ih (hs.insert id)
  exact hall t.ids hs

/-- An ascending set is determined by its members. -/
theorem Ascending.eq_of_mem (hs : s.Ascending) (ht : t.Ascending)
    (h : ∀ id, id ∈ s.ids ↔ id ∈ t.ids) : s = t := by
  have hperm : s.ids.Perm t.ids := (List.perm_ext_iff_of_nodup hs.nodup ht.nodup).2 h
  have hids : s.ids = t.ids :=
    hperm.eq_of_pairwise (fun a b _ _ hab hba => absurd (Nat.lt_trans hab hba) (Nat.lt_irrefl _)) hs
      ht
  cases s
  exact congrArg StructureSet.mk hids

theorem Ascending.merge_comm (hs : s.Ascending) (ht : t.Ascending) :
    (s.merge t).1 = (t.merge s).1 :=
  (hs.merge t).eq_of_mem (ht.merge s) fun _ => by rw [mem_merge, mem_merge, or_comm]

theorem Ascending.merge_right_comm (hs : s.Ascending) (t u : StructureSet) :
    ((s.merge t).1.merge u).1 = ((s.merge u).1.merge t).1 :=
  ((hs.merge t).merge u).eq_of_mem ((hs.merge u).merge t) fun _ => by
    simp only [mem_merge, or_right_comm]

/-! ## Dropping ids -/

theorem filter_fst (s t : StructureSet) : (s.filter t).1 = ⟨s.ids.filter t.contains⟩ := rfl

/-- A set gets smaller unless all its ids are kept. -/
theorem filter_snd : (s.filter t).2 = true ↔ (s.filter t).1 ≠ s := by
  have hsublist : (s.ids.filter t.contains).Sublist s.ids := List.filter_sublist
  rw [filter_fst, filter, bne_iff_ne, not_iff_not]
  constructor
  · intro hlength
    rw [hsublist.eq_of_length hlength.symm]
  · intro heq
    exact congrArg (·.ids.length) heq.symm

theorem Ascending.filter (hs : s.Ascending) (t : StructureSet) : (s.filter t).1.Ascending :=
  List.Pairwise.sublist List.filter_sublist hs

/-! ## Members -/

/-- The ids of a set, without their order. -/
def members (s : StructureSet) : Finset StructureId := s.ids.toFinset

@[simp] theorem mem_members : id ∈ s.members ↔ id ∈ s.ids := List.mem_toFinset

theorem members_insert (s : StructureSet) (id : StructureId) :
    (s.insert id).1.members = s.members ∪ {id} := by
  ext x
  rw [mem_members, mem_insert, Finset.mem_union, Finset.mem_singleton, mem_members, or_comm]

theorem members_merge (s t : StructureSet) : (s.merge t).1.members = s.members ∪ t.members := by
  ext x
  simp [mem_merge]

theorem Ascending.members_filter (s : StructureSet) (ht : t.Ascending) :
    (s.filter t).1.members = s.members ∩ t.members := by
  ext x
  simp [filter_fst, ht.contains_iff]

theorem Ascending.isSubsetOf_iff (s : StructureSet) (ht : t.Ascending) :
    s.isSubsetOf t = true ↔ s.members ⊆ t.members := by
  simp [isSubsetOf, Finset.subset_iff, ht.contains_iff]

theorem Ascending.members_inj (hs : s.Ascending) (ht : t.Ascending) :
    s.members = t.members ↔ s = t := by
  refine ⟨fun h => hs.eq_of_mem ht fun id => ?_, congrArg members⟩
  rw [← mem_members, ← mem_members, h]

/-- An id is new if it was no member. -/
theorem Ascending.insert_snd (hs : s.Ascending) :
    (s.insert id).2 = true ↔ (s.insert id).1.members ≠ s.members := by
  rw [Ne, (hs.insert id).members_inj hs]
  rcases insert_cases s id with ⟨-, hsame⟩ | ⟨hnew, hsize⟩
  · simp [hsame]
  · exact iff_of_true hnew fun heq => by simp [heq] at hsize

/-! ## Sets that are built -/

/-- The sets that the operations make, from no set that was read: the empty set, sets of one id,
those of a list of ids, and what inserting, merging and filtering make of them. -/
inductive Built : StructureSet → Prop
  | empty : Built .empty
  | singleton (id : StructureId) : Built (.singleton id)
  | ofList (ids : List StructureId) : Built (.ofList ids)
  | insert {s : StructureSet} (hs : Built s) (id : StructureId) : Built (s.insert id).1
  | merge {s t : StructureSet} (hs : Built s) (ht : Built t) : Built (s.merge t).1
  | filter {s t : StructureSet} (hs : Built s) (ht : Built t) : Built (s.filter t).1

theorem empty_ascending : Ascending .empty := List.Pairwise.nil

theorem ofList_ascending (ids : List StructureId) : (ofList ids).Ascending := by
  have hfold (s : StructureSet) (hs : s.Ascending) :
    (ids.foldl (fun s id => (s.insert id).1) s).Ascending := by
    induction ids generalizing s with
    | nil => exact hs
    | cons id ids ih => exact ih _ (hs.insert id)
  exact hfold _ empty_ascending

theorem Built.ascending (h : s.Built) : s.Ascending := by
  induction h with
  | empty => exact empty_ascending
  | singleton id => exact List.pairwise_singleton _ id
  | ofList ids => exact ofList_ascending ids
  | insert hs id ih => exact ih.insert id
  | merge hs ht ih _ => exact ih.merge _
  | filter hs ht ih _ => exact ih.filter _

/-- The list of ids stands for the set of its members: it is in strictly ascending order, the
queries answer what they should of the members, the operations are those on the members, and a
change is reported exactly if there is one. -/
structure ActsAsSet (s t : StructureSet) : Prop where
  ascending : s.Ascending
  contains_iff : ∀ id, s.contains id = true ↔ id ∈ s.members
  isSubsetOf_iff : s.isSubsetOf t = true ↔ s.members ⊆ t.members
  eq_iff : s = t ↔ s.members = t.members
  insert : ∀ id, (s.insert id).1.members = s.members ∪ {id} ∧
    ((s.insert id).2 = true ↔ (s.insert id).1.members ≠ s.members)
  merge : (s.merge t).1.members = s.members ∪ t.members ∧
    ((s.merge t).2 = true ↔ (s.merge t).1.members ≠ s.members)
  filter : (s.filter t).1.members = s.members ∩ t.members ∧
    ((s.filter t).2 = true ↔ (s.filter t).1.members ≠ s.members)

/-- Sets that the operations made act as sets. -/
theorem built_actsAsSet (hs : s.Built) (ht : t.Built) : ActsAsSet s t where
  ascending := hs.ascending
  contains_iff id := by rw [hs.ascending.contains_iff, mem_members]
  isSubsetOf_iff := ht.ascending.isSubsetOf_iff s
  eq_iff := (hs.ascending.members_inj ht.ascending).symm
  insert id := ⟨members_insert s id, hs.ascending.insert_snd⟩
  merge :=
    ⟨members_merge s t, by rw [merge_snd, Ne, Ne, (hs.ascending.merge t).members_inj hs.ascending]⟩
  filter := ⟨ht.ascending.members_filter s, by
    rw [filter_snd, Ne, Ne, (hs.ascending.filter t).members_inj hs.ascending]⟩

/-- Three ids that were put in out of order, of which one is kept, and two others. -/
theorem built_actsAsSet_five :
    let s := ((ofList [⟨7⟩, ⟨2⟩, ⟨5⟩]).filter (ofList [⟨9⟩, ⟨5⟩])).1
    let t := ((singleton ⟨9⟩).merge ((ofList []).insert ⟨5⟩).1).1
    s.ids = [⟨5⟩] ∧ t.ids = [⟨5⟩, ⟨9⟩] ∧ s.Built ∧ t.Built ∧ ActsAsSet s t :=
  have hs : (((ofList [⟨7⟩, ⟨2⟩, ⟨5⟩]).filter (ofList [⟨9⟩, ⟨5⟩])).1).Built :=
    .filter (.ofList _) (.ofList _)
  have ht : (((singleton ⟨9⟩).merge ((ofList []).insert ⟨5⟩).1).1).Built :=
    .merge (.singleton _) (.insert (.ofList _) _)
  ⟨by decide +kernel, by decide +kernel, hs, ht, built_actsAsSet hs ht⟩

end SpecJit.StructureSet
