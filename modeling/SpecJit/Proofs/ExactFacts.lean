import SpecJit.Proofs.Admission
import SpecJit.Proofs.Execution
import SpecJit.Proofs.Fixpoint.Rounds

/-!
# Facts with constants are exact

A fact that names a constant allows only kinds that the constant can have (`AbstractValue.Exact`).
The fact that a node gives its value is exact if the facts about its uses are, and narrowing and
merging keep facts exact, so that all facts of the analysis are (`fixpoint_exact`).

The uses of a node narrow the facts before its effect is applied (`filterUses_narrows`). What a
narrowed fact admits is admitted by the fact that it came from, so that code that is built under the
facts before the node may rely on those, too.
-/

namespace SpecJit

namespace AbstractValue

variable {layout : ObjectLayout} {memory : Lir.Memory} {v v' v'' : AbstractValue} {w : Word}

/-- The fact allows no more kinds than another one and has its constant, or it allows none. -/
structure Narrows (v v' : AbstractValue) : Prop where
  ty : v.ty.isSubsetOf v'.ty = true
  value : v.value = v'.value ∨ v.ty.isEmpty = true

theorem Narrows.refl (v : AbstractValue) : v.Narrows v := ⟨SpecType.subset_refl _, .inl rfl⟩

theorem Narrows.trans (h : v.Narrows v') (h' : v'.Narrows v'') : v.Narrows v'' where
  ty := SpecType.subset_trans h.ty h'.ty
  value := by
    rcases h.value with hv | hempty
    · rcases h'.value with hv' | hempty'
      · exact .inl (hv.trans hv')
      · refine .inr ?_
        rw [← Bool.not_eq_false]
        intro hne
        rw [SpecType.not_isEmpty_of_subset h.ty hne] at hempty'
        cases hempty'
    · exact .inr hempty

theorem filter_narrows (v : AbstractValue) (mask : SpecType) : (v.filter mask).Narrows v := by
  by_cases hpossible : v.value.all (constantMatches (v.ty &&& mask) mask) = true
  · refine ⟨?_, .inl ?_⟩
    · simp only [filter, hpossible, if_true]
      exact SpecType.and_subset_left
    · simp only [filter, hpossible, if_true]
  · have hty : (v.filter mask).ty = .none := by
      simp only [filter, hpossible, if_false, Bool.false_eq_true]
    exact ⟨by rw [hty]; simp [SpecType.isSubsetOf, SpecType.none], .inr (by rw [hty]; rfl)⟩

/-- What a fact admits is admitted by the ones that it narrows. -/
theorem Admits.of_narrows (h : v.Admits layout memory w) (hn : v.Narrows v') :
    v'.Admits layout memory w where
  number hw := SpecType.overlaps_mono (h.number hw) hn.ty (SpecType.subset_refl _)
  other hw := SpecType.subset_trans (h.other hw) hn.ty
  constant c hc := by
    rcases hn.value with hv | hempty
    · exact h.constant c (hv.trans hc)
    · rw [h.isEmpty_eq_false] at hempty
      cases hempty

end AbstractValue

namespace AbstractState

variable {g : Graph} {s s' : AbstractState} {es : List Edge} {e : Edge} {id : NodeId}
  {v : AbstractValue} {mask : SpecType}

theorem filter_narrows (h : s.filter g id mask = .ok s') {x : NodeId} (hv : s'.factOf g x = .ok v) :
    ∃ v', s.factOf g x = .ok v' ∧ v.Narrows v' := by
  obtain ⟨v', hv', rfl⟩ := exists_of_filter h
  by_cases hx : x = id
  · subst hx
    rw [factOf_narrowTo] at hv
    cases hv
    exact ⟨v', hv', v'.filter_narrows mask⟩
  · rw [factOf_narrowTo_ne _ _ hx] at hv
    exact ⟨v, hv, .refl v⟩

/-- The use of a node that is not untyped narrows it. -/
theorem filterUses_cons (h : filterUses g (e :: es) s = .ok s') :
    (e.useKind = .untyped ∧ filterUses g es s = .ok s') ∨
    ∃ s₁, s.filter g e.node e.useKind.typeFilter = .ok s₁ ∧
    (s₁.valid = true ∧ filterUses g es s₁ = .ok s' ∨
      s₁.valid = false ∧ s' = s₁) := by
  rw [filterUses] at h
  split at h
  · rename_i hk
    exact .inl ⟨beq_iff_eq.1 hk, h⟩
  · obtain ⟨s₁, h₁, h⟩ := bind_eq_ok_iff.1 h
    refine .inr ⟨s₁, h₁, ?_⟩
    cases hvalid : s₁.valid with
    | true =>
      rw [if_pos hvalid] at h
      exact .inl ⟨rfl, h⟩
    | false =>
      rw [if_neg (by simp [hvalid])] at h
      cases h
      exact .inr ⟨rfl, rfl⟩

/-- Narrowing what a node uses narrows facts. -/
theorem filterUses_narrows (h : filterUses g es s = .ok s') {x : NodeId}
    (hv : s'.factOf g x = .ok v) :
    ∃ v', s.factOf g x = .ok v' ∧ v.Narrows v' := by
  induction es generalizing s with
  | nil =>
    cases h
    exact ⟨v, hv, .refl v⟩
  | cons e es ih =>
    rcases filterUses_cons h with ⟨-, h⟩ | ⟨s₁, h₁, ⟨-, h⟩ | ⟨-, rfl⟩⟩
    · exact ih h
    · obtain ⟨v₁, hv₁, hn₁⟩ := ih h
      obtain ⟨v', hv', hn'⟩ := filter_narrows h₁ hv₁
      exact ⟨v', hv', hn₁.trans hn'⟩
    · exact filter_narrows h₁ hv

/-- After that every use has the kinds that it asks for. -/
theorem filterUses_subset (h : filterUses g es s = .ok s') (hvalid : s'.valid = true) (he : e ∈ es)
    (hk : e.useKind ≠ .untyped) (hv : s'.factOf g e.node = .ok v) :
    v.ty.isSubsetOf e.useKind.typeFilter = true := by
  induction es generalizing s with
  | nil => cases he
  | cons e' es ih =>
    rcases filterUses_cons h with ⟨huntyped, hrest⟩ | ⟨s₁, h₁, ⟨-, hrest⟩ | ⟨hinvalid, rfl⟩⟩
    · rcases List.mem_cons.1 he with rfl | he
      · exact absurd huntyped hk
      · exact ih hrest he
    · rcases List.mem_cons.1 he with rfl | he
      · obtain ⟨v₁, hv₁, hn⟩ := filterUses_narrows hrest hv
        obtain ⟨v', -, hs₁⟩ := exists_of_filter h₁
        rw [hs₁, factOf_narrowTo] at hv₁
        cases hv₁
        exact SpecType.subset_trans hn.ty (v'.filter_ty_subset _)
      · exact ih hrest he
    · rw [hinvalid] at hvalid
      cases hvalid

end AbstractState

variable {g : Graph} {s s' : AbstractState} {f f' : Facts} {id : NodeId} {node : Node}
  {v v' : AbstractValue} {c : FrozenValue}

/-! ## Kinds of constants -/

theorem SpecType.subset_of_isEmpty {a b : SpecType} (h : a.isEmpty = true) :
    a.isSubsetOf b = true := by
  rw [isEmpty, beq_iff_eq] at h
  simp [isSubsetOf, h]

theorem SpecType.none_subset (a : SpecType) : SpecType.none.isSubsetOf a = true :=
  subset_of_isEmpty (by decide)

theorem SpecType.or_subset {a b c : SpecType} (ha : a.isSubsetOf c = true)
    (hb : b.isSubsetOf c = true) :
    (a ||| b).isSubsetOf c = true := by
  rw [isSubsetOf_iff] at ha hb ⊢
  intro i hi
  rw [getLsbD_or, Bool.or_eq_true] at hi
  exact hi.elim (ha i) (hb i)

theorem SpecType.without_subset {a b : SpecType} : (a.without b).isSubsetOf a = true := by
  rw [isSubsetOf_iff]
  intro i hi
  change (a.bits &&& ~~~b.bits).toBitVec.getLsbD i = true at hi
  simp_all

theorem SpecType.ofCellType_subset_cell (cellType : CellType) :
    (SpecType.ofCellType cellType).isSubsetOf .cell = true := by
  cases cellType with
  | typedArray kind => cases kind <;> rfl
  | _ => rfl

theorem SpecType.ofDouble_subset_allKinds (d : Double) :
    (SpecType.ofDouble d).isSubsetOf (FrozenValue.double d).allKinds = true := by
  rw [FrozenValue.allKinds]
  cases hnan : d.isNaN with
  | true =>
    rw [if_pos rfl, SpecType.ofDouble, if_pos hnan]
    split <;> decide
  | false =>
    rw [if_neg Bool.false_ne_true]
    rcases SpecType.ofDouble_eq_or hnan with heq | heq <;> rw [heq] <;> decide

theorem FrozenValue.specType_subset (registry : Registry) (c : FrozenValue) :
    (c.specType registry).isSubsetOf c.allKinds = true := by
  cases c with
  | double d => exact SpecType.ofDouble_subset_allKinds d
  | int32 n => exact SpecType.subset_refl _
  | cell c =>
    simp only [specType, allKinds, kinds, cellSpecType]
    split
    · split <;> decide
    · split
      · decide
      · split
        · decide
        · exact SpecType.ofCellType_subset_cell _
  | _ => exact SpecType.subset_refl _

namespace AbstractValue

/-! ## One fact -/

theorem exact_of_none (h : v.value = none) : v.Exact := by
  intro c hc
  rw [h] at hc
  cases hc

theorem exact_constant (registry : Registry) (c : FrozenValue) : (constant registry c).Exact := by
  intro c' hc
  obtain rfl : c = c' := Option.some.inj hc
  exact c.specType_subset registry

theorem Exact.of_narrows (h : v'.Exact) (hn : v.Narrows v') : v.Exact := by
  intro c hc
  rcases hn.value with hv | hempty
  · exact SpecType.subset_trans hn.ty (h c (hv.symm.trans hc))
  · exact SpecType.subset_of_isEmpty hempty

theorem Exact.filter (h : v.Exact) (mask : SpecType) : (v.filter mask).Exact :=
  h.of_narrows (v.filter_narrows mask)

theorem filterStructures_narrows (v : AbstractValue) (set : StructureSet) :
    (v.filterStructures set).Narrows v := by
  refine ⟨?_, .inl rfl⟩
  rw [filterStructures]
  dsimp only
  split
  · exact SpecType.none_subset _
  · exact SpecType.and_subset_left

theorem Exact.filterStructures (h : v.Exact) (set : StructureSet) :
    (v.filterStructures set).Exact :=
  h.of_narrows (v.filterStructures_narrows set)

theorem Exact.filterValue (h : v.Exact) (registry : Registry) (c : FrozenValue) :
    (v.filterValue registry c).Exact := by
  have hkinds : (v.ty &&& (constant registry c).ty).isSubsetOf c.allKinds = true :=
    SpecType.subset_trans SpecType.and_subset_right (c.specType_subset registry)
  -- once the kinds are those of the constant, it may be named
  have hnamed {ty : SpecType} {structures : StructureFact}
    (hty : ty.isSubsetOf (v.ty &&& (constant registry c).ty) = true) :
      ({ ty, structures, value := some c } : AbstractValue).Exact := by
    intro c' hc
    obtain rfl : c = c' := Option.some.inj hc
    exact SpecType.subset_trans hty hkinds
  have hnarrow : ({ v with ty := v.ty &&& (constant registry c).ty } : AbstractValue).Exact :=
    h.of_narrows ⟨SpecType.and_subset_left, .inl rfl⟩
  have hnone : ({ v with ty := .none } : AbstractValue).Exact :=
    h.of_narrows { ty := SpecType.none_subset v.ty, value := .inl rfl }
  rw [AbstractValue.filterValue]
  split
  · exact hnone
  · dsimp only
    split
    · exact hnarrow
    · split
      · exact hnamed (SpecType.subset_refl _)
      · split
        · exact hnarrow.filterStructures _
        · exact hnamed (filterStructures_narrows _ _).ty

theorem Exact.structures (h : v.Exact) (structures : StructureFact) :
    ({ v with structures } : AbstractValue).Exact := h

theorem Exact.clobberStructures (h : v.Exact) : v.clobberStructures.Exact := by
  unfold AbstractValue.clobberStructures
  split
  · exact h
  · exact h

theorem Exact.merge (h : v.Exact) (h' : v'.Exact) (limit : Nat) : (v.merge limit v').1.Exact := by
  unfold AbstractValue.merge
  split
  · exact h
  · split
    · exact h'
    · intro c hc
      by_cases hdropped : (v.value.isSome && v.value != v'.value) = true
      · simp [hdropped] at hc
      · simp only [hdropped, Bool.false_eq_true, if_false] at hc
        have hc' : some c = v'.value := by simpa [hc, bne] using hdropped
        exact SpecType.or_subset (h c hc) (h' c hc'.symm)

/-! ## Conversions -/

theorem allKinds_overlaps_impureNaN (h : c.allKinds.overlaps .doubleImpureNaN = true) :
    c.allKinds = .union .doublePureNaN .doubleImpureNaN := by
  cases c with
  | double d =>
    rw [FrozenValue.allKinds] at h ⊢
    split at h
    · rw [if_pos ‹_›]
    · exact absurd h (by decide)
  | int32 n =>
    exact absurd (SpecType.overlaps_mono h (SpecType.ofInt32_subset n) (SpecType.subset_refl _))
      (by decide)
  | _ =>
    refine absurd h ?_
    simp only [FrozenValue.allKinds, FrozenValue.kinds, FrozenValue.specType]
    decide

/-- The kinds that numbers of some kinds are converted to. -/
theorem toDouble_subset {t r : SpecType} (hnumber : t.isSubsetOf .fullNumber = true)
    (hdouble : (t &&& .fullDouble).isSubsetOf r = true)
    (hint : t.overlaps .machineInt = true → SpecType.int52AsDouble.isSubsetOf r = true) :
    t.toDouble.isSubsetOf r = true := by
  have hno {k : SpecType} (hk : SpecType.fullNumber.overlaps k = false) : t.overlaps k = false := by
    rw [← Bool.not_eq_true]
    intro hover
    rw [SpecType.overlaps_mono hover hnumber (SpecType.subset_refl _)] at hk
    cases hk
  rw [SpecType.toDouble, hno (k := .boolean) (by decide), hno (k := .other) (by decide)]
  rw [if_neg Bool.false_ne_true, if_neg Bool.false_ne_true]
  split
  · exact SpecType.or_subset hdouble (hint ‹_›)
  · exact hdouble

theorem Exact.toDouble (h : v.Exact) : ({ AbstractValue.ofType v.ty.toDouble with
    value := (v.value.bind FrozenValue.asNumber?).map FrozenValue.double } :
      AbstractValue).Exact := by
  intro c' hc'
  obtain ⟨d, hd, rfl⟩ := Option.map_eq_some_iff.1 hc'
  obtain ⟨c, hc, hnumber⟩ := Option.bind_eq_some_iff.1 hd
  have hty := h c hc
  change v.ty.toDouble.isSubsetOf _ = true
  cases c with
  | int32 n =>
    cases hnumber
    have hint : v.ty.isSubsetOf .int32 = true :=
      SpecType.subset_trans hty (SpecType.ofInt32_subset n)
    rw [FrozenValue.allKinds, Double.isNaN_ofInt, if_neg Bool.false_ne_true]
    refine toDouble_subset (SpecType.subset_trans hint (by decide)) ?_ fun _ => by decide
    refine SpecType.subset_trans (b := SpecType.int32 &&& .fullDouble) ?_ (by decide)
    exact SpecType.subset_and (SpecType.subset_trans SpecType.and_subset_left hint)
      SpecType.and_subset_right
  | double d =>
    cases hnumber
    refine toDouble_subset (SpecType.subset_trans hty ?_)
      (SpecType.subset_trans SpecType.and_subset_left hty) fun hover => ?_
    · rw [FrozenValue.allKinds]
      split <;> decide
    · have hover := SpecType.overlaps_mono hover hty (SpecType.subset_refl _)
      rw [FrozenValue.allKinds] at hover ⊢
      split at hover
      · exact absurd hover (by decide)
      · rw [if_neg ‹_›]
        decide
  | _ => cases hnumber

theorem Exact.booleansAsNumbers (h : v.Exact) : ({ AbstractValue.ofType v.ty.booleansAsNumbers with
    value := v.value.map fun
      | .boolean b => .int32 (if b then 1 else 0)
      | c => c } : AbstractValue).Exact := by
  intro c' hc'
  obtain ⟨c, hc, rfl⟩ := Option.map_eq_some_iff.1 hc'
  have hty := h c hc
  have hrest : (v.ty.without .boolean).isSubsetOf c.allKinds = true :=
    SpecType.subset_trans SpecType.without_subset hty
  cases c with
  | boolean b =>
    have hnone : (v.ty.without .boolean).isSubsetOf .none = true := by
      rw [SpecType.isSubsetOf_iff] at hty ⊢
      intro i hi
      have hbit := hty i (SpecType.isSubsetOf_iff.1 SpecType.without_subset i hi)
      change (v.ty.bits &&& ~~~SpecType.boolean.bits).toBitVec.getLsbD i = true at hi
      change SpecType.boolean.bits.toBitVec.getLsbD i = true at hbit
      simp [hbit] at hi
    have hkinds : SpecType.boolInt32.isSubsetOf (FrozenValue.int32 (if b then 1 else 0)).allKinds
      = true := by cases b <;> decide
    refine SpecType.subset_trans ?_ hkinds
    change v.ty.booleansAsNumbers.isSubsetOf _ = true
    rw [SpecType.booleansAsNumbers]
    split
    · exact SpecType.or_subset (SpecType.subset_trans hnone (SpecType.none_subset _))
        (SpecType.subset_refl _)
    · exact SpecType.subset_trans hnone (SpecType.none_subset _)
  | _ =>
    have hno : v.ty.overlaps .boolean = false := by
      rw [← Bool.not_eq_true]
      intro hover
      have hover := SpecType.overlaps_mono hover hty (SpecType.subset_refl _)
      simp only [FrozenValue.allKinds, FrozenValue.kinds, FrozenValue.specType, SpecType.ofInt32]
        at hover
      revert hover
      first | decide | (split <;> decide)
    change v.ty.booleansAsNumbers.isSubsetOf _ = true
    rw [SpecType.booleansAsNumbers, hno]
    exact hrest

theorem Exact.purified (h : v.Exact) : ({ v with ty := v.ty.purified } : AbstractValue).Exact := by
  intro c hc
  have hty := h c hc
  dsimp only
  rw [SpecType.purified]
  split
  · rename_i himpure
    have hkinds :=
      allKinds_overlaps_impureNaN (SpecType.overlaps_mono himpure hty (SpecType.subset_refl _))
    refine SpecType.or_subset (SpecType.subset_trans SpecType.without_subset hty) ?_
    rw [hkinds]
    decide
  · exact hty

end AbstractValue

/-! ## Facts at a point -/

namespace Facts

/-- All facts are exact. -/
structure Exact (f : Facts) : Prop where
  slots : ∀ v, some v ∈ f.slots → v.Exact
  strays : ∀ p ∈ f.strays, p.2.Exact

theorem exact_empty (g : Graph) : (empty g).Exact := by
  refine ⟨fun v hv => ?_, by simp [empty]⟩
  have hnone : some v = none := Array.eq_of_mem_replicate hv
  cases hnone

theorem mem_of_lookup {l : List (NodeId × AbstractValue)} (h : l.lookup id = some v) :
    ∃ p ∈ l, p.2 = v := by
  obtain ⟨l₁, l₂, rfl, -⟩ := List.lookup_eq_some_iff.1 h
  exact ⟨(id, v), by simp, rfl⟩

theorem Exact.get? (h : f.Exact) (hv : f.get? id = some v) : v.Exact := by
  unfold Facts.get? at hv
  split at hv
  · rw [Option.join_eq_some_iff] at hv
    exact h.slots v (Array.mem_of_getElem? hv)
  · obtain ⟨p, hp, rfl⟩ := mem_of_lookup hv
    exact h.strays p hp

theorem exact_setStray {strays : List (NodeId × AbstractValue)} (h : ∀ p ∈ strays, p.2.Exact)
    (hv : v.Exact) (id : NodeId) :
    ∀ p ∈ setStray strays id v, p.2.Exact := by
  intro p hp
  rcases List.mem_cons.1 hp with rfl | hp
  · exact hv
  · exact h p (List.mem_of_mem_filter hp)

theorem Exact.set (h : f.Exact) (hv : v.Exact) (id : NodeId) : (f.set id v).Exact := by
  unfold Facts.set
  split
  · refine ⟨fun v' hv' => ?_, h.strays⟩
    rcases Array.mem_or_eq_of_mem_setIfInBounds hv' with hv' | hv'
    · exact h.slots v' hv'
    · cases hv'
      exact hv
  · exact ⟨h.slots, exact_setStray h.strays hv id⟩

theorem Exact.map (h : f.Exact) {k : AbstractValue → AbstractValue}
    (hk : ∀ v : AbstractValue, v.Exact → (k v).Exact) :
    (f.map k).Exact := by
  refine ⟨fun v hv => ?_, fun p hp => ?_⟩
  · obtain ⟨o, ho, hov⟩ := Array.mem_map.1 hv
    obtain ⟨u, rfl, rfl⟩ := Option.map_eq_some_iff.1 hov
    exact hk u (h.slots u ho)
  · obtain ⟨q, hq, rfl⟩ := List.mem_map.1 hp
    exact hk q.2 (h.strays q hq)

theorem mergeSlot_exact {limit : Nat} {o o' : Option AbstractValue} (ho : ∀ v, o = some v → v.Exact)
    (ho' : ∀ v, o' = some v → v.Exact) (hv : (mergeSlot limit o o').1 = some v) : v.Exact := by
  cases o' with
  | none => exact ho v hv
  | some theirs =>
    cases o with
    | none =>
      rw [mergeSlot] at hv
      split at hv
      · cases hv
      · exact ho' v hv
    | some mine =>
      obtain rfl := Option.some.inj hv
      exact (ho mine rfl).merge (ho' theirs rfl) limit

theorem mergeStrays_exact {limit : Nat} {mine theirs : List (NodeId × AbstractValue)}
    (h : ∀ p ∈ mine, p.2.Exact) (h' : ∀ p ∈ theirs, p.2.Exact) :
    ∀ p ∈ (mergeStrays limit mine theirs).1, p.2.Exact := by
  unfold mergeStrays
  generalize false = changed
  induction theirs generalizing mine changed with
  | nil => exact h
  | cons q theirs ih =>
    obtain ⟨id, v⟩ := q
    have hrest : ∀ p ∈ theirs, p.2.Exact := fun p hp => h' p (List.mem_cons_of_mem _ hp)
    rw [List.foldl_cons]
    dsimp only
    cases hslot : mergeSlot limit (mine.lookup id) (some v) with
    | mk o grew =>
      cases o with
      | none => exact ih h hrest _
      | some u =>
        refine ih (exact_setStray h ?_ id) hrest _
        have hmine (w : AbstractValue) (hw : mine.lookup id = some w) : w.Exact := by
          obtain ⟨p, hp, rfl⟩ := mem_of_lookup hw
          exact h p hp
        have hv (w : AbstractValue) (hw : some v = some w) : w.Exact := by
          cases hw
          exact h' _ List.mem_cons_self
        exact mergeSlot_exact hmine hv (congrArg Prod.fst hslot)

theorem Exact.merge (h : f.Exact) (h' : f'.Exact) (limit : Nat) : (f.merge limit f').1.Exact := by
  refine ⟨fun v hv => ?_, mergeStrays_exact h.strays h'.strays⟩
  obtain ⟨q, hq, hqv⟩ := Array.mem_map.1 hv
  obtain ⟨i, hi, rfl⟩ := Array.mem_mapIdx.1 hq
  refine mergeSlot_exact (fun u hu => h.slots u ?_) (fun u hu => h'.get? hu) hqv
  rw [← hu]
  exact Array.getElem_mem hi

end Facts

/-! ## One node -/

namespace AbstractState

theorem factOf_exact (h : s.current.Exact) (hv : s.factOf g id = .ok v) : v.Exact := by
  unfold factOf at hv
  split at hv
  · rename_i hget
    cases hv
    exact h.get? hget
  · obtain ⟨bound, -, hv⟩ := bind_eq_ok_iff.1 hv
    cases hv
    exact AbstractValue.exact_of_none rfl

theorem useFact_exact {i : Nat} (h : s.current.Exact) (hv : s.useFact g node i = .ok v) :
    v.Exact := by
  obtain ⟨e, -, hv⟩ := bind_eq_ok_iff.1 hv
  exact factOf_exact h hv

theorem numericResult_value (hv : s.numericResult g node = .ok v) : v.value = none := by
  unfold numericResult at hv
  split at hv
  · cases hv
    rfl
  · cases hv
    rfl
  · obtain ⟨impure, -, hv⟩ := bind_eq_ok_iff.1 hv
    cases hv
    rfl
  · cases hv
    rfl

theorem numericResult_exact (hv : s.numericResult g node = .ok v) : v.Exact :=
  AbstractValue.exact_of_none (numericResult_value hv)

/-- Two int32 constants that an operation is folded on. -/
structure FoldsInt32 (g : Graph) (node : Node) (s : AbstractState)
    (k : Int32 → Int32 → Option Int32) (a b n : Int32) : Prop where
  result : node.result = .int32
  first : ∃ e v, node.child 0 = .ok e ∧ s.factOf g e.node = .ok v ∧ v.asInt32? = some a
  second : ∃ e v, node.child 1 = .ok e ∧ s.factOf g e.node = .ok v ∧ v.asInt32? = some b
  folds : k a b = some n

theorem foldInt32_ok {k : Int32 → Int32 → Option Int32} (hv : s.foldInt32 g node k = .ok (some v)) :
    ∃ a b n, FoldsInt32 g node s k a b n ∧ v = .constant g.structures (.int32 n) := by
  unfold foldInt32 at hv
  split at hv
  · cases hv
  · rename_i hresult
    obtain ⟨left, hleft, hv⟩ := bind_eq_ok_iff.1 hv
    cases hl : left.asInt32? with
    | none =>
      rw [hl] at hv
      cases hv
    | some a =>
      rw [hl] at hv
      obtain ⟨right, hright, hv⟩ := bind_eq_ok_iff.1 hv
      cases hr : right.asInt32? with
      | none =>
        rw [hr] at hv
        cases hv
      | some b =>
        rw [hr] at hv
        obtain ⟨n, hn, rfl⟩ := Option.map_eq_some_iff.1 (Except.ok.inj hv)
        obtain ⟨e, he, hleft⟩ := bind_eq_ok_iff.1 hleft
        obtain ⟨e', he', hright⟩ := bind_eq_ok_iff.1 hright
        exact ⟨a, b, n,
          ⟨by simpa using hresult, ⟨e, left, he, hleft, hl⟩, ⟨e', right, he', hright, hr⟩, hn⟩, rfl⟩

theorem foldInt32_exact {k : Int32 → Int32 → Option Int32}
    (hv : s.foldInt32 g node k = .ok (some v)) : v.Exact := by
  obtain ⟨a, b, n, -, rfl⟩ := foldInt32_ok hv
  exact AbstractValue.exact_constant _ _

theorem booleanResult_exact (g : Graph) (t : Option Bool) : (booleanResult g t).Exact := by
  cases t with
  | none => exact AbstractValue.exact_of_none rfl
  | some t => exact AbstractValue.exact_constant _ _

theorem resultFact_exact (h : s.current.Exact) (hv : s.resultFact g node = .ok (some v)) :
    v.Exact := by
  unfold resultFact at hv
  cases hop : node.op with
  | jsConstant c =>
    rw [hop] at hv
    cases hv
    exact AbstractValue.exact_constant _ _
  | doubleConstant d =>
    rw [hop] at hv
    cases hv
    intro c hc
    obtain rfl := Option.some.inj hc
    exact SpecType.ofDouble_subset_allKinds d
  | int52Constant n =>
    rw [hop] at hv
    dsimp only at hv
    split at hv
    · cases hv
      exact AbstractValue.exact_constant _ _
    · cases hv
      intro c hc
      obtain rfl := Option.some.inj hc
      rw [FrozenValue.allKinds, Double.isNaN_ofInt, if_neg Bool.false_ne_true]
      exact SpecType.subset_trans (b := .int52) (SpecType.subset_refl _) (by decide)
  | identity =>
    rw [hop] at hv
    obtain ⟨child, hchild, hv⟩ := bind_eq_ok_iff.1 hv
    cases hv
    exact useFact_exact h hchild
  | doubleRep =>
    rw [hop] at hv
    obtain ⟨child, hchild, hv⟩ := bind_eq_ok_iff.1 hv
    cases hv
    exact AbstractValue.Exact.toDouble (useFact_exact h hchild)
  | valueRep =>
    rw [hop] at hv
    obtain ⟨child, hchild, hv⟩ := bind_eq_ok_iff.1 hv
    cases hv
    exact AbstractValue.Exact.purified (useFact_exact h hchild)
  | booleanToNumber =>
    rw [hop] at hv
    obtain ⟨child, hchild, hv⟩ := bind_eq_ok_iff.1 hv
    cases hv
    exact AbstractValue.Exact.booleansAsNumbers (useFact_exact h hchild)
  | int52Rep =>
    rw [hop] at hv
    obtain ⟨e, -, hv⟩ := bind_eq_ok_iff.1 hv
    obtain ⟨ty, -, hv⟩ := bind_eq_ok_iff.1 hv
    cases hv
    exact AbstractValue.exact_of_none rfl
  | logicalNot =>
    rw [hop] at hv
    obtain ⟨e, -, hv⟩ := bind_eq_ok_iff.1 hv
    obtain ⟨known, -, hv⟩ := bind_eq_ok_iff.1 hv
    cases hv
    exact booleanResult_exact _ _
  | isType query =>
    rw [hop] at hv
    cases query with
    | arrayObject =>
      cases hv
      exact AbstractValue.exact_of_none rfl
    | _ =>
      obtain ⟨e, -, hv⟩ := bind_eq_ok_iff.1 hv
      obtain ⟨ty, -, hv⟩ := bind_eq_ok_iff.1 hv
      cases hv
      exact booleanResult_exact _ _
  | arith op mode =>
    rw [hop] at hv
    cases op with
    | add | sub | mul =>
      obtain ⟨folded, hfolded, hv⟩ := bind_eq_ok_iff.1 hv
      cases folded with
      | none =>
        obtain ⟨u, hu, hv⟩ := bind_eq_ok_iff.1 hv
        cases hv
        exact numericResult_exact hu
      | some u =>
        cases hv
        exact foldInt32_exact hfolded
    | div | mod | negate | abs =>
      obtain ⟨u, hu, hv⟩ := bind_eq_ok_iff.1 hv
      cases hv
      exact numericResult_exact hu
  | arithMin | arithMax | arithSqrt | arithSin | arithCos | arithLog | arithPow | arithFRound =>
    rw [hop] at hv
    obtain ⟨u, hu, hv⟩ := bind_eq_ok_iff.1 hv
    cases hv
    exact numericResult_exact hu
  | bit op =>
    rw [hop] at hv
    obtain ⟨folded, hfolded, hv⟩ := bind_eq_ok_iff.1 hv
    cases folded with
    | none =>
      dsimp only at hv
      split at hv <;> cases hv <;> exact AbstractValue.exact_of_none rfl
    | some u =>
      cases hv
      exact foldInt32_exact hfolded
  | toPrimitive | toThis =>
    rw [hop] at hv
    obtain ⟨child, hchild, hv⟩ := bind_eq_ok_iff.1 hv
    have hexact := useFact_exact h hchild
    cases hv
    split
    · exact hexact
    · exact AbstractValue.exact_of_none rfl
  | uint32ToNumber =>
    rw [hop] at hv
    dsimp only at hv
    split at hv <;> cases hv <;> exact AbstractValue.exact_of_none rfl
  | multiGetByOffset cases =>
    rw [hop] at hv
    dsimp only at hv
    split at hv
    · cases hv
      exact AbstractValue.exact_constant _ _
    · cases hv
      exact AbstractValue.exact_of_none rfl
  | _ =>
    -- all other results have no constant
    rw [hop] at hv
    first
    | (cases hv; done)
    | (cases hv; exact AbstractValue.exact_of_none rfl)
    | (cases hv; split <;> exact AbstractValue.exact_of_none rfl)
    | (have hv' := Except.ok.inj hv
       split at hv'
       · cases hv'
         exact AbstractValue.exact_of_none rfl
       · cases hv')

theorem Effect.exact (he : Effect g s id node s') (h : s.current.Exact) : s'.current.Exact := by
  cases he with
  | nothing | dead => exact h
  | phi => exact h.set (AbstractValue.exact_of_none rfl) id
  | result hv => exact h.set (resultFact_exact h hv) id
  | upsilon _ hv => exact h.set (useFact_exact h hv) _
  | checkStructure _ _ hknown =>
    rw [narrowTo_current]
    exact h.set ((factOf_exact h hknown).filterStructures _) _
  | checkCell _ _ hknown =>
    rw [narrowTo_current]
    exact h.set ((factOf_exact h hknown).filterValue _ _) _
  | checkKinds _ _ hknown =>
    rw [narrowTo_current]
    exact h.set ((factOf_exact h hknown).filter _) _
  | putStructure _ _ hknown => exact h.set ((factOf_exact h hknown).structures _) _
  | multiPutByOffset _ _ hknown => exact h.set ((factOf_exact h hknown).structures _) _

theorem filter_exact {mask : SpecType} (hf : s.filter g id mask = .ok s') (h : s.current.Exact) :
    s'.current.Exact := by
  obtain ⟨known, hknown, rfl⟩ := exists_of_filter hf
  rw [narrowTo_current]
  exact h.set ((factOf_exact h hknown).filter _) _

theorem filterUses_exact {es : List Edge} (hf : filterUses g es s = .ok s') (h : s.current.Exact) :
    s'.current.Exact := by
  induction es generalizing s with
  | nil =>
    cases hf
    exact h
  | cons e es ih =>
    rcases filterUses_cons hf with ⟨-, hrest⟩ | ⟨s₁, h₁, ⟨-, hrest⟩ | ⟨-, rfl⟩⟩
    · exact ih hrest h
    · exact ih hrest (filter_exact h₁ h)
    · exact filter_exact h₁ h

/-- Executing a node keeps facts exact. -/
theorem execute_exact (he : s.execute g id = .ok s') (h : s.current.Exact) : s'.current.Exact := by
  unfold execute at he
  split at he
  · cases he
    exact h
  · obtain ⟨node, -, he⟩ := bind_eq_ok_iff.1 he
    obtain ⟨s₁, h₁, he⟩ := bind_eq_ok_iff.1 he
    have hexact₁ := filterUses_exact h₁ h
    split at he
    · cases he
      exact hexact₁
    · obtain ⟨s₂, h₂, he⟩ := bind_eq_ok_iff.1 he
      have hexact₂ := (transfer_ok h₂).exact hexact₁
      split at he
      · cases he
        exact hexact₂.map fun v hv => hv.clobberStructures
      · cases he
        exact hexact₂

theorem executeAll_exact {ids : List NodeId} (he : executeAll g ids s = .ok s')
    (h : s.current.Exact) : s'.current.Exact := by
  induction ids generalizing s with
  | nil =>
    cases he
    exact h
  | cons id ids ih =>
    obtain ⟨s₁, h₁, he⟩ := bind_eq_ok_iff.1 he
    have hexact₁ := execute_exact h₁ h
    split at he
    · exact ih he hexact₁
    · cases he
      exact hexact₁

/-! ## The fixpoint -/

/-- The facts at all block heads and at the current point are exact. -/
structure AllExact (s : AbstractState) : Prop where
  current : s.current.Exact
  heads : ∀ facts ∈ s.blocks, facts.head.Exact

variable {r r' : Round} {limit : Nat}

theorem flowInto_exact {b : BlockIndex} (hf : flowInto limit r b = .ok r') (h : r.state.AllExact) :
    r'.state.AllExact := by
  obtain ⟨facts, hfacts, hf⟩ := bind_eq_ok_iff.1 hf
  have hmem : facts ∈ r.state.blocks := Array.mem_of_getElem? (Fault.ofOption_eq_ok.1 hfacts)
  dsimp only at hf
  split at hf
  · cases hf
    exact h
  · cases hf
    refine ⟨h.current, fun facts' hfacts' => ?_⟩
    rcases Array.mem_or_eq_of_mem_setIfInBounds hfacts' with hfacts' | rfl
    · exact h.heads facts' hfacts'
    · exact (h.heads facts hmem).merge h.current limit

/-- What each step keeps is kept by all in a row. -/
theorem foldlM_exact {step : Round → BlockIndex → Except Fault Round}
    (hstep : ∀ {r r' b}, step r b = .ok r' → r.state.AllExact → r'.state.AllExact)
    {order : List BlockIndex} (hf : order.foldlM step r = .ok r') (h : r.state.AllExact) :
    r'.state.AllExact := by
  induction order generalizing r with
  | nil =>
    cases hf
    exact h
  | cons b order ih =>
    rw [List.foldlM_cons] at hf
    obtain ⟨r₁, h₁, hf⟩ := bind_eq_ok_iff.1 hf
    exact ih hf (hstep h₁ h)

theorem visitBlock_exact {b : BlockIndex} (hv : visitBlock g limit r b = .ok r')
    (h : r.state.AllExact) : r'.state.AllExact := by
  unfold visitBlock at hv
  split at hv
  · cases hv
    exact h
  · obtain ⟨s₁, h₁, hv₁⟩ := bind_eq_ok_iff.1 hv
    obtain ⟨facts, hfacts, hs₁⟩ := bind_eq_ok_iff.1 h₁
    obtain rfl := Except.ok.inj hs₁
    obtain ⟨blk, -, hv₂⟩ := bind_eq_ok_iff.1 hv₁
    obtain ⟨s₂, h₂, hv₃⟩ := bind_eq_ok_iff.1 hv₂
    have hexact₂ : s₂.AllExact := by
      refine ⟨executeAll_exact h₂
        (h.heads facts (Array.mem_of_getElem? (Fault.ofOption_eq_ok.1 hfacts))), ?_⟩
      rw [executeAll_blocks h₂]
      exact h.heads
    dsimp only at hv₃
    split at hv₃
    · obtain ⟨succs, -, hfold⟩ := bind_eq_ok_iff.1 hv₃
      exact foldlM_exact flowInto_exact hfold hexact₂
    · cases hv₃
      exact hexact₂

theorem settle_exact {order : List BlockIndex} {rounds : Nat}
    (hs : settle g limit order rounds r = .ok s) (h : r.state.AllExact) : s.AllExact := by
  induction rounds generalizing r with
  | zero =>
    cases hs
    exact h
  | succ rounds ih =>
    obtain ⟨r₁, h₁, hs⟩ := bind_eq_ok_iff.1 hs
    have hexact₁ := foldlM_exact visitBlock_exact h₁ h
    split at hs
    · exact ih hs hexact₁
    · cases hs
      exact hexact₁

/-- The facts that the analysis finds are exact, at the heads of blocks and at each point that they
are replayed to. -/
theorem fixpoint_exact (hs : fixpoint g limit = .ok s) : s.AllExact ∧
    ∀ {b : BlockIndex} {ids : List NodeId} {s₁ s' : AbstractState}, s.beginBlock b = .ok s₁ →
    executeAll g ids s₁ = .ok s' →
      s'.current.Exact := by
  have hall : s.AllExact := by
    refine settle_exact hs ⟨Facts.exact_empty g, fun facts hfacts => ?_⟩
    dsimp only [initial] at hfacts
    obtain ⟨i, hi, rfl⟩ := Array.mem_iff_getElem.1 hfacts
    rw [Array.getElem_modify]
    split <;> simp only [Array.getElem_replicate] <;> exact Facts.exact_empty g
  refine ⟨hall, fun {b ids s₁ s'} h₁ h' => ?_⟩
  obtain ⟨facts, hfacts, h₁⟩ := bind_eq_ok_iff.1 h₁
  cases h₁
  exact executeAll_exact h'
    (hall.heads facts (Array.mem_of_getElem? (Fault.ofOption_eq_ok.1 hfacts)))

end AbstractState

end SpecJit
