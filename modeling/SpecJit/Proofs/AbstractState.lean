import SpecJit.AbstractState
import SpecJit.Proofs.Kind

/-!
# Facts that hold of a value

`AbstractValue.Describes`: the fact allows a kind, and if it names a constant, the constant is of
that kind too. Narrowing a fact to kinds that include this one keeps it true (`Describes.filter`),
and a narrowed fact allows no others (`filter_ty_subset`).
-/

namespace SpecJit

/-! ## Facts about one value -/

/-- The kinds that a constant can have, as far as the constant itself tells. -/
def FrozenValue.kinds : FrozenValue → SpecType
  | .cell _ => .cell
  | c => c.specType {}

namespace AbstractValue

/-- The fact is true of values of a kind. -/
structure Describes (v : AbstractValue) (kind : SpecType) : Prop where
  inhabited : kind.isEmpty = false
  allowed : kind.isSubsetOf v.ty = true
  constant : ∀ c, v.value = some c → kind.isSubsetOf c.kinds = true

variable {v : AbstractValue} {kind mask : SpecType}

theorem filter_ty_subset (v : AbstractValue) (mask : SpecType) :
    (v.filter mask).ty.isSubsetOf mask = true := by
  simp only [filter]
  split
  · exact SpecType.and_subset_right
  · simp [SpecType.isSubsetOf, SpecType.none]

/-- A constant of the kind is not ruled out. -/
theorem Describes.constantMatches {c : FrozenValue} (h : v.Describes kind) (hv : v.value = some c)
    (hmask : kind.isSubsetOf mask = true) : constantMatches (v.ty &&& mask) mask c = true := by
  have hc := h.constant c hv
  cases c with
  | cell _ => exact SpecType.overlaps_of_subset h.inhabited (SpecType.subset_and h.allowed hmask) hc
  | _ => exact SpecType.overlaps_of_subset h.inhabited hc hmask

theorem Describes.possible (h : v.Describes kind) (hmask : kind.isSubsetOf mask = true) :
    v.value.all (AbstractValue.constantMatches (v.ty &&& mask) mask) = true := by
  cases hv : v.value with
  | none => rfl
  | some c => exact h.constantMatches hv hmask

theorem Describes.filter_ty (h : v.Describes kind) (hmask : kind.isSubsetOf mask = true) :
    (v.filter mask).ty = v.ty &&& mask := by
  simp only [AbstractValue.filter, h.possible hmask, ↓reduceIte]

theorem Describes.filter (h : v.Describes kind) (hmask : kind.isSubsetOf mask = true) :
    (v.filter mask).Describes kind := by
  refine ⟨h.inhabited, ?_, fun c hc => ?_⟩
  · rw [h.filter_ty hmask]
    exact SpecType.subset_and h.allowed hmask
  · simp only [AbstractValue.filter, h.possible hmask, ↓reduceIte] at hc
    exact h.constant c hc

theorem Describes.not_bottom (h : v.Describes kind) : v.isBottom = false := by
  have hne := h.inhabited
  have hk := h.allowed
  rw [isBottom, ← Bool.not_eq_true]
  intro hb
  simp only [SpecType.isEmpty, beq_iff_eq] at hb
  simp_all [SpecType.isSubsetOf, SpecType.isEmpty]

end AbstractValue

/-! ## Facts about all nodes -/

theorem Facts.get?_set_self (f : Facts) (id : NodeId) (v : AbstractValue) :
    (f.set id v).get? id = some v := by
  unfold set get?
  by_cases h : id.index < f.slots.size
  · simp [h]
  · simp [h, setStray]

theorem Facts.lookup_setStray_ne {strays : List (NodeId × AbstractValue)} {id x : NodeId}
    (v : AbstractValue) (hne : x ≠ id) :
    (setStray strays id v).lookup x = strays.lookup x := by
  have hx : (x == id) = false := beq_eq_false_iff_ne.2 hne
  rw [setStray, List.lookup_cons, hx]
  induction strays with
  | nil => rfl
  | cons p rest ih =>
    obtain ⟨y, u⟩ := p
    rw [List.filter_cons]
    by_cases hy : y = id
    · subst hy
      simpa [hx, List.lookup_cons] using ih
    · simp only [bne_iff_ne, ne_eq, hy, not_false_eq_true, ↓reduceIte, List.lookup_cons]
      split
      · rfl
      · exact ih

theorem Facts.get?_set_ne (f : Facts) {id x : NodeId} (v : AbstractValue) (hne : x ≠ id) :
    (f.set id v).get? x = f.get? x := by
  have hidx : id.index ≠ x.index := fun h => hne (by cases id; cases x; simp_all)
  unfold set
  split
  · simp [get?, hidx]
  · simp [get?, lookup_setStray_ne v hne]

theorem Facts.get?_map (f : Facts) (h : AbstractValue → AbstractValue) (x : NodeId) :
    (f.map h).get? x = (f.get? x).map h := by
  unfold map get?
  simp only [Array.size_map]
  split
  · cases hs : f.slots[x.index]? <;> simp [hs]
  · induction f.strays with
    | nil => rfl
    | cons p rest ih =>
      obtain ⟨y, u⟩ := p
      simp only [List.map_cons, List.lookup_cons]
      split
      · rfl
      · exact ih

namespace AbstractState

variable {g : Graph} {s s' : AbstractState} {id : NodeId} {v : AbstractValue} {mask : SpecType}

/-- A relation between facts that holds of no change at all, and of one change after the other. -/
structure Law where
  rel : Graph → AbstractState → AbstractState → Prop
  refl : ∀ g f, rel g f f
  trans : ∀ {g f f₁ f₂}, rel g f f₁ → rel g f₁ f₂ → rel g f f₂

theorem factOf_narrowTo (s : AbstractState) (id : NodeId) (v : AbstractValue) :
    (s.narrowTo id v).factOf g id = .ok v := by
  have hget : (s.narrowTo id v).current.get? id = some v := by
    unfold narrowTo
    split <;> exact s.current.get?_set_self id v
  simp [factOf, hget]

theorem factOf_narrowTo_ne (s : AbstractState) (v : AbstractValue) {x : NodeId} (hne : x ≠ id) :
    (s.narrowTo id v).factOf g x = s.factOf g x := by
  have hget : (s.narrowTo id v).current.get? x = s.current.get? x := by
    unfold narrowTo
    split <;> exact s.current.get?_set_ne v hne
  simp [factOf, hget]

/-- A fact that is true of a kind stays so when the node is narrowed to kinds that include it, and
the facts stay valid. -/
theorem narrowed_describes {mask : SpecType} {kind : SpecType} (hvalid : s.valid = true)
    (hv : s.factOf g id = .ok v) (hdesc : v.Describes kind) (hmask : kind.isSubsetOf mask = true)
    (h : s' = s ∨ ∃ v, s.factOf g id = .ok v ∧ s' = s.narrowTo id (v.filter mask)) :
    s'.valid = true ∧ (∃ v', s'.factOf g id = .ok v' ∧ v'.Describes kind) ∧
      ∀ x, x ≠ id → s'.factOf g x = s.factOf g x := by
  rcases h with rfl | ⟨v', hv', rfl⟩
  · exact ⟨hvalid, ⟨v, hv, hdesc⟩, fun _ _ => rfl⟩
  · obtain rfl : v' = v := Except.ok.inj (hv'.symm.trans hv)
    have hnarrow := hdesc.filter hmask
    refine ⟨?_, ⟨_, factOf_narrowTo .., hnarrow⟩, fun x hne => factOf_narrowTo_ne _ _ hne⟩
    rw [narrowTo, hnarrow.not_bottom]
    exact hvalid

/-- What is known differs in one node at most, of whose structures no more is known than before. -/
structure NarrowedAt (g : Graph) (id : NodeId) (s s' : AbstractState) : Prop where
  others : ∀ x, x ≠ id → s'.factOf g x = s.factOf g x
  structures : ∀ v, s.factOf g id = .ok v →
    ∃ v', s'.factOf g id = .ok v' ∧ (v'.structures = v.structures ∨ v'.structures = .top)

theorem NarrowedAt.refl (s : AbstractState) : NarrowedAt g id s s :=
  ⟨fun _ _ => rfl, fun v hv => ⟨v, hv, .inl rfl⟩⟩

theorem NarrowedAt.trans {s'' : AbstractState} (h : NarrowedAt g id s s')
    (h' : NarrowedAt g id s' s'') : NarrowedAt g id s s'' where
  others x hne := (h'.others x hne).trans (h.others x hne)
  structures v hv := by
    obtain ⟨v₁, hv₁, hstructures⟩ := h.structures v hv
    obtain ⟨v₂, hv₂, hstructures'⟩ := h'.structures v₁ hv₁
    refine ⟨v₂, hv₂, hstructures'.elim (fun he => ?_) .inr⟩
    rw [he]
    exact hstructures

theorem narrowedAt_filter (hv : s.factOf g id = .ok v) (mask : SpecType) :
    NarrowedAt g id s (s.narrowTo id (v.filter mask)) where
  others _ hne := factOf_narrowTo_ne _ _ hne
  structures v' hv' := by
    obtain rfl : v = v' := Except.ok.inj (hv.symm.trans hv')
    refine ⟨_, factOf_narrowTo .., ?_⟩
    exact ite_eq_or_eq _ _ _

/-- Narrowing a node narrows the fact about it. -/
theorem exists_of_filter (h : s.filter g id mask = .ok s') :
    ∃ v, s.factOf g id = .ok v ∧ s' = s.narrowTo id (v.filter mask) := by
  cases hb : g.boundOf id with
  | error f => simp [AbstractState.filter, slotOf, hb, bind, Except.bind] at h
  | ok bound =>
    simp only [AbstractState.filter, slotOf, hb, bind, Except.bind, pure, Except.pure,
      Except.ok.injEq] at h
    cases hget : s.current.get? id with
    | none =>
      exact ⟨.ofType bound,
        by simp [factOf, hget, hb, bind, Except.bind, pure, Except.pure], by simp [← h, hget]⟩
    | some v => exact ⟨v, by simp [factOf, hget], by simp [← h, hget]⟩

theorem filter_ok (h : s.filter g id mask = .ok s') (hv : s.factOf g id = .ok v) :
    s' = s.narrowTo id (v.filter mask) := by
  obtain ⟨v', hv', h'⟩ := exists_of_filter h
  rw [hv] at hv'
  cases hv'
  exact h'

end AbstractState

end SpecJit
