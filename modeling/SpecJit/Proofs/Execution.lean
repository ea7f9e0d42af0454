import SpecJit.Proofs.AbstractState

/-!
# What executing a node does to the facts

Executing a node narrows the facts about its uses and then has one effect (`Effect`): it gives its
own name a fact, an upsilon gives one to its phi, a check narrows what is known of its first use,
and a store of a structure replaces it. Everything else that is known stays as it is, but for the
structures if the node may run any code (`execute_ok`). So a fact is kept by the nodes that do not
concern it, and by any number of them in a row (`execute_kept`, `executeAll_kept`).
-/

namespace SpecJit

/-- The operation checks more of its first use than the kind of the use says. -/
def Op.refinesUse : Op → Bool
  | .checkStructure _ | .checkCell _ | .checkNotEmpty | .checkArray _ => true
  | _ => false

/-- Node `id` yields `x`, uses it, or hands it a value. -/
def Graph.Concerns (g : Graph) (id x : NodeId) : Prop :=
  x = id ∨ ∃ node, g.node id = .ok node ∧ (node.op = .upsilon x ∨ ∃ e ∈ node.children, e.node = x)

namespace AbstractState

variable {g : Graph} {s s' s'' : AbstractState} {id x : NodeId} {node : Node} {e : Edge}
  {v known : AbstractValue}

/-! ## The current facts -/

/-- The facts with all structures of cells forgotten. -/
def forgetStructures (s : AbstractState) : AbstractState :=
  { s with current := s.current.map (·.clobberStructures) }

@[simp] theorem forgetStructures_valid (s : AbstractState) : s.forgetStructures.valid = s.valid :=
  rfl

@[simp] theorem invalidate_current (s : AbstractState) : s.invalidate.current = s.current := rfl

@[simp] theorem setFact_valid (s : AbstractState) (id : NodeId) (v : AbstractValue) :
    (s.setFact id v).valid = s.valid := rfl

theorem get?_forgetStructures (s : AbstractState) (x : NodeId) :
    s.forgetStructures.current.get? x = (s.current.get? x).map (·.clobberStructures) :=
      Facts.get?_map ..

@[simp] theorem get?_setFact_self (s : AbstractState) (id : NodeId) (v : AbstractValue) :
    (s.setFact id v).current.get? id = some v := Facts.get?_set_self ..

theorem get?_setFact_ne (s : AbstractState) (v : AbstractValue) (hne : x ≠ id) :
    (s.setFact id v).current.get? x = s.current.get? x := Facts.get?_set_ne _ v hne

@[simp] theorem narrowTo_current (s : AbstractState) (id : NodeId) (v : AbstractValue) :
    (s.narrowTo id v).current = (s.setFact id v).current := by
  unfold narrowTo
  split <;> rfl

theorem narrowTo_valid (s : AbstractState) (id : NodeId) (v : AbstractValue) :
    (s.narrowTo id v).valid = (s.valid && !v.isBottom) := by
  unfold narrowTo
  cases hb : v.isBottom <;> simp [invalidate]

theorem factOf_of_slotOf (h : s.slotOf g id = .ok v) : s.factOf g id = .ok v := by
  unfold slotOf at h
  cases hb : g.boundOf id with
  | error f =>
    rw [hb] at h
    cases h
  | ok bound =>
    rw [hb] at h
    cases h
    unfold factOf
    cases hget : s.current.get? id with
    | none => simp [hb, bind, Except.bind, pure, Except.pure]
    | some v => rfl

theorem factOf_of_get? (h : s.current.get? x = some v) : s.factOf g x = .ok v := by simp [factOf, h]

theorem factOf_setFact_self (s : AbstractState) (id : NodeId) (v : AbstractValue) :
    (s.setFact id v).factOf g id = .ok v :=
  factOf_of_get? (get?_setFact_self s id v)

theorem factOf_setFact_ne (hne : x ≠ id) (s : AbstractState) (v : AbstractValue) :
    (s.setFact id v).factOf g x = s.factOf g x := by
  simp [factOf, get?_setFact_ne s v hne]

/-! ## One node -/

/-- The effects that a node can have once its uses are narrowed. -/
inductive Effect (g : Graph) (s : AbstractState) (id : NodeId) (node : Node) : AbstractState → Prop
  | nothing : Effect g s id node s
  | dead : Effect g s id node s.invalidate
  | phi : node.op = .phi → Effect g s id node (s.setFact id (boundedResult node))
  | result {v : AbstractValue} : s.resultFact g node = .ok (some v) →
    Effect g s id node (s.setFact id v)
  | upsilon {phi : NodeId} {v : AbstractValue} : node.op = .upsilon phi →
    s.useFact g node 0 = .ok v →
      Effect g s id node (s.setFact phi v)
  | checkStructure {set : StructureSet} {e : Edge} {known : AbstractValue} :
    node.op = .checkStructure set →
      node.child 0 = .ok e → s.factOf g e.node = .ok known →
      Effect g s id node (s.narrowTo e.node (known.filterStructures set))
  | checkCell {c : FrozenValue} {e : Edge} {known : AbstractValue} : node.op = .checkCell c →
    node.child 0 = .ok e →
      s.factOf g e.node = .ok known →
      Effect g s id node (s.narrowTo e.node (known.filterValue g.structures c))
  | checkKinds {mask : SpecType} {e : Edge} {known : AbstractValue} : node.op.refinesUse = true →
    node.child 0 = .ok e →
      s.factOf g e.node = .ok known →
      Effect g s id node (s.narrowTo e.node (known.filter mask))
  | putStructure {t : Transition} {e : Edge} {known : AbstractValue} : node.op = .putStructure t →
    node.child 0 = .ok e →
      s.factOf g e.node = .ok known →
      Effect g s id node (s.setFact e.node { known with structures := .singleton t.next })
  | multiPutByOffset {cases : List WriteCase} {e : Edge} {known : AbstractValue} :
    node.op = .multiPutByOffset cases →
      node.child 0 = .ok e → s.factOf g e.node = .ok known →
      Effect g s id node
        (s.setFact e.node { known with structures := .known (WriteCase.structuresAfter cases) })

/-- The effect of a node is one of those listed. -/
theorem transfer_ok (h : s.transfer g id node = .ok s') : Effect g s id node s' := by
  unfold transfer at h
  split at h
  case h_1 hop =>
    split at h
    · cases h
      exact .nothing
    · cases h
      exact .phi hop
  case h_2 phi hop =>
    obtain ⟨v, hv, h⟩ := bind_eq_ok_iff.1 h
    cases h
    exact .upsilon hop hv
  case h_3 set hop =>
    obtain ⟨e, he, h⟩ := bind_eq_ok_iff.1 h
    obtain ⟨known, hk, h⟩ := bind_eq_ok_iff.1 h
    cases h
    exact .checkStructure hop he (factOf_of_slotOf hk)
  case h_4 c hop =>
    obtain ⟨e, he, h⟩ := bind_eq_ok_iff.1 h
    obtain ⟨known, hk, h⟩ := bind_eq_ok_iff.1 h
    cases h
    exact .checkCell hop he hk
  case h_5 hop =>
    obtain ⟨e, he, h⟩ := bind_eq_ok_iff.1 h
    obtain ⟨known, hk, rfl⟩ := exists_of_filter h
    exact .checkKinds (by rw [hop]; rfl) he hk
  case h_6 mode hop =>
    split at h
    · obtain ⟨e, he, h⟩ := bind_eq_ok_iff.1 h
      obtain ⟨known, hk, rfl⟩ := exists_of_filter h
      exact .checkKinds (by rw [hop]; rfl) he hk
    · cases h
      exact .dead
  case h_11 t hop =>
    obtain ⟨e, he, h⟩ := bind_eq_ok_iff.1 h
    obtain ⟨known, hk, h⟩ := bind_eq_ok_iff.1 h
    cases h
    exact .putStructure hop he (factOf_of_slotOf hk)
  case h_12 cases hop =>
    obtain ⟨e, he, h⟩ := bind_eq_ok_iff.1 h
    obtain ⟨known, hk, h⟩ := bind_eq_ok_iff.1 h
    cases h
    exact .multiPutByOffset hop he (factOf_of_slotOf hk)
  case h_13 =>
    obtain ⟨r, hr, h⟩ := bind_eq_ok_iff.1 h
    cases r with
    | none =>
      cases h
      exact .nothing
    | some v =>
      cases h
      exact .result hr
  all_goals
    cases h
    exact .dead

/-- What executing a node comes to, if there is no contradiction. -/
theorem execute_ok (h : s.execute g id = .ok s') (hvalid : s'.valid = true) :
    ∃ node s₁ s₂, g.node id = .ok node ∧ filterUses g node.children s = .ok s₁ ∧ s.valid = true ∧
    s₂.valid = true ∧
      s₁.transfer g id node = .ok s₂ ∧ s' = if node.op.clobbersWorld then s₂.forgetStructures
        else s₂ := by
  have hinvalid {t : AbstractState} (ht : (.ok t : Except Fault AbstractState) = .ok s')
    (hv : ¬ t.valid = true) :
      False := by
    cases ht
    exact hv hvalid
  unfold execute at h
  split at h
  · rename_i hs
    exact (hinvalid h (by simpa using hs)).elim
  rename_i hs
  obtain ⟨node, hn, h⟩ := bind_eq_ok_iff.1 h
  obtain ⟨s₁, hu, h⟩ := bind_eq_ok_iff.1 h
  split at h
  · rename_i hs₁
    exact (hinvalid h (by simpa using hs₁)).elim
  obtain ⟨s₂, ht, h⟩ := bind_eq_ok_iff.1 h
  have hs₂ : s₂.valid = true := by
    split at h
    · rename_i hc
      rw [Bool.and_eq_true] at hc
      exact hc.1
    · cases h
      exact hvalid
  refine ⟨node, s₁, s₂, hn, hu, by simpa using hs, hs₂, ht, ?_⟩
  rw [hs₂, Bool.true_and] at h
  split at h
  · rename_i hc
    cases h
    rw [if_pos hc, forgetStructures, hs₂]
  · rename_i hc
    cases h
    rw [if_neg hc]

/-! ## What a node does not concern -/

theorem filterUses_kept {edges : List Edge} (h : filterUses g edges s = .ok s')
    (hx : ∀ e ∈ edges, e.node ≠ x) :
    s'.current.get? x = s.current.get? x := by
  induction edges generalizing s with
  | nil =>
    cases h
    rfl
  | cons e rest ih =>
    have hrest : ∀ e' ∈ rest, e'.node ≠ x := fun e' he' => hx e' (by simp [he'])
    rw [filterUses] at h
    split at h
    · exact ih h hrest
    · obtain ⟨s₁, h₁, h⟩ := bind_eq_ok_iff.1 h
      obtain ⟨known, -, rfl⟩ := exists_of_filter h₁
      have hkept := get?_setFact_ne s (known.filter e.useKind.typeFilter) (Ne.symm (hx e (by simp)))
      rw [← narrowTo_current] at hkept
      split at h
      · exact (ih h hrest).trans hkept
      · cases h
        exact hkept

theorem Effect.kept (h : Effect g s id node s') (hid : x ≠ id) (hup : node.op ≠ .upsilon x)
    (huse : ∀ e ∈ node.children, e.node ≠ x) : s'.current.get? x = s.current.get? x := by
  have hchild {e : Edge} (he : node.child 0 = .ok e) : x ≠ e.node :=
    Ne.symm (huse e (Node.mem_of_child he))
  cases h with
  | nothing => rfl
  | dead => rfl
  | phi | result => exact get?_setFact_ne _ _ hid
  | upsilon hop => exact get?_setFact_ne _ _ fun hx => hup (hx ▸ hop)
  | checkStructure _ he | checkCell _ he | checkKinds _ he =>
    rw [narrowTo_current]
    exact get?_setFact_ne _ _ (hchild he)
  | putStructure _ he | multiPutByOffset _ he => exact get?_setFact_ne _ _ (hchild he)

/-- A node that does not concern `x` keeps what is known of it, but for the structures if it may run
any code. -/
theorem execute_kept (h : s.execute g id = .ok s') (hvalid : s'.valid = true)
    (hx : ¬ g.Concerns id x) :
    ∃ node, g.node id = .ok node ∧ s'.current.get? x =
      if node.op.clobbersWorld then (s.current.get? x).map (·.clobberStructures) else s.current.get?
        x := by
  obtain ⟨node, s₁, s₂, hn, hu, -, -, ht, rfl⟩ := execute_ok h hvalid
  have huse (e : Edge) (he : e ∈ node.children) : e.node ≠ x :=
    fun hex => hx (.inr ⟨node, hn, .inr ⟨e, he, hex⟩⟩)
  have hkept : s₂.current.get? x = s.current.get? x :=
    ((transfer_ok ht).kept (fun hid => hx (.inl hid)) (fun hop => hx (.inr ⟨node, hn, .inl hop⟩))
      huse).trans (filterUses_kept hu huse)
  refine ⟨node, hn, ?_⟩
  split
  · rw [get?_forgetStructures, hkept]
  · exact hkept

/-- After any number of such nodes the same kinds and the same constant are known. -/
theorem executeAll_kept {ids : List NodeId} (h : executeAll g ids s = .ok s')
    (hvalid : s'.valid = true) (hx : ∀ id ∈ ids, ¬ g.Concerns id x) (hv : s.current.get? x = some v)
    :
    ∃ v', s'.current.get? x = some v' ∧ v'.ty = v.ty ∧ v'.value = v.value := by
  induction ids generalizing s v with
  | nil =>
    cases h
    exact ⟨v, hv, rfl, rfl⟩
  | cons id ids ih =>
    rw [executeAll] at h
    obtain ⟨s₁, h₁, h⟩ := bind_eq_ok_iff.1 h
    split at h
    · rename_i hs₁
      obtain ⟨node, -, hkept⟩ := execute_kept h₁ hs₁ (hx id (by simp))
      have hrest : ∀ id' ∈ ids, ¬ g.Concerns id' x := fun id' hid' => hx id' (by simp [hid'])
      rw [hv] at hkept
      split at hkept
      · obtain ⟨v', hv', hty, hvalue⟩ := ih h hrest hkept
        refine ⟨v', hv', hty.trans ?_, hvalue.trans ?_⟩ <;>
          simp only [AbstractValue.clobberStructures] <;> split <;> rfl
      · exact ih h hrest hkept
    · rename_i hs₁
      cases h
      exact absurd hvalid hs₁

end AbstractState

end SpecJit
