import SpecJit.Proofs.Execution

/-!
# Known structures

The analysis knows the structures of a node if it has a fact about the node that allows cells, with
a set of structures (`AbstractState.Knows`). Executing a node that may run any code makes it know
none (`execute_forgets`). Otherwise it goes on knowing those it knew (`execute_knows_iff`), and it
comes to know others only by a node that reveals them (`Graph.Reveals`, `executeAll_reveals`).
-/

namespace SpecJit

/-- The result can be a cell of known structures. -/
def Op.yieldsStructures : Op → Bool
  | .jsConstant _ | .identity | .valueRep | .toPrimitive | .toThis | .newObject _ | .newArray _
  | .newArrayWithSize _ | .newArrayBuffer _ _ | .createActivation _ | .materializeNewObject _
  | .materializeCreateActivation _ | .multiGetByOffset _ => true
  | _ => false

/-- The operation tells the structures of its first use. -/
def Op.tellsStructures : Op → Bool
  | .checkStructure _ | .checkCell _ | .putStructure _ | .multiPutByOffset _ => true
  | _ => false

/-- Executing node `id` can make the structures of `x` known: it checks them, stores one, compares
`x` with a constant, hands `x` a value, or yields `x` itself as a constant, a new cell or a copy. -/
def Graph.Reveals (g : Graph) (id x : NodeId) : Prop :=
  ∃ node, g.node id = .ok node ∧
    (node.op.tellsStructures = true ∧ (∃ e, node.child 0 = .ok e ∧ e.node = x) ∨
    node.op = .upsilon x ∨ x = id ∧ node.op.yieldsStructures = true)

/-- Node `id` may run any code. -/
def Graph.Clobbers (g : Graph) (id : NodeId) : Prop :=
  ∃ node, g.node id = .ok node ∧ node.op.clobbersWorld = true

namespace AbstractValue

variable {v : AbstractValue} {mask : SpecType}

/-- The fact says which structures a cell can have. -/
structure TellsStructures (v : AbstractValue) : Prop where
  cell : v.ty.overlaps .cell = true
  known : v.structures ≠ .top

theorem not_tells_ofType (ty : SpecType) : ¬ (AbstractValue.ofType ty).TellsStructures :=
  fun h => h.known rfl

theorem not_tells_clobbered (v : AbstractValue) : ¬ v.clobberStructures.TellsStructures := by
  intro h
  have hcell := h.cell
  have hknown := h.known
  unfold clobberStructures at hcell hknown
  split at hcell
  · exact hknown (by simp [*])
  · contradiction

/-- A narrowed fact tells no structures that it did not tell before. -/
theorem TellsStructures.of_filter (h : (v.filter mask).TellsStructures) : v.TellsStructures := by
  have hcell := h.cell
  have hknown := h.known
  simp only [filter] at hcell hknown
  refine ⟨?_, fun htop => hknown (by simp [htop])⟩
  split at hcell
  · simp only [SpecType.overlaps, bne_iff_ne] at hcell ⊢
    intro hzero
    refine hcell ?_
    change v.ty.bits &&& mask.bits &&& SpecType.cell.bits = 0
    rw [UInt64.and_assoc, UInt64.and_comm mask.bits, ← UInt64.and_assoc, hzero, UInt64.zero_and]
  · contradiction

/-- A fact narrowed to structures tells them. -/
theorem tells_filterStructures {set : StructureSet} (h : (v.filterStructures set).isBottom = false)
    :
    (v.filterStructures set).TellsStructures := by
  refine ⟨?_, ?_⟩
  · simp only [filterStructures, isBottom] at h ⊢
    split at h
    · cases h
    · rename_i hclear
      rw [if_neg hclear]
      simp only [SpecType.overlaps, SpecType.isEmpty, beq_eq_false_iff_ne, bne_iff_ne] at h ⊢
      change v.ty.bits &&& SpecType.cell.bits &&& SpecType.cell.bits ≠ 0
      rwa [UInt64.and_assoc, UInt64.and_self]
  · cases hs : v.structures <;> simp [filterStructures, StructureFact.filter, hs]

/-- A fact narrowed to one cell tells its structure. -/
theorem tells_filterValue_cell {r : Registry} {c : CellConstant}
    (h : (v.filterValue r (.cell c)).isBottom = false) :
    (v.filterValue r (.cell c)).TellsStructures := by
  unfold filterValue at h ⊢
  split at h
  · cases h
  rename_i hvalue
  rw [if_neg hvalue]
  dsimp only [constant, StructureFact.singleton] at h ⊢
  split at h
  · rename_i hbottom
    rw [hbottom] at h
    cases h
  rename_i hbottom
  rw [if_neg hbottom]
  split at h
  · rename_i hbottom'
    rw [hbottom'] at h
    cases h
  rename_i hbottom'
  rw [if_neg hbottom']
  have htells := tells_filterStructures (Bool.not_eq_true _ ▸ hbottom')
  exact ⟨htells.cell, htells.known⟩

end AbstractValue

namespace AbstractState

variable {g : Graph} {s s' : AbstractState} {id x : NodeId} {node : Node} {e : Edge}
  {v known : AbstractValue}

/-- The structures of `x` are known. -/
def Knows (s : AbstractState) (x : NodeId) : Prop :=
  ∃ v, s.current.get? x = some v ∧ v.TellsStructures

theorem booleanResult_structures (truth : Option Bool) :
    (booleanResult g truth).structures = .top := by
  cases truth <;> rfl

theorem foldInt32_structures {f : Int32 → Int32 → Option Int32}
    (h : s.foldInt32 g node f = .ok (some v)) :
    v.structures = .top := by
  unfold foldInt32 at h
  split at h
  · cases h
  obtain ⟨a, -, h⟩ := bind_eq_ok_iff.1 h
  split at h
  · cases h
  obtain ⟨b, -, h⟩ := bind_eq_ok_iff.1 h
  split at h
  · cases h
  simp only [pure, Except.pure, Except.ok.injEq, Option.map_eq_some_iff] at h
  obtain ⟨r, -, rfl⟩ := h
  rfl

theorem numericResult_structures (h : s.numericResult g node = .ok v) : v.structures = .top := by
  unfold numericResult at h
  split at h
  · cases h
    rfl
  · cases h
    rfl
  · obtain ⟨impure, -, h⟩ := bind_eq_ok_iff.1 h
    cases h
    rfl
  · cases h
    rfl

/-- What an operation yields has known structures only if the operation is one of those listed. -/
theorem resultFact_tells (h : s.resultFact g node = .ok (some v)) (hv : v.TellsStructures) :
    node.op.yieldsStructures = true := by
  rw [← Bool.not_eq_false]
  intro hy
  have hnumeric (h : (s.numericResult g node >>= fun r => pure (some r)) = .ok (some v)) :
    v.structures = .top := by
    obtain ⟨r, hr, h⟩ := bind_eq_ok_iff.1 h
    cases h
    exact numericResult_structures hr
  unfold resultFact at h
  cases ho : node.op <;> rw [ho] at h hy <;> dsimp only at h
  case bottomValue =>
    cases h
    exact absurd hv.cell (by decide)
  -- the other operations yield no fact or one without structures
  all_goals first
    | (cases hy; done)
    | (cases h; done)
    | refine hv.known ?_
  case arith op _ =>
    split at h
    case h_1 | h_2 | h_3 =>
      obtain ⟨r, hr, h⟩ := bind_eq_ok_iff.1 h
      split at h
      · cases h
        exact foldInt32_structures hr
      · exact hnumeric h
    all_goals exact hnumeric h
  case bit op =>
    obtain ⟨r, hr, h⟩ := bind_eq_ok_iff.1 h
    split at h
    · cases h
      exact foldInt32_structures hr
    · split at h <;> cases h <;> rfl
  case logicalNot =>
    obtain ⟨e, -, h⟩ := bind_eq_ok_iff.1 h
    obtain ⟨known, -, h⟩ := bind_eq_ok_iff.1 h
    cases h
    exact booleanResult_structures _
  case isType query =>
    split at h
    · cases h
      rfl
    · obtain ⟨e, -, h⟩ := bind_eq_ok_iff.1 h
      obtain ⟨ty, -, h⟩ := bind_eq_ok_iff.1 h
      cases h
      exact booleanResult_structures _
  all_goals first
    | exact hnumeric h
    | (cases h; rfl)
    | (obtain ⟨_, -, h⟩ := bind_eq_ok_iff.1 h; cases h; rfl)
    | (obtain ⟨_, -, h⟩ := bind_eq_ok_iff.1 h; obtain ⟨_, -, h⟩ := bind_eq_ok_iff.1 h; cases h; rfl)
    | (split at h <;> cases h <;> rfl)

/-! ## One node -/

theorem knows_of_factOf (hf : s.factOf g x = .ok v) (hv : v.TellsStructures) : s.Knows x := by
  unfold factOf at hf
  split at hf
  · rename_i hget
    cases hf
    exact ⟨_, hget, hv⟩
  · obtain ⟨bound, -, h⟩ := bind_eq_ok_iff.1 hf
    cases h
    exact absurd hv (AbstractValue.not_tells_ofType bound)

/-- A new fact makes structures known only if it tells them. -/
theorem Knows.of_setFact {y : NodeId} (h : (s.setFact y v).Knows x) :
    x = y ∧ v.TellsStructures ∨ s.Knows x := by
  obtain ⟨v', hget, hv⟩ := h
  by_cases hxy : x = y
  · subst hxy
    rw [get?_setFact_self] at hget
    cases hget
    exact .inl ⟨rfl, hv⟩
  · rw [get?_setFact_ne _ _ hxy] at hget
    exact .inr ⟨v', hget, hv⟩

theorem Knows.of_narrowTo {y : NodeId} (h : (s.narrowTo y v).Knows x) :
    x = y ∧ v.TellsStructures ∨ s.Knows x := by
  rw [Knows, narrowTo_current] at h
  exact of_setFact h

/-- Narrowing the kinds of a node makes no structures known. -/
theorem Knows.of_filtered {mask : SpecType} (hf : s.factOf g e.node = .ok known)
    (h : (s.narrowTo e.node (known.filter mask)).Knows x) : s.Knows x := by
  obtain ⟨rfl, hv⟩ | h := h.of_narrowTo
  · exact knows_of_factOf hf hv.of_filter
  · exact h

theorem filterUses_knows {edges : List Edge} (h : filterUses g edges s = .ok s') (hk : s'.Knows x) :
    s.Knows x := by
  induction edges generalizing s with
  | nil =>
    cases h
    exact hk
  | cons e rest ih =>
    rw [filterUses] at h
    split at h
    · exact ih h
    · obtain ⟨s₁, h₁, h⟩ := bind_eq_ok_iff.1 h
      obtain ⟨known, hf, rfl⟩ := exists_of_filter h₁
      have hk₁ : (s.narrowTo e.node (known.filter e.useKind.typeFilter)).Knows x := by
        split at h
        · exact ih h
        · cases h
          exact hk
      exact hk₁.of_filtered hf

/-- The effect of a node makes structures known only if the node reveals them. -/
theorem Effect.knows (h : Effect g s id node s') (hn : g.node id = .ok node) (hk : s'.Knows x) :
    s.Knows x ∨ g.Reveals id x := by
  have htells {e : Edge} {v : AbstractValue} (he : node.child 0 = .ok e)
    (ht : node.op.tellsStructures = true)
      (hx : x = e.node ∧ v.TellsStructures ∨ s.Knows x) : s.Knows x ∨ g.Reveals id x := by
    obtain ⟨rfl, -⟩ | hx := hx
    · exact .inr ⟨node, hn, .inl ⟨ht, e, he, rfl⟩⟩
    · exact .inl hx
  cases h with
  | nothing | dead => exact .inl hk
  | phi hop =>
    obtain ⟨-, hv⟩ | hk := hk.of_setFact
    · exact absurd hv (AbstractValue.not_tells_ofType _)
    · exact .inl hk
  | result hr =>
    obtain ⟨rfl, hv⟩ | hk := hk.of_setFact
    · exact .inr ⟨node, hn, .inr (.inr ⟨rfl, resultFact_tells hr hv⟩)⟩
    · exact .inl hk
  | upsilon hop =>
    obtain ⟨rfl, -⟩ | hk := hk.of_setFact
    · exact .inr ⟨node, hn, .inr (.inl hop)⟩
    · exact .inl hk
  | checkStructure hop he | checkCell hop he => exact htells he (by rw [hop]; rfl) hk.of_narrowTo
  | checkKinds _ _ hf => exact .inl (hk.of_filtered hf)
  | putStructure hop he | multiPutByOffset hop he =>
    exact htells he (by rw [hop]; rfl) hk.of_setFact

theorem not_knows_forgetStructures (s : AbstractState) (x : NodeId) :
    ¬ s.forgetStructures.Knows x := by
  intro h
  obtain ⟨v, hget, hv⟩ := h
  rw [get?_forgetStructures, Option.map_eq_some_iff] at hget
  obtain ⟨v', -, rfl⟩ := hget
  exact AbstractValue.not_tells_clobbered v' hv

/-- After a node that may run any code no structures are known. -/
theorem execute_forgets (h : s.execute g id = .ok s') (hvalid : s'.valid = true)
    (hc : g.Clobbers id) : ¬ s'.Knows x := by
  obtain ⟨node, hn, hc⟩ := hc
  obtain ⟨node', s₁, s₂, hn', -, -, -, -, rfl⟩ := execute_ok h hvalid
  cases hn.symm.trans hn'
  rw [if_pos hc]
  exact not_knows_forgetStructures s₂ x

/-- The structures known after a node were known before, or the node reveals them. -/
theorem execute_knows (h : s.execute g id = .ok s') (hvalid : s'.valid = true) (hk : s'.Knows x) :
    s.Knows x ∨ g.Reveals id x := by
  by_cases hc : g.Clobbers id
  · exact absurd hk (execute_forgets h hvalid hc)
  · obtain ⟨node, s₁, s₂, hn, hu, -, -, ht, rfl⟩ := execute_ok h hvalid
    rw [if_neg fun hop => hc ⟨node, hn, hop⟩] at hk
    exact ((transfer_ok ht).knows hn hk).imp_left (filterUses_knows hu)

/-- What a node does not concern stays known, unless the node may run any code. -/
theorem execute_knows_iff (h : s.execute g id = .ok s') (hvalid : s'.valid = true)
    (hx : ¬ g.Concerns id x) :
    s'.Knows x ↔ s.Knows x ∧ ¬ g.Clobbers id := by
  by_cases hc : g.Clobbers id
  · simp [execute_forgets h hvalid hc, hc]
  · obtain ⟨node, hn, hkept⟩ := execute_kept h hvalid hx
    rw [if_neg fun hop => hc ⟨node, hn, hop⟩] at hkept
    simp [Knows, hkept, hc]

/-- A check that a cell is a given one makes its structure known. -/
theorem execute_checkCell_knows {c : CellConstant} (h : s.execute g id = .ok s')
    (hvalid : s'.valid = true) (hn : g.node id = .ok node) (hop : node.op = .checkCell (.cell c))
    (he : node.child 0 = .ok e) : s'.Knows e.node := by
  obtain ⟨node', s₁, s₂, hn', -, -, hs₂, ht, rfl⟩ := execute_ok h hvalid
  cases hn.symm.trans hn'
  rw [hop, if_neg (by simp [Op.clobbersWorld])]
  rw [transfer, hop] at ht
  obtain ⟨e', he', ht⟩ := bind_eq_ok_iff.1 ht
  cases he.symm.trans he'
  obtain ⟨known, -, ht⟩ := bind_eq_ok_iff.1 ht
  cases ht
  rw [narrowTo_valid, Bool.and_eq_true, Bool.not_eq_true'] at hs₂
  exact ⟨_, by rw [narrowTo_current, get?_setFact_self], AbstractValue.tells_filterValue_cell hs₂.2⟩

/-! ## Runs of nodes -/

/-- Structures known after some nodes were known before all of them, or one of them revealed them;
no node since may run any code. -/
theorem executeAll_knows {ids : List NodeId} (h : executeAll g ids s = .ok s')
    (hvalid : s'.valid = true) (hk : s'.Knows x) :
    (s.Knows x ∧ ∀ id ∈ ids, ¬ g.Clobbers id) ∨
      ∃ before id after, ids = before ++ id :: after ∧ g.Reveals id x ∧ ∀ id' ∈ id :: after,
      ¬ g.Clobbers id' := by
  induction ids generalizing s with
  | nil =>
    cases h
    exact .inl ⟨hk, by simp⟩
  | cons id ids ih =>
    rw [executeAll] at h
    obtain ⟨s₁, h₁, h⟩ := bind_eq_ok_iff.1 h
    split at h
    · rename_i hs₁
      obtain ⟨hk₁, hafter⟩ | ⟨before, i, after, rfl, hr, hafter⟩ := ih h
      · have hid : ¬ g.Clobbers id := fun hc => execute_forgets h₁ hs₁ hc hk₁
        have hall : ∀ id' ∈ id :: ids, ¬ g.Clobbers id' := List.forall_mem_cons.2 ⟨hid, hafter⟩
        obtain hk | hr := execute_knows h₁ hs₁ hk₁
        · exact .inl ⟨hk, hall⟩
        · exact .inr ⟨[], id, ids, rfl, hr, hall⟩
      · exact .inr ⟨id :: before, i, after, rfl, hr, hafter⟩
    · rename_i hs₁
      cases h
      exact absurd hvalid hs₁

/-- What some nodes do not concern stays known if none of them may run any code. -/
theorem executeAll_knows_iff {ids : List NodeId} (h : executeAll g ids s = .ok s')
    (hvalid : s'.valid = true) (hx : ∀ id ∈ ids, ¬ g.Concerns id x)
    (hc : ∀ id ∈ ids, ¬ g.Clobbers id) : s'.Knows x ↔ s.Knows x := by
  induction ids generalizing s with
  | nil =>
    cases h
    rfl
  | cons id ids ih =>
    rw [List.forall_mem_cons] at hx hc
    rw [executeAll] at h
    obtain ⟨s₁, h₁, h⟩ := bind_eq_ok_iff.1 h
    split at h
    · rename_i hs₁
      rw [ih h hx.2 hc.2, execute_knows_iff h₁ hs₁ hx.1]
      simp [hc.1]
    · rename_i hs₁
      cases h
      exact absurd hvalid hs₁

end AbstractState

end SpecJit
