import SpecJit.Proofs.Execution
import SpecJit.Proofs.Fixpoint.Order
import SpecJit.Proofs.Graph.Valid

/-!
# Executing a block

The nodes of a well-formed graph are executed without a fault, and all facts that come about are
about nodes of the graph (`executeAll_total`). What comes about depends on the facts at the start
only, not on what is known at the heads of blocks (`executeAll_withBlocks`), so that a block can be
replayed later.
-/

namespace SpecJit

/-- What validation checks of a node: it has the uses that its operation looks at, and it names
nodes of the graph. -/
structure Node.Linked (g : Graph) (node : Node) : Prop where
  uses : node.op.minChildren ≤ node.children.length
  children : ∀ e ∈ node.children, e.node.index < g.nodes.size
  phi : ∀ phi, node.op = .upsilon phi → phi.index < g.nodes.size

namespace Graph

variable {g : Graph} {id : NodeId}

theorem checkListed_linked (h : g.checkListed id = .ok ()) :
    ∃ node, g.node id = .ok node ∧ node.Linked g := by
  unfold checkListed at h
  split at h
  · cases h
  · rename_i node hn
    split at h
    · cases h
    · rename_i hnamed
      split at h
      · cases h
      · have hexists : ∀ used ∈ namedBy node, used.index < g.nodes.size := by
          rw [List.find?_eq_none] at hnamed
          intro used hused
          simpa [hasNode] using hnamed used hused
        refine ⟨node,
          by simp [Graph.node, hn, Fault.ofOption], by omega, fun e he => ?_, fun phi hop => ?_⟩
        · exact hexists _ (List.mem_append_left _ (List.mem_map_of_mem he))
        · exact hexists _ (by simp [namedBy, hop])

theorem index_lt_of_node {node : Node} (h : g.node id = .ok node) : id.index < g.nodes.size := by
  unfold Graph.node Fault.ofOption at h
  split at h
  · rename_i hn
    exact (Array.getElem?_eq_some_iff.1 hn).1
  · cases h

theorem boundOf_total (h : id.index < g.nodes.size) : ∃ bound, g.boundOf id = .ok bound := by
  obtain ⟨node, hn⟩ : ∃ node, g.node? id = some node := ⟨_, Array.getElem?_eq_getElem h⟩
  exact ⟨node.result.typeBound,
    by simp [boundOf, Graph.node, hn, Fault.ofOption, bind, Except.bind, pure, Except.pure]⟩

end Graph

namespace AbstractState

variable {g : Graph} {s s' : AbstractState} {id : NodeId} {node : Node}

/-! ## No faults -/

theorem factOf_total (s : AbstractState) (h : id.index < g.nodes.size) :
    ∃ v, s.factOf g id = .ok v := by
  obtain ⟨bound, hbound⟩ := Graph.boundOf_total h
  unfold factOf
  split
  · exact ⟨_, rfl⟩
  · exact ⟨.ofType bound, by rw [hbound]; rfl⟩

theorem slotOf_total (s : AbstractState) (h : id.index < g.nodes.size) :
    ∃ v, s.slotOf g id = .ok v := by
  obtain ⟨bound, hbound⟩ := Graph.boundOf_total h
  exact ⟨_, by rw [slotOf, hbound]; rfl⟩

theorem child_total (h : node.Linked g) {i : Nat} (hi : i < node.op.minChildren) :
    ∃ e, node.child i = .ok e ∧ e.node.index < g.nodes.size := by
  have hlt : i < node.children.length := Nat.lt_of_lt_of_le hi h.uses
  refine ⟨node.children[i],
    by simp [Node.child, hlt, Fault.ofOption], h.children _ (List.getElem_mem hlt)⟩

theorem useFact_total (s : AbstractState) (h : node.Linked g) {i : Nat}
    (hi : i < node.op.minChildren) :
    ∃ v, s.useFact g node i = .ok v := by
  obtain ⟨e, he, hlt⟩ := child_total h hi
  obtain ⟨v, hv⟩ := s.factOf_total hlt
  exact ⟨v, by rw [useFact, he]; exact hv⟩

theorem foldInt32_total (s : AbstractState) (h : node.Linked g) (hi : 1 < node.op.minChildren)
    (f : Int32 → Int32 → Option Int32) :
    ∃ v, s.foldInt32 g node f = .ok v := by
  obtain ⟨v₀, hv₀⟩ := s.useFact_total h (i := 0) (by omega)
  obtain ⟨v₁, hv₁⟩ := s.useFact_total h hi
  simp only [foldInt32, hv₀, hv₁, bind, Except.bind]
  split
  · exact ⟨_, rfl⟩
  · split
    · exact ⟨_, rfl⟩
    · split <;> exact ⟨_, rfl⟩

theorem anyM_total {α : Type} {p : α → Except Fault Bool} {l : List α}
    (h : ∀ a ∈ l, ∃ b, p a = .ok b) :
    ∃ b, l.anyM p = .ok b := by
  induction l with
  | nil => exact ⟨false, rfl⟩
  | cons a l ih =>
    obtain ⟨b, hb⟩ := h a (by simp)
    obtain ⟨b', hb'⟩ := ih fun a' ha' => h a' (by simp [ha'])
    rw [List.anyM, hb]
    cases b with
    | true => exact ⟨true, rfl⟩
    | false => exact ⟨b', hb'⟩

theorem numericResult_total (s : AbstractState) (h : node.Linked g) :
    ∃ v, s.numericResult g node = .ok v := by
  obtain ⟨impure, himpure⟩ :=
    anyM_total (p := fun e : Edge => do return (← s.typeOf g e.node).couldBeImpureNaN)
    (l := node.children) fun e he => by
      obtain ⟨v, hv⟩ := s.factOf_total (h.children e he)
      exact ⟨v.ty.couldBeImpureNaN, by simp [typeOf, hv, bind, Except.bind, pure, Except.pure]⟩
  unfold numericResult
  split
  · exact ⟨_, rfl⟩
  · exact ⟨_, rfl⟩
  · rw [himpure]
    exact ⟨_, rfl⟩
  · exact ⟨_, rfl⟩

theorem resultFact_total (s : AbstractState) (h : node.Linked g) :
    ∃ v, s.resultFact g node = .ok v := by
  have huse (hi : 0 < node.op.minChildren) := s.useFact_total h hi
  have hfirst (hi : 0 < node.op.minChildren) : ∃ e v, node.child 0 = .ok e ∧
    s.factOf g e.node = .ok v := by
    obtain ⟨e, he, hlt⟩ := child_total h hi
    obtain ⟨v, hv⟩ := s.factOf_total hlt
    exact ⟨e, v, he, hv⟩
  obtain ⟨v, hnumeric⟩ := s.numericResult_total h
  unfold resultFact
  cases hop : node.op with
  | identity | doubleRep | valueRep | booleanToNumber | toPrimitive | toThis =>
    obtain ⟨v, hv⟩ := huse (by simp [hop, Op.minChildren])
    simp only [hv, bind, Except.bind]
    exact ⟨_, rfl⟩
  | int52Rep | logicalNot =>
    obtain ⟨e, v, he, hv⟩ := hfirst (by simp [hop, Op.minChildren])
    simp only [he, typeOf, hv, bind, Except.bind]
    exact ⟨_, rfl⟩
  | isType query =>
    obtain ⟨e, v, he, hv⟩ := hfirst (by simp [hop, Op.minChildren])
    cases query with
    | arrayObject => exact ⟨_, rfl⟩
    | _ =>
      simp only [he, typeOf, hv, bind, Except.bind]
      exact ⟨_, rfl⟩
  | arith op _ =>
    have hfolds (hi : 1 < node.op.minChildren) := s.foldInt32_total h hi op.fold?
    cases op with
    | add | sub | mul =>
      obtain ⟨folded, hfolded⟩ := hfolds (by simp [hop, Op.minChildren, ArithOp.isBinary])
      simp only [hfolded, hnumeric, bind, Except.bind]
      split <;> exact ⟨_, rfl⟩
    | div | mod | negate | abs => rw [hnumeric]; exact ⟨_, rfl⟩
  | arithMin | arithMax | arithSqrt | arithSin | arithCos | arithLog | arithPow | arithFRound =>
    rw [hnumeric]
    exact ⟨_, rfl⟩
  | bit op =>
    obtain ⟨folded, hfolded⟩ := s.foldInt32_total h (by simp [hop, Op.minChildren]) op.fold?
    simp only [hfolded, bind, Except.bind]
    split
    · exact ⟨_, rfl⟩
    · split <;> exact ⟨_, rfl⟩
  | int52Constant | uint32ToNumber | multiGetByOffset =>
    dsimp only
    split <;> exact ⟨_, rfl⟩
  | _ => exact ⟨_, rfl⟩

theorem filter_total (s : AbstractState) (h : id.index < g.nodes.size) (mask : SpecType) :
    ∃ s', s.filter g id mask = .ok s' := by
  obtain ⟨v, hv⟩ := s.slotOf_total h
  exact ⟨_, by rw [AbstractState.filter, hv]; rfl⟩

theorem transfer_total (s : AbstractState) (h : node.Linked g) (id : NodeId) :
    ∃ s', s.transfer g id node = .ok s' := by
  have hfirst (hi : 0 < node.op.minChildren) : ∃ e slot v, node.child 0 = .ok e ∧
    s.slotOf g e.node = .ok slot ∧
      s.factOf g e.node = .ok v ∧ ∀ mask, ∃ s', s.filter g e.node mask = .ok s' := by
    obtain ⟨e, he, hlt⟩ := child_total h hi
    obtain ⟨slot, hslot⟩ := s.slotOf_total hlt
    obtain ⟨v, hv⟩ := s.factOf_total hlt
    exact ⟨e, slot, v, he, hslot, hv, s.filter_total hlt⟩
  obtain ⟨result, hresult⟩ := s.resultFact_total h
  unfold transfer
  cases hop : node.op with
  | phi => dsimp only; split <;> exact ⟨_, rfl⟩
  | upsilon phi =>
    obtain ⟨v, hv⟩ := s.useFact_total h (i := 0) (by simp [hop, Op.minChildren])
    exact ⟨_, by rw [hv]; rfl⟩
  | checkStructure set =>
    obtain ⟨e, slot, v, he, hslot, -⟩ := hfirst (by simp [hop, Op.minChildren])
    exact ⟨_, by simp only [he, filterStructures, hslot, bind, Except.bind]; rfl⟩
  | checkCell c =>
    obtain ⟨e, slot, v, he, -, hv, -⟩ := hfirst (by simp [hop, Op.minChildren])
    exact ⟨_, by simp only [he, filterValue, hv, bind, Except.bind]; rfl⟩
  | checkNotEmpty =>
    obtain ⟨e, slot, v, he, -, -, hfilter⟩ := hfirst (by simp [hop, Op.minChildren])
    obtain ⟨s', hs'⟩ := hfilter SpecType.empty.complement
    exact ⟨s', by rw [he]; exact hs'⟩
  | checkArray mode =>
    dsimp only
    split
    · obtain ⟨e, slot, v, he, -, -, hfilter⟩ := hfirst (by simp [hop, Op.minChildren])
      obtain ⟨s', hs'⟩ := hfilter _
      exact ⟨s', by rw [he]; exact hs'⟩
    · exact ⟨_, rfl⟩
  | checkBadCell | forceOsrExit | throwValue | throwReferenceError => exact ⟨_, rfl⟩
  | putStructure | multiPutByOffset =>
    obtain ⟨e, slot, v, he, hslot, -⟩ := hfirst (by simp [hop, Op.minChildren])
    exact ⟨_, by simp only [he, hslot, bind, Except.bind]; rfl⟩
  | _ =>
    rw [hresult]
    cases result <;> exact ⟨_, rfl⟩

/-! ## The facts stay about nodes of the graph -/

theorem filterUses_total {edges : List Edge} (hedges : ∀ e ∈ edges, e.node.index < g.nodes.size)
    (hs : s.current.About g) :
    ∃ s', filterUses g edges s = .ok s' ∧ s'.current.About g := by
  induction edges generalizing s with
  | nil => exact ⟨s, rfl, hs⟩
  | cons e rest ih =>
    have hrest : ∀ e' ∈ rest, e'.node.index < g.nodes.size :=
      fun e' he' => hedges e' (by simp [he'])
    rw [filterUses]
    split
    · exact ih hrest hs
    · obtain ⟨s₁, h₁⟩ := s.filter_total (hedges e (by simp)) e.useKind.typeFilter
      obtain ⟨v, -, rfl⟩ := exists_of_filter h₁
      have habout : (s.narrowTo e.node (v.filter e.useKind.typeFilter)).current.About g := by
        rw [narrowTo_current]
        exact hs.set (hedges e (by simp)) _
      simp only [h₁, bind, Except.bind]
      split
      · exact ih hrest habout
      · exact ⟨_, rfl, habout⟩

theorem Effect.about (h : Effect g s id node s') (hlinked : node.Linked g)
    (hid : id.index < g.nodes.size) (hs : s.current.About g) : s'.current.About g := by
  have hchild {e : Edge} (he : node.child 0 = .ok e) : e.node.index < g.nodes.size :=
    hlinked.children e (Node.mem_of_child he)
  cases h with
  | nothing | dead => exact hs
  | phi | result => exact hs.set hid _
  | upsilon hop => exact hs.set (hlinked.phi _ hop) _
  | checkStructure _ he | checkCell _ he | checkKinds _ he =>
    rw [narrowTo_current]
    exact hs.set (hchild he) _
  | putStructure _ he | multiPutByOffset _ he => exact hs.set (hchild he) _

theorem execute_total (hid : g.checkListed id = .ok ()) (hs : s.current.About g) :
    ∃ s', s.execute g id = .ok s' ∧ s'.current.About g := by
  obtain ⟨node, hn, hlinked⟩ := Graph.checkListed_linked hid
  obtain ⟨s₁, h₁, habout₁⟩ := filterUses_total hlinked.children hs
  obtain ⟨s₂, h₂⟩ := s₁.transfer_total hlinked id
  have habout₂ := (transfer_ok h₂).about hlinked (Graph.index_lt_of_node hn) habout₁
  unfold execute
  split
  · exact ⟨s, rfl, hs⟩
  · simp only [hn, h₁, bind, Except.bind]
    split
    · exact ⟨s₁, rfl, habout₁⟩
    · simp only [h₂]
      split
      · exact ⟨_, rfl, habout₂.map _⟩
      · exact ⟨s₂, rfl, habout₂⟩

/-- The nodes of a block are executed without a fault. -/
theorem executeAll_total (ids : List NodeId) (hids : ∀ id ∈ ids, g.checkListed id = .ok ())
    (hs : s.current.About g) :
    ∃ s', executeAll g ids s = .ok s' ∧ s'.current.About g := by
  induction ids generalizing s with
  | nil => exact ⟨s, rfl, hs⟩
  | cons id ids ih =>
    rw [List.forall_mem_cons] at hids
    obtain ⟨s₁, h₁, habout⟩ := execute_total hids.1 hs
    rw [executeAll]
    simp only [h₁, bind, Except.bind]
    split
    · exact ih hids.2 habout
    · exact ⟨s₁, rfl, habout⟩

/-! ## What is known at the heads of blocks does not matter -/

/-- The state with other facts at the heads of blocks. -/
def withBlocks (blocks : Array BlockFacts) (s : AbstractState) : AbstractState := { s with blocks }

variable (blocks : Array BlockFacts)

theorem narrowTo_withBlocks (id : NodeId) (v : AbstractValue) :
    (s.withBlocks blocks).narrowTo id v = (s.narrowTo id v).withBlocks blocks := by
  unfold narrowTo
  split <;> rfl

theorem filter_withBlocks (id : NodeId) (mask : SpecType) :
    (s.withBlocks blocks).filter g id mask = (s.filter g id mask).map (withBlocks blocks) := by
  have hslot : (s.withBlocks blocks).slotOf g id = s.slotOf g id := rfl
  rw [AbstractState.filter, AbstractState.filter, hslot]
  cases s.slotOf g id with
  | error f => rfl
  | ok v => exact congrArg Except.ok (narrowTo_withBlocks blocks id _)

theorem bind_withBlocks {α : Type} (x : Except Fault α) {f f' : α → Except Fault AbstractState}
    (h : ∀ a, f a = (f' a).map (withBlocks blocks)) :
    x >>= f = (x >>= f').map (withBlocks blocks) := by
  cases x with
  | error e => rfl
  | ok a => exact h a

theorem filterUses_withBlocks (edges : List Edge) :
    filterUses g edges (s.withBlocks blocks) = (filterUses g edges s).map (withBlocks blocks) := by
  induction edges generalizing s with
  | nil => rfl
  | cons e rest ih =>
    rw [filterUses, filterUses, filter_withBlocks]
    split
    · exact ih
    · cases s.filter g e.node e.useKind.typeFilter with
      | error f => rfl
      | ok s₁ =>
        by_cases hv : s₁.valid = true
        · simpa [bind, Except.bind, Except.map, withBlocks, hv] using ih (s := s₁)
        · simp [bind, Except.bind, Except.map, withBlocks, hv, pure, Except.pure]

theorem transfer_withBlocks (id : NodeId) (node : Node) :
    (s.withBlocks blocks).transfer g id node = (s.transfer g id node).map (withBlocks blocks) := by
  unfold transfer
  cases node.op with
  | phi =>
    have hget : (s.withBlocks blocks).current.get? id = s.current.get? id := rfl
    dsimp only
    rw [hget]
    cases s.current.get? id <;> rfl
  | upsilon phi => exact bind_withBlocks blocks (s.useFact g node 0) fun _ => rfl
  | checkStructure set =>
    refine bind_withBlocks blocks _ fun e => bind_withBlocks blocks (s.slotOf g e.node) fun v => ?_
    exact congrArg Except.ok (narrowTo_withBlocks blocks e.node (v.filterStructures set))
  | checkCell c =>
    refine bind_withBlocks blocks _ fun e => bind_withBlocks blocks (s.factOf g e.node) fun v => ?_
    exact congrArg Except.ok (narrowTo_withBlocks blocks e.node (v.filterValue g.structures c))
  | checkNotEmpty => exact bind_withBlocks blocks _ fun e => filter_withBlocks blocks e.node _
  | checkArray mode =>
    dsimp only
    split
    · exact bind_withBlocks blocks _ fun e => filter_withBlocks blocks e.node _
    · rfl
  | checkBadCell | forceOsrExit | throwValue | throwReferenceError => rfl
  | putStructure | multiPutByOffset =>
    exact bind_withBlocks blocks _ fun e => bind_withBlocks blocks (s.slotOf g e.node) fun v => rfl
  | _ =>
    refine bind_withBlocks blocks (s.resultFact g node) fun v => ?_
    cases v <;> rfl

theorem execute_withBlocks (id : NodeId) :
    (s.withBlocks blocks).execute g id = (s.execute g id).map (withBlocks blocks) := by
  unfold execute
  change (if !s.valid then _ else _) = Except.map _ (if !s.valid then _ else _)
  split
  · rfl
  refine bind_withBlocks blocks _ fun node => ?_
  rw [filterUses_withBlocks]
  cases filterUses g node.children s with
  | error f => rfl
  | ok s₁ =>
    change (if !s₁.valid then _ else (s₁.withBlocks blocks).transfer g id node >>= _) =
      Except.map _ (if !s₁.valid then _ else s₁.transfer g id node >>= _)
    split
    · rfl
    rw [transfer_withBlocks]
    cases s₁.transfer g id node with
    | error f => rfl
    | ok s₂ =>
      change (if s₂.valid && node.op.clobbersWorld then _ else _) =
        Except.map _ (if s₂.valid && node.op.clobbersWorld then _ else _)
      split <;> rfl

/-- The facts that come about at the end of a block depend on those at its head only. -/
theorem executeAll_withBlocks (ids : List NodeId) :
    executeAll g ids (s.withBlocks blocks) = (executeAll g ids s).map (withBlocks blocks) := by
  induction ids generalizing s with
  | nil => rfl
  | cons id ids ih =>
    rw [executeAll, executeAll, execute_withBlocks]
    cases s.execute g id with
    | error f => rfl
    | ok s₁ =>
      change (if s₁.valid then executeAll g ids (s₁.withBlocks blocks) else _) =
        Except.map _ (if s₁.valid then executeAll g ids s₁ else _)
      split
      · exact ih
      · rfl

end AbstractState

end SpecJit
