import SpecJit.Lowering
import SpecJit.Simulation
import SpecJit.Proofs.Lowering.Laws.Switch
import SpecJit.Proofs.Lir.Run

/-!
# Where the lowering puts dead ends

A block of the finished function ends as unreachable for one of two reasons. Either the code of a
node ended in it and the facts after that node were contradictory (`Session.Contradicted`), or it is
the block of a part of the graph that got no code (`Session.Uncoded`). `blocks_unreachable_iff` says
that these are all, and `run_ends_unreachable_iff` what that means for a run: it ends as unreachable
exactly if it gets past every check of a node after which the facts leave nothing.

The proof follows the lowering block by block and node by node. The invariant `Settled` says that
the blocks without a terminator are those of the graph's blocks whose turn is still to come, and
which of the others are dead ends.
-/

namespace SpecJit

/-- The operation does not say by itself that control does not get past it. -/
def Op.isPassable : Op → Bool
  | .unreachable | .bottomValue => false
  | _ => true

/-- Every operation of the graph can be got past. -/
def Graph.AlwaysPassable (g : Graph) : Prop := ∀ node ∈ g.nodes, node.op.isPassable = true

instance (g : Graph) : Decidable g.AlwaysPassable :=
  inferInstanceAs (Decidable (∀ node ∈ g.nodes, node.op.isPassable = true))

theorem Graph.node_mem {g : Graph} {id : NodeId} {node : Node} (h : g.node id = .ok node) :
    node ∈ g.nodes := by
  unfold Graph.node Graph.node? Fault.ofOption at h
  cases hn : g.nodes[id.index]? with
  | none => rw [hn] at h; cases h
  | some n => rw [hn] at h; cases h; exact Array.mem_of_getElem? hn

namespace Lowering

open Lir

variable {env : Env} {s s' s₀ : State} {u : Unit}

namespace Session

variable (session : Session)

/-- The lowering comes to block `b`, and the block has no code yet. -/
structure Turn (b : BlockIndex) (s : State) : Prop where
  inRange : b.index < session.env.graph.blocks.size
  comes : ∃ done rest, session.env.dominators.preOrder = done ++ b :: rest ∧
    done.forM lowerBlock session.env session.state = .ok ((), s)
  isOpen : s.builder.IsOpen (b.index + 1)

/-- The state in which the first node of a block is lowered. -/
def headState (env : Env) (s : State) (b : BlockIndex) (facts : AbstractState) : State :=
  { s with
    builder := s.builder.goTo ⟨b.index + 1⟩
    block := b
    node := none
    upsilons := []
    facts
    availability := AvailabilityMap.headOrEmpty env.graph env.availabilityHeads b }

/-- The lowering comes to node `id`, in state `s`. -/
structure ComesTo (id : NodeId) (s : State) : Prop where
  path : ∃ b s₁ facts block before after, session.Turn b s₁ ∧ s₁.facts.isVisited b = .ok true ∧
    s₁.facts.needsReverification b = .ok false ∧ s₁.facts.beginBlock b = .ok facts ∧
    session.env.graph.block b = .ok block ∧ block.nodes.toList = before ++ id :: after ∧
    lowerNodes before session.env (headState session.env s₁ b facts) = .ok ((), s)
  valid : s.facts.valid = true

/-- The code of some node ends in block `b`, and the facts after the node are contradictory. -/
def Contradicted (b : BlockId) : Prop :=
  ∃ id s s₁ node facts, session.ComesTo id s ∧ session.env.graph.node id = .ok node ∧
    lowerOp id node session.env { s with node := some id, origin := node.origin } = .ok ((), s₁) ∧
    s₁.builder.current = b ∧ s₁.builder.IsOpen b.index ∧
    s₁.facts.execute session.env.graph id = .ok facts ∧ facts.valid = false

/-- Block `b` belongs to a block of the graph that gets no code: the analysis did not visit it or
its facts were given up, or it is not reachable in the graph. -/
def Uncoded (b : BlockId) : Prop :=
  (∃ i s, b = ⟨i.index + 1⟩ ∧ session.Turn i s ∧
    (s.facts.isVisited i = .ok false ∨ s.facts.needsReverification i = .ok true)) ∨
  (∃ i : BlockIndex, b = ⟨i.index + 1⟩ ∧ i.index < session.env.graph.blocks.size ∧
    i ∉ session.env.dominators.preOrder) ∨
  (b = ⟨0⟩ ∧ session.env.graph.blocks.isEmpty)

end Session

/-! ## One node -/

/-- Ending a block as unreachable closes the current one. -/
theorem endUnreachable_ok (h : endUnreachable env s = .ok (u, s'))
    (ho : s.builder.IsOpen s.builder.current.index) :
    s'.builder = s.builder.close .unreachable := by
  obtain ⟨_, b₁, h₁, h⟩ := emit_bind_ok h
  obtain ⟨b₂, h₂, rfl⟩ := Emit.terminate_ok h₁
  obtain rfl := Emit.ensureOpen_of_open h₂ ho
  obtain ⟨_, s₂, hm, h⟩ := bind_ok h
  cases hm
  rw [invalidateDominated, read_bind, get_bind] at h
  obtain ⟨facts, -, h⟩ := check_bind_ok h
  cases h
  rfl

/-- What follows the code of a node: nothing if the block has its terminator, the effect of the node
on the facts otherwise, and a dead end if that is a contradiction. -/
inductive Aftermath (g : Graph) (id : NodeId) (s s' : State) : Prop
  | ended : s.builder.IsClosed s.builder.current.index → s'.builder = s.builder →
    Aftermath g id s s'
  | goesOn {facts : AbstractState} : s.builder.IsOpen s.builder.current.index →
      s.facts.execute g id = .ok facts → facts.valid = true → s'.builder = s.builder →
      s'.facts = facts →
      Aftermath g id s s'
  | deadEnd {facts : AbstractState} : s.builder.IsOpen s.builder.current.index →
      s.facts.execute g id = .ok facts → facts.valid = false → s'.builder = s.builder.close
        .unreachable →
      Aftermath g id s s'

/-- A node as its code and what follows. -/
theorem lowerNode_ok {id : NodeId} (h : lowerNode id env s = .ok (u, s')) :
    ∃ node s₁, env.graph.node id = .ok node ∧
      lowerOp id node env { s with node := some id, origin := node.origin } = .ok ((), s₁) ∧
      Aftermath env.graph id s₁ s' := by
  rw [lowerNode, read_bind] at h
  obtain ⟨node, hnode, h⟩ := getNode_bind_ok h
  obtain ⟨_, s₂, h₂, h⟩ := bind_ok h
  cases h₂
  obtain ⟨_, s₃, h₃, h⟩ := bind_ok h
  refine ⟨node, s₃, hnode, h₃, ?_⟩
  obtain ⟨_, s₄, h₄, h⟩ := bind_ok h
  cases h₄
  obtain ⟨t, b₅, h₅, h⟩ := emit_bind_ok h
  obtain ⟨rfl, ht⟩ := Emit.isTerminated_ok h₅
  rw [get_bind] at h
  -- where values are is no matter of the code
  have hlast {s₇ : State} (h : ((get : Lower State) >>= fun s₈ =>
      (liftM (s₈.availability.execute env.graph id) : Lower AvailabilityMap) >>= fun availability =>
      modify fun s => { s with availability }) env s₇ = .ok (u, s')) :
      s'.builder = s₇.builder ∧ s'.facts = s₇.facts := by
    rw [get_bind] at h
    obtain ⟨availability, -, h⟩ := check_bind_ok h
    cases h
    exact ⟨rfl, rfl⟩
  cases t with
  | true =>
    simp only [Bool.not_true, Bool.and_false, Bool.false_eq_true, if_false] at h
    exact .ended ht (hlast h).1
  | false =>
    cases hv : s₃.facts.valid with
    | false =>
      simp only [hv, Bool.not_false, Bool.false_and, Bool.false_eq_true, if_false, if_true] at h
      obtain ⟨_, s₇, h₇, h⟩ := bind_ok h
      have hb := endUnreachable_ok h₇ ht
      have hexec : s₃.facts.execute env.graph id = .ok s₃.facts := by
        simp [AbstractState.execute, hv]
        rfl
      exact .deadEnd ht hexec hv ((hlast h).1.trans hb)
    | true =>
      simp only [hv, Bool.not_false, Bool.and_self, if_true] at h
      rw [get_bind] at h
      obtain ⟨facts, hexec, h⟩ := check_bind_ok h
      obtain ⟨_, s₆, h₆, h⟩ := bind_ok h
      cases h₆
      cases hf : facts.valid with
      | false =>
        simp only [hf, Bool.not_false, if_true] at h
        obtain ⟨_, s₇, h₇, h⟩ := bind_ok h
        have hb := endUnreachable_ok h₇ ht
        exact .deadEnd ht hexec hf ((hlast h).1.trans hb)
      | true =>
        simp only [hf, Bool.not_true, Bool.false_eq_true, if_false] at h
        exact .goesOn ht hexec hf (hlast h).1 (hlast h).2

/-! ## Growth with dead ends -/

/-- Growth that leaves nothing pending and whose dead ends are in `D`. -/
structure Coded (D : BlockId → Prop) (b b' : Builder) : Prop extends b.Grows [] b' where
  dead : ∀ (i : Nat) blk, b'.IsClosed i → ¬ b.IsClosed i → b'.func.blocks[i]? = some blk →
    blk.terminator = .unreachable → D ⟨i⟩

section Coded

variable {D : BlockId → Prop} {b b' b'' : Builder}

theorem Coded.of_emits (h : b.Emits [] b') : Coded D b b' where
  toGrows := h.toGrows
  dead i blk hc hn hb ht := absurd ht (h.ended i blk hc hn hb)

theorem Coded.trans (h₁ : Coded D b b') (h₂ : Coded D b' b'') : Coded D b b'' where
  toGrows := h₁.toGrows.trans h₂.toGrows
  dead i blk hc hn hb ht := by
    by_cases hc' : b'.IsClosed i
    · rw [(h₂.closed i hc').2] at hb
      exact h₁.dead i blk hc' hn hb ht
    · exact h₂.dead i blk hc hc' hb ht

theorem Coded.mono {D' : BlockId → Prop} (h : Coded D b b') (hD : ∀ p, D p → D' p) :
    Coded D' b b' where
  toGrows := h.toGrows
  dead i blk hc hn hb ht := hD _ (h.dead i blk hc hn hb ht)

/-- A dead end in `D`. -/
theorem Coded.close (hw : b.WellFormed) (ho : b.IsOpen b.current.index) (hD : D b.current) :
    Coded D b (b.close .unreachable) where
  toGrows := Builder.close_grows hw ho .unreachable
  dead i blk hc hn _ _ := by
    obtain rfl := ((Builder.close_isClosed_iff hw .unreachable).1 hc).resolve_right hn
    exact hD

end Coded

/-! ## The nodes of a block -/

/-- The dead ends of one node. -/
def NodeContradicted (env : Env) (id : NodeId) (s : State) (b : BlockId) : Prop :=
  ∃ s₁ node facts, env.graph.node id = .ok node ∧
    lowerOp id node env { s with node := some id, origin := node.origin } = .ok ((), s₁) ∧
    s₁.builder.current = b ∧ s₁.builder.IsOpen b.index ∧
    s₁.facts.execute env.graph id = .ok facts ∧ facts.valid = false

/-- The code of a node: its only dead end is the block in which a contradiction is found, and while
the block is open the facts are valid. -/
theorem lowerNode_coded {id : NodeId} (hg : env.graph.AlwaysPassable) (hw : s.builder.WellFormed)
    (h : lowerNode id env s = .ok (u, s')) :
    Coded (NodeContradicted env id s) s.builder s'.builder ∧
      (s'.builder.IsOpen s'.builder.current.index → s'.facts.valid = true) := by
  obtain ⟨node, s₁, hnode, hop, hafter⟩ := lowerNode_ok h
  have hpass := hg node (Graph.node_mem hnode)
  have hu : node.op ≠ .unreachable := fun he => by simp [he, Op.isPassable] at hpass
  have hb : node.op ≠ .bottomValue := fun he => by simp [he, Op.isPassable] at hpass
  have e₁ : s.builder.Emits [] s₁.builder := by
    have := tidy_lowerOp id hu hb
    exact Tidy.after hop (.refl hw)
  cases hafter with
  | ended hc heq =>
    rw [heq]
    exact ⟨.of_emits e₁, fun ho => absurd hc ho.not_closed⟩
  | goesOn ho hexec hv heq hfacts =>
    rw [heq, hfacts]
    exact ⟨.of_emits e₁, fun _ => hv⟩
  | deadEnd ho hexec hv heq =>
    rw [heq]
    refine ⟨(Coded.of_emits e₁).trans (.close e₁.after ho ⟨s₁, node, _, hnode, hop, rfl, ho, hexec,
      hv⟩), fun ho' => ?_⟩
    exact absurd (Builder.close_isClosed e₁.after .unreachable) ho'.not_closed

theorem lowerNodes_of_invalid (nodes : List NodeId) (hv : s.facts.valid = false) :
    lowerNodes nodes env s = .ok ((), s) := by
  cases nodes with
  | nil => rfl
  | cons id rest =>
    rw [lowerNodes, get_bind]
    simp [hv]
    rfl

theorem lowerNodes_cons {id : NodeId} {rest : List NodeId} (hv : s.facts.valid = true) :
    lowerNodes (id :: rest) env s = (lowerNode id >>= fun _ => lowerNodes rest) env s := by
  rw [lowerNodes, get_bind]
  simp [hv]

theorem lowerNodes_append {before after : List NodeId}
    (h : lowerNodes (before ++ after) env s = .ok (u, s')) :
    ∃ s₁, lowerNodes before env s = .ok ((), s₁) ∧ lowerNodes after env s₁ = .ok (u, s') := by
  induction before generalizing s with
  | nil => exact ⟨s, rfl, h⟩
  | cons id before ih =>
    cases hv : s.facts.valid with
    | false =>
      rw [lowerNodes_of_invalid _ hv] at h ⊢
      exact ⟨s, rfl, by rw [lowerNodes_of_invalid _ hv]; exact h⟩
    | true =>
      rw [List.cons_append, lowerNodes_cons hv] at h
      obtain ⟨_, s₁, h₁, h⟩ := bind_ok h
      obtain ⟨s₂, h₂, h⟩ := ih h
      refine ⟨s₂, ?_, h⟩
      rw [lowerNodes_cons hv, bind_of_ok h₁]
      exact h₂

/-- The dead ends of nodes that are lowered in order. -/
def NodesContradicted (env : Env) (nodes : List NodeId) (s : State) (b : BlockId) : Prop :=
  ∃ before id after s₁, nodes = before ++ id :: after ∧ lowerNodes before env s = .ok ((), s₁) ∧
    s₁.facts.valid = true ∧ NodeContradicted env id s₁ b

theorem lowerNodes_coded {nodes : List NodeId} (hg : env.graph.AlwaysPassable)
    (hw : s.builder.WellFormed)
    (hv : s.builder.IsOpen s.builder.current.index → s.facts.valid = true)
    (h : lowerNodes nodes env s = .ok (u, s')) :
    Coded (NodesContradicted env nodes s) s.builder s'.builder ∧
      (s'.builder.IsOpen s'.builder.current.index → s'.facts.valid = true) := by
  induction nodes generalizing s with
  | nil =>
    cases h
    exact ⟨.of_emits (.refl hw), hv⟩
  | cons id rest ih =>
    cases hvalid : s.facts.valid with
    | false =>
      rw [lowerNodes_of_invalid _ hvalid] at h
      cases h
      exact ⟨.of_emits (.refl hw), hv⟩
    | true =>
      rw [lowerNodes_cons hvalid] at h
      obtain ⟨_, s₁, h₁, h⟩ := bind_ok h
      obtain ⟨e₁, hv₁⟩ := lowerNode_coded hg hw h₁
      obtain ⟨e₂, hv₂⟩ := ih e₁.after hv₁ h
      refine ⟨(e₁.mono fun b hb => ?_).trans (e₂.mono fun b hb => ?_), hv₂⟩
      · exact ⟨[], id, rest, s, rfl, rfl, hvalid, hb⟩
      · obtain ⟨before, id', after, s₂, rfl, hbefore, hvalid₂, hb⟩ := hb
        refine ⟨id :: before, id', after, s₂, rfl, ?_, hvalid₂, hb⟩
        rw [lowerNodes_cons hvalid, bind_of_ok h₁]
        exact hbefore

/-! ## Blocks -/

/-- The lowering of a block that is open. -/
inductive BlockLowered (env : Env) (b : BlockIndex) (s s' : State) : Prop
  /-- the block gets no code -/
  | skipped : s.facts.isVisited b = .ok false ∨ s.facts.needsReverification b = .ok true →
      s'.builder = (s.builder.goTo ⟨b.index + 1⟩).close .unreachable → BlockLowered env b s s'
  | coded {facts : AbstractState} {block : BasicBlock} {s₁ : State} : s.facts.isVisited
    b = .ok true →
      s.facts.needsReverification b = .ok false → s.facts.beginBlock b = .ok facts →
      env.graph.block b = .ok block → facts.valid = true →
      lowerNodes block.nodes.toList env (Session.headState env s b facts) = .ok ((), s₁) →
      s'.builder = s₁.builder →  s'.builder.IsClosed s'.builder.current.index →
      BlockLowered env b s s'

theorem lowerReachedBlock_ok {b : BlockIndex} (hg : env.graph.AlwaysPassable)
    (hw : (s.builder.goTo ⟨b.index + 1⟩).WellFormed) (hvisited : s.facts.isVisited b = .ok true)
    (hkept : s.facts.needsReverification b = .ok false)
    (h : lowerReachedBlock b env
      { s with builder := s.builder.goTo ⟨b.index + 1⟩, block := b, node := none, upsilons := [] }
      = .ok (u, s')) :
    BlockLowered env b s s' := by
  rw [lowerReachedBlock, read_bind, get_bind] at h
  obtain ⟨facts, hfacts, h⟩ := check_bind_ok h
  obtain ⟨_, s₁, h₁, h⟩ := bind_ok h
  cases h₁
  obtain ⟨block, hblock, h⟩ := check_bind_ok h
  obtain ⟨_, s₂, h₂, h⟩ := bind_ok h
  have hvalid : facts.valid = true := by
    unfold AbstractState.isVisited at hvisited
    unfold AbstractState.beginBlock at hfacts
    cases hb : Fault.ofOption s.facts.blocks[b.index]? with
    | error e => rw [hb] at hvisited; cases hvisited
    | ok bf =>
      rw [hb] at hvisited hfacts
      cases hfacts
      simpa [bind, Except.bind, pure, Except.pure] using hvisited
  obtain ⟨e₂, hv₂⟩ := lowerNodes_coded hg hw (fun _ => hvalid) h₂
  obtain ⟨t, b₃, h₃, h⟩ := emit_bind_ok h
  obtain ⟨rfl, ht⟩ := Emit.isTerminated_ok h₃
  cases t with
  | true =>
    cases h
    exact .coded hvisited hkept hfacts hblock hvalid h₂ rfl ht
  | false =>
    -- control would fall off the end of the block
    simp only [Bool.not_false, if_true] at h
    rw [get_bind] at h
    simp only [hv₂ ht, if_true] at h
    cases h

/-- What lowering a block amounts to. -/
inductive BlockTurn (env : Env) (b : BlockIndex) (s s' : State) : Prop
  /-- the block has its code already -/
  | again : s.builder.IsClosed (b.index + 1) →
    s' = { s with builder := s.builder.goTo ⟨b.index + 1⟩ } → BlockTurn env b s s'
  /-- the block gets no code -/
  | skipped : s.builder.IsOpen (b.index + 1) → s.facts.isVisited b = .ok false ∨
    s.facts.needsReverification b = .ok true →
      s'.builder = (s.builder.goTo ⟨b.index + 1⟩).close .unreachable → BlockTurn env b s s'
  | reached : s.builder.IsOpen (b.index + 1) → s.facts.isVisited b = .ok true →
    s.facts.needsReverification b = .ok false →
      lowerReachedBlock b env
        { s with builder := s.builder.goTo ⟨b.index + 1⟩, block := b, node := none, upsilons := [] }
        = .ok ((), s') →
      BlockTurn env b s s'

theorem lowerBlock_turn {b : BlockIndex} (h : lowerBlock b env s = .ok (u, s')) :
    b.index < env.graph.blocks.size ∧ BlockTurn env b s s' := by
  rw [lowerBlock, read_bind] at h
  unfold Env.bodyBlock at h
  by_cases hb : b.index < env.graph.blocks.size
  · refine ⟨hb, ?_⟩
    simp only [hb, if_true] at h
    obtain ⟨_, b₁, h₁, h⟩ := emit_bind_ok h
    obtain rfl := Emit.switchTo_ok h₁
    obtain ⟨t, b₂, h₂, h⟩ := emit_bind_ok h
    obtain ⟨rfl, ht⟩ := Emit.isTerminated_ok h₂
    cases t with
    | true =>
      cases h
      exact .again ht rfl
    | false =>
      simp only [Bool.false_eq_true, if_false] at h
      obtain ⟨_, s₃, h₃, h⟩ := bind_ok h
      cases h₃
      rw [get_bind] at h
      obtain ⟨visited, hvisited, h⟩ := check_bind_ok h
      obtain ⟨reverify, hkept, h⟩ := check_bind_ok h
      by_cases hc : visited = true ∧ reverify = false
      · obtain ⟨rfl, rfl⟩ := hc
        simp only [Bool.not_true, Bool.or_self, Bool.false_eq_true, if_false] at h
        exact .reached ht hvisited hkept h
      · have hcond : (!visited || reverify) = true := by
          cases visited <;> cases reverify <;> simp_all
        simp only [hcond, if_true] at h
        obtain ⟨_, s₄, h₄, h⟩ := bind_ok h
        cases h₄
        obtain ⟨b₅, h₅, rfl⟩ := emit_ok h
        obtain ⟨b₆, h₆, rfl⟩ := Emit.terminate_ok h₅
        obtain rfl := Emit.ensureOpen_of_open h₆ ht
        refine .skipped ht ?_ rfl
        cases visited with
        | false => exact .inl hvisited
        | true => cases reverify with
          | false => simp at hc
          | true => exact .inr hkept
  · simp only [hb, if_false] at h
    cases h

theorem lowerBlock_ok {b : BlockIndex} (hg : env.graph.AlwaysPassable) (hw : s.builder.WellFormed)
    (hsize : env.graph.blocks.size < s.builder.func.blocks.size)
    (h : lowerBlock b env s = .ok (u, s')) :
    b.index < env.graph.blocks.size ∧
      ((s.builder.IsClosed (b.index + 1) ∧ s'.builder = s.builder.goTo ⟨b.index + 1⟩) ∨
        (s.builder.IsOpen (b.index + 1) ∧ BlockLowered env b s s')) := by
  obtain ⟨hb, hturn⟩ := lowerBlock_turn h
  refine ⟨hb, ?_⟩
  have hw' : (s.builder.goTo ⟨b.index + 1⟩).WellFormed := ⟨hw.flags, Nat.lt_of_le_of_lt hb hsize⟩
  cases hturn with
  | again hclosed heq => exact .inl ⟨hclosed, by rw [heq]⟩
  | skipped hopen hwhy heq => exact .inr ⟨hopen, .skipped hwhy heq⟩
  | reached hopen hvisited hkept hreached =>
    exact .inr ⟨hopen, lowerReachedBlock_ok hg hw' hvisited hkept hreached⟩

theorem BlockLowered.coded_builder {session : Session} {b : BlockIndex}
    (hg : session.env.graph.AlwaysPassable) (hw : s.builder.WellFormed)
    (hsize : session.env.graph.blocks.size < s.builder.func.blocks.size) (hturn : session.Turn b s)
    (h : BlockLowered session.env b s s') :
    Coded (fun p => session.Contradicted p ∨ session.Uncoded p) (s.builder.goTo ⟨b.index + 1⟩)
      s'.builder ∧
      s'.builder.IsClosed s'.builder.current.index := by
  have hw' : (s.builder.goTo ⟨b.index + 1⟩).WellFormed :=
    ⟨hw.flags, Nat.lt_of_le_of_lt hturn.inRange hsize⟩
  cases h with
  | skipped hwhy heq =>
    rw [heq]
    exact ⟨.close hw' hturn.isOpen (.inr (.inl ⟨b, s, rfl, hturn, hwhy⟩)),
      Builder.close_isClosed hw' _⟩
  | @coded facts block s₁ hvisited hkept hfacts hblock hvalid hnodes heq hclosed =>
    refine ⟨?_, hclosed⟩
    rw [heq]
    refine (lowerNodes_coded (s := Session.headState session.env s b facts) hg hw' (fun _ => hvalid)
      hnodes).1.mono ?_
    rintro p ⟨before, id, after, s₂, hsplit, hbefore, hvalid₂, s₃, node, facts', hnode, hop, hcur,
      hopen, hexec, hdead⟩
    exact .inl ⟨id, s₂, s₃, node, facts',
      ⟨⟨b, s, facts, block, before, after, hturn, hvisited, hkept, hfacts, hblock, hsplit, hbefore⟩,
        hvalid₂⟩,
      hnode, hop, hcur, hopen, hexec, hdead⟩

/-! ## All blocks -/

/-- What holds after the blocks in `done`: the blocks without terminator are those of the graph's
blocks that are not done, and all dead ends are accounted for. -/
structure Settled (session : Session) (done : List BlockIndex) (s : State) : Prop where
  wf : s.builder.WellFormed
  size : session.env.graph.blocks.size < s.builder.func.blocks.size
  opened : ∀ i, s.builder.IsOpen i →
    (∃ b : BlockIndex, b ∉ done ∧ i = b.index + 1 ∧ b.index < session.env.graph.blocks.size) ∨
      (i = 0 ∧ session.env.graph.blocks.isEmpty)
  later : ∀ b : BlockIndex, b ∉ done → b.index < session.env.graph.blocks.size →
    s.builder.IsOpen (b.index + 1)
  entry : session.env.graph.blocks.isEmpty → s.builder.IsOpen 0
  waiting : ∀ i, s.builder.IsOpen i → ∃ blk, s.builder.func.blocks[i]? = some blk ∧
    blk.terminator = .unreachable
  dead : ∀ (i : Nat) blk, s.builder.IsClosed i → s.builder.func.blocks[i]? = some blk →
    blk.terminator = .unreachable → session.Contradicted ⟨i⟩ ∨ session.Uncoded ⟨i⟩

/-- Blocks that are open after a turn were open before it, and are as they were. -/
theorem Coded.open_before {D : BlockId → Prop} {b b' : Builder} {i : Nat} (h : Coded D b b')
    (hclosed : b'.IsClosed b'.current.index) (hi : b'.IsOpen i) :
    i ≠ b.current.index ∧ b.IsOpen i ∧ b'.func.blocks[i]? = b.func.blocks[i]? := by
  have hne : i ≠ b.current.index := by
    rintro rfl
    rw [h.left hi] at hclosed
    exact hi.not_closed hclosed
  have hlt : i < b.func.blocks.size := by
    refine Nat.lt_of_not_le fun hle => ?_
    rcases h.fresh i hle hi with rfl | hp
    · exact hi.not_closed hclosed
    · cases hp
  have ho := h.toExtends.open_of_open h.before hlt hi
  exact ⟨hne, ho, (h.aside i hne ho).2⟩

theorem Settled.step {session : Session} {done rest : List BlockIndex} {b : BlockIndex}
    (hg : session.env.graph.AlwaysPassable) (hs : Settled session done s)
    (horder : session.env.dominators.preOrder = done ++ b :: rest)
    (hdone : done.forM lowerBlock session.env session.state = .ok ((), s))
    (h : lowerBlock b session.env s = .ok (u, s')) :
    Settled session (done ++ [b]) s' ∧ s.builder.Extends s'.builder := by
  -- an open block other than this one still waits
  have hopened {i : Nat} (hi : s.builder.IsOpen i) (hne : i ≠ b.index + 1) :
      (∃ b' : BlockIndex, b' ∉ done ++ [b] ∧ i = b'.index + 1 ∧
        b'.index < session.env.graph.blocks.size) ∨
        (i = 0 ∧ session.env.graph.blocks.isEmpty) := by
    refine (hs.opened i hi).imp_left fun ⟨b', hb', hi', hlt⟩ => ⟨b', ?_, hi', hlt⟩
    have hbb : b' ≠ b := fun he => hne (by rw [hi', he])
    simp [hb', hbb]
  obtain ⟨hb, ⟨hc, heq⟩ | ⟨ho, hlow⟩⟩ := lowerBlock_ok hg hs.wf hs.size h
  · -- the block has its code already
    have hgo : s.builder.Extends (s.builder.goTo ⟨b.index + 1⟩) := ⟨fun _ _ h => h,
      fun _ blk h => ⟨blk, h, rfl, fun _ _ h => h⟩, fun _ h => ⟨h, rfl⟩⟩
    rw [heq]
    constructor
    · constructor <;> rw [heq]
      · exact ⟨hs.wf.flags, Nat.lt_of_le_of_lt hb hs.size⟩
      · exact hs.size
      · intro i hi
        refine hopened hi ?_
        rintro rfl
        exact Builder.IsOpen.not_closed hi hc
      · exact fun b' hb' => hs.later b' (by simp_all)
      · exact hs.entry
      · exact hs.waiting
      · exact hs.dead
    · exact hgo
  · obtain ⟨e, hclosed⟩ := hlow.coded_builder hg hs.wf hs.size ⟨hb, ⟨done, rest, horder, hdone⟩, ho⟩
    refine ⟨⟨e.after, Nat.lt_of_lt_of_le hs.size e.toExtends.size_le, fun i hi => ?_,
      fun b' hb' hlt => ?_,
      fun hempty => ?_, fun i hi => ?_, fun i blk hci hblk ht => ?_⟩, ⟨e.types, e.grown, e.closed⟩⟩
    · obtain ⟨hne, hi', -⟩ := e.open_before hclosed hi
      exact hopened hi' hne
    · rw [List.mem_append, not_or, List.mem_singleton] at hb'
      have hne : b'.index + 1 ≠ b.index + 1 := fun he => hb'.2 (by cases b; cases b'; simp_all)
      exact (e.aside (b'.index + 1) hne (hs.later b' hb'.1 hlt)).1
    · rw [Array.isEmpty_iff_size_eq_zero] at hempty
      omega
    · obtain ⟨-, hi', hsame⟩ := e.open_before hclosed hi
      rw [hsame]
      exact hs.waiting i hi'
    · by_cases hci' : s.builder.IsClosed i
      · rw [(e.closed i hci').2] at hblk
        exact hs.dead i blk hci' hblk ht
      · exact e.dead i blk hci hci' hblk ht

/-- All blocks that had their turn. -/
theorem Settled.run {session : Session} {done more : List BlockIndex}
    (hg : session.env.graph.AlwaysPassable) (hs : Settled session done s) (rest : List BlockIndex)
    (horder : session.env.dominators.preOrder = done ++ more ++ rest)
    (hdone : done.forM lowerBlock session.env session.state = .ok ((), s))
    (h : more.forM lowerBlock session.env s = .ok (u, s')) :
    Settled session (done ++ more) s' ∧ s.builder.Extends s'.builder := by
  induction more generalizing done s with
  | nil =>
    cases h
    exact ⟨by simpa using hs, .refl _⟩
  | cons b more ih =>
    rw [forM_cons] at h
    obtain ⟨_, s₁, h₁, h⟩ := bind_ok h
    obtain ⟨hs₁, e₁⟩ := hs.step hg (by simpa using horder) hdone h₁
    have hdone₁ : (done ++ [b]).forM lowerBlock session.env session.state = .ok ((), s₁) := by
      rw [forM_append, bind_of_ok hdone, forM_cons, bind_of_ok h₁]
      rfl
    obtain ⟨hs₂, e₂⟩ := ih hs₁ (by simpa using horder) hdone₁ h
    exact ⟨by simpa using hs₂, e₁.trans e₂⟩

/-! ## The start -/

/-- Blocks up to number `n` that are all open, without a terminator; the first one is current. -/
structure Blank (n : Nat) (b : Builder) : Prop where
  wf : b.WellFormed
  size : b.func.blocks.size = n + 1
  current : b.current = ⟨0⟩
  isOpen : ∀ i ≤ n, b.IsOpen i
  unended : ∀ (i : Nat) blk, b.func.blocks[i]? = some blk → blk.terminator = .unreachable

section Blank

variable {n : Nat} {b b' : Builder}

theorem Blank.start (name : String) : Blank 0 (.start name) where
  wf := ⟨rfl, by simp [Builder.start]⟩
  size := rfl
  current := rfl
  isOpen i hi := by
    obtain rfl : i = 0 := by omega
    rfl
  unended i blk h := by
    obtain ⟨hlt, heq⟩ := Array.getElem?_eq_some_iff.1 h
    simp only [Builder.start, List.size_toArray, List.length_cons, List.length_nil] at hlt
    obtain rfl : i = 0 := by omega
    subst heq
    rfl

theorem Blank.addReg (h : Blank n b) (ty : Ty) : Blank n (b.addReg ty) :=
  ⟨⟨h.wf.flags, h.wf.current⟩, h.size, h.current, h.isOpen, h.unended⟩

theorem Blank.addParam (h : Blank n b) (p : BlockId) (r : Reg) : Blank n (b.addParam p r) where
  wf :=
    ⟨by simpa [Builder.addParam] using h.wf.flags, by simpa [Builder.addParam] using h.wf.current⟩
  size := by simpa [Builder.addParam] using h.size
  current := h.current
  isOpen := h.isOpen
  unended i blk hb := by
    simp only [Builder.addParam, Array.getElem?_modify] at hb
    split at hb
    · obtain ⟨blk', hb', rfl⟩ := Option.map_eq_some_iff.1 hb
      exact h.unended i blk' hb'
    · exact h.unended i blk hb

theorem Blank.addInst (h : Blank n b) (d : InstData) : Blank n (b.addInst d) where
  wf := ⟨by simpa [Builder.addInst] using h.wf.flags, by simpa [Builder.addInst] using h.wf.current⟩
  size := by simpa [Builder.addInst] using h.size
  current := h.current
  isOpen := h.isOpen
  unended i blk hb := by
    simp only [Builder.addInst, Array.getElem?_modify] at hb
    split at hb
    · obtain ⟨blk', hb', rfl⟩ := Option.map_eq_some_iff.1 hb
      exact h.unended i blk' hb'
    · exact h.unended i blk hb

theorem Blank.addBlock (h : Blank n b) : Blank (n + 1) (b.addBlock false) where
  wf := by
    have hf := h.wf.flags
    have hc := h.wf.current
    exact ⟨by simp [Builder.addBlock, hf], by simp [Builder.addBlock]; omega⟩
  size := by simp [Builder.addBlock, h.size]
  current := h.current
  isOpen i hi := by
    by_cases he : i = b.func.blocks.size
    · rw [he]; exact Builder.addBlock_open h.wf false
    · exact (Builder.addBlock_isOpen_of_ne false h.wf he).2 (h.isOpen i (by have := h.size; omega))
  unended i blk hb := by
    simp only [Builder.addBlock, Array.getElem?_push] at hb
    split at hb
    · cases hb
      rfl
    · exact h.unended i blk hb

theorem Blank.define {ty : Ty} {inst : Inst} {r : Reg} (h : Blank n b)
    (hd : Emit.define ty inst b = .ok (r, b')) :
    Blank n b' := by
  obtain ⟨b₁, h₁, -, rfl⟩ := Emit.define_ok hd
  obtain rfl := Emit.ensureOpen_of_open h₁ (h.isOpen _ (by rw [h.current]; exact Nat.zero_le n))
  exact (h.addReg ty).addInst _

theorem Blank.declareParams {g : Graph} {block : BlockId} {phis : List NodeId}
    {params params' : List (NodeId × Reg)} (h : Blank n b)
    (hd : (phis.foldlM (fun params phi => do
      return (phi, ← Emit.blockParam block (← g.node phi).result.machineType) :: params) params :
        Emit (List (NodeId × Reg))) b = .ok (params', b')) : Blank n b' := by
  induction phis generalizing params b with
  | nil =>
    obtain ⟨-, rfl⟩ := Emit.pure_ok hd
    exact h
  | cons phi phis ih =>
    rw [List.foldlM_cons] at hd
    obtain ⟨params₁, b₁, h₁, hd⟩ := Emit.bind_ok hd
    obtain ⟨node, -, h₁⟩ := Emit.lift_bind_ok h₁
    obtain ⟨r, b₂, h₂, h₁⟩ := Emit.bind_ok h₁
    obtain ⟨-, rfl⟩ := Emit.blockParam_ok h₂
    obtain ⟨-, rfl⟩ := Emit.pure_ok h₁
    exact ih ((h.addReg _).addParam block _) hd

theorem Blank.declareBlock {g : Graph} {params params' : List (NodeId × Reg)} {i : BlockIndex}
    (h : Blank n b) (hd : declareBlock g params i b = .ok (params', b')) : Blank (n + 1) b' := by
  obtain ⟨block, b₁, h₁, hd⟩ := Emit.bind_ok hd
  obtain ⟨-, rfl⟩ := Emit.createBlock_ok h₁
  obtain ⟨phis, -, hd⟩ := Emit.lift_bind_ok hd
  exact h.addBlock.declareParams hd

theorem Blank.declareBlocks {g : Graph} {l : List BlockIndex} {params params' : List (NodeId × Reg)}
    (h : Blank n b) (hd : l.foldlM (Lowering.declareBlock g) params b = .ok (params', b')) :
    Blank (n + l.length) b' := by
  induction l generalizing params b n with
  | nil =>
    obtain ⟨-, rfl⟩ := Emit.pure_ok hd
    exact h
  | cons i l ih =>
    rw [List.foldlM_cons] at hd
    obtain ⟨params₁, b₁, h₁, hd⟩ := Emit.bind_ok hd
    have := ih (h.declareBlock h₁) hd
    rwa [List.length_cons, Nat.add_comm l.length, ← Nat.add_assoc]

end Blank

theorem prologue_blank {g : Graph} {name : String} {p : Prologue} {b' : Builder}
    (h : prologue g (.start name) = .ok (p, b')) :
    ∃ b, Blank g.blocks.size b ∧
      ((g.blocks.isEmpty = true ∧ b' = b) ∨
        (g.blocks.isEmpty = false ∧ b' = b.close (.jump ⟨1⟩ []))) := by
  obtain ⟨context, b₁, h₁, h⟩ := Emit.bind_ok h
  have hb₁ := (Blank.start name).define h₁
  obtain ⟨frame, b₂, h₂, h⟩ := Emit.bind_ok h
  have hb₂ := hb₁.define h₂
  obtain ⟨params, b₃, h₃, h⟩ := Emit.bind_ok h
  have hb₃ := hb₂.declareBlocks h₃
  rw [Graph.blockIndices, List.length_map, List.length_range, Nat.zero_add] at hb₃
  refine ⟨b₃, hb₃, ?_⟩
  cases hempty : g.blocks.isEmpty with
  | true =>
    simp only [hempty, Bool.not_true, Bool.false_eq_true, if_false] at h
    cases h
    exact .inl ⟨rfl, rfl⟩
  | false =>
    simp only [hempty, Bool.not_false, if_true] at h
    obtain ⟨_, b₄, h₄, h⟩ := Emit.bind_ok h
    obtain ⟨b₅, h₅, rfl⟩ := Emit.terminate_ok h₄
    cases h
    obtain rfl :=
      Emit.ensureOpen_of_open h₅ (hb₃.isOpen _ (by rw [hb₃.current]; exact Nat.zero_le _))
    exact .inr ⟨rfl, rfl⟩

/-- Nothing has been lowered when a session starts. -/
structure Session.Fresh (session : Session) (g : Graph) : Prop where
  graph : session.env.graph = g
  dominators : session.env.dominators = Dominators.compute g
  heads : AvailabilityMap.blockHeads g = .ok session.env.availabilityHeads
  prologue : ∃ p, prologue g (.start g.name) = .ok (p, session.state.builder) ∧
    session.env.context = p.context ∧
    session.env.frame = p.frame ∧ session.env.phiParams = p.phiParams
  availability : session.state.availability = .empty g
  values : session.state.values = []
  upsilons : session.state.upsilons = []
  exits : session.state.exits = {}
  stats : session.state.stats = {}

theorem Session.start_fresh {g : Graph} {options : LoweringOptions} {layout : ObjectLayout}
    {session : Session} (h : Session.start g options layout = .ok session) : session.Fresh g := by
  unfold Session.start at h
  simp only [bind, Except.bind] at h
  split at h
  · cases h
  split at h
  · cases h
  rename_i heads hheads
  split at h
  · cases h
  rename_i v hp
  split at h
  · cases h
  cases h
  exact ⟨rfl, rfl, hheads, ⟨v.1, hp, rfl, rfl, rfl⟩, rfl, rfl, rfl, rfl, rfl⟩

theorem Session.start_ok {g : Graph} {options : LoweringOptions} {layout : ObjectLayout}
    {session : Session} (h : Session.start g options layout = .ok session) :
    session.env.graph = g ∧ ∃ p, prologue g (.start g.name) = .ok (p, session.state.builder) := by
  obtain ⟨p, hp, -⟩ := (Session.start_fresh h).prologue
  exact ⟨(Session.start_fresh h).graph, p, hp⟩

/-- Before the first block gets its code, only the entry has a terminator. -/
theorem Settled.start {g : Graph} {options : LoweringOptions} {layout : ObjectLayout}
    {session : Session} (h : Session.start g options layout = .ok session) :
    Settled session [] session.state := by
  obtain ⟨rfl, p, hp⟩ := Session.start_ok h
  obtain ⟨b, hblank, ⟨hempty, heq⟩ | ⟨hne, heq⟩⟩ := prologue_blank hp
  · rw [Array.isEmpty_iff_size_eq_zero] at hempty
    constructor <;> rw [heq]
    · exact hblank.wf
    · rw [hblank.size]; omega
    · intro i hi
      have hlt := hi.lt hblank.wf
      rw [hblank.size] at hlt
      exact .inr ⟨by omega, by simpa using hempty⟩
    · intro b' _ hlt
      omega
    · exact fun _ => hblank.isOpen 0 (Nat.zero_le _)
    · intro i hi
      exact ⟨_, Array.getElem?_eq_getElem (hi.lt hblank.wf),
        hblank.unended i _ (Array.getElem?_eq_getElem (hi.lt hblank.wf))⟩
    · intro i blk hc hb
      have hlt := (Array.getElem?_eq_some_iff.1 hb).1
      rw [hblank.size] at hlt
      exact absurd hc (hblank.isOpen i (by omega)).not_closed
  · have hcur : b.IsOpen b.current.index :=
      hblank.isOpen _ (by rw [hblank.current]; exact Nat.zero_le _)
    have e := Builder.close_emits hblank.wf hcur (t := .jump ⟨1⟩ []) (by simp)
    have hopen (i : Nat) (hi : (b.close (.jump ⟨1⟩ [])).IsOpen i) : i ≠ 0 ∧ b.IsOpen i := by
      have hlt := hi.lt e.after
      simp only [Builder.close, Array.size_modify] at hlt
      refine ⟨?_, e.toExtends.open_of_open hblank.wf hlt hi⟩
      rintro rfl
      have hc := Builder.close_isClosed hblank.wf (.jump ⟨1⟩ [])
      rw [hblank.current] at hc
      exact hi.not_closed hc
    constructor <;> rw [heq]
    · exact e.after
    · exact Nat.lt_of_lt_of_le (by rw [hblank.size]; omega) e.toExtends.size_le
    · intro i hi
      obtain ⟨hi0, ho⟩ := hopen i hi
      have hlt := ho.lt hblank.wf
      rw [hblank.size] at hlt
      exact .inl ⟨⟨i - 1⟩, by simp, by simp only []; omega, by simp only []; omega⟩
    · intro b' _ hlt
      exact (e.aside (b'.index + 1) (by rw [hblank.current]; simp) (hblank.isOpen _ hlt)).1
    · intro hempty
      rw [hempty] at hne
      cases hne
    · intro i hi
      obtain ⟨hi0, ho⟩ := hopen i hi
      have hlt := ho.lt hblank.wf
      rw [(e.aside i (by rw [hblank.current]; exact hi0) ho).2, Array.getElem?_eq_getElem hlt]
      exact ⟨_, rfl, hblank.unended i _ (Array.getElem?_eq_getElem hlt)⟩
    · intro i blk hc hb ht
      refine absurd ht (e.ended i blk hc (fun hcb => ?_) hb)
      have hlt := (Array.getElem?_eq_some_iff.1 hb).1
      simp only [Builder.close, Array.size_modify] at hlt
      rw [hblank.size] at hlt
      exact (hblank.isOpen i (by omega)).not_closed hcb

/-! ## The finished function -/

/-- A finished function comes from a session that went through all blocks. -/
theorem lower_finish {g : Graph} {options : LoweringOptions} {layout : ObjectLayout}
    {f : LoweredFunction} (h : g.lower options layout = .ok f) :
    ∃ session s, Session.start g options layout = .ok session ∧
      lowerAll session.env session.state = .ok ((), s) ∧
      f = Session.finish { session with state := s } := by
  unfold Graph.lower at h
  cases hstart : Session.start g options layout with
  | error e =>
    rw [hstart] at h
    cases h
  | ok session =>
    rw [hstart] at h
    change (session.step lowerAll >>= fun s => pure s.finish) = .ok f at h
    unfold Session.step at h
    cases hall : lowerAll session.env session.state with
    | error e =>
      rw [hall] at h
      cases h
    | ok p =>
      rw [hall] at h
      cases h
      exact ⟨session, p.2, rfl, hall, rfl⟩

theorem lower_ok {g : Graph} {options : LoweringOptions} {layout : ObjectLayout} {session : Session}
    {f : LoweredFunction} (hstart : Session.start g options layout = .ok session)
    (h : g.lower options layout = .ok f) :
    ∃ s, session.env.dominators.preOrder.forM lowerBlock session.env session.state = .ok ((), s) ∧
      f.lir = s.builder.func := by
  obtain ⟨session', s, hstart', hall, rfl⟩ := lower_finish h
  rw [hstart] at hstart'
  cases hstart'
  exact ⟨s, hall, rfl⟩

/-- From the turn of a block on, the lowering comes to its end. -/
theorem Session.Turn.finish {session : Session} {sF s₁ : State} {b : BlockIndex}
    (hg : session.env.graph.AlwaysPassable) (hstart : Settled session [] session.state)
    (hall : session.env.dominators.preOrder.forM lowerBlock session.env session.state = .ok ((),
      sF))
    (hturn : session.Turn b s₁) :
    ∃ s₂, s₁.builder.WellFormed ∧ session.env.graph.blocks.size < s₁.builder.func.blocks.size ∧
      BlockLowered session.env b s₁ s₂ ∧ s₂.builder.Extends sF.builder := by
  obtain ⟨done, rest, horder, hdone⟩ := hturn.comes
  rw [horder] at hall
  obtain ⟨s₁', h₁, hall⟩ := forM_append_ok hall
  obtain rfl : s₁ = s₁' := by rw [hdone] at h₁; cases h₁; rfl
  rw [forM_cons] at hall
  obtain ⟨_, s₂, h₂, hall⟩ := bind_ok hall
  obtain ⟨hs₁, -⟩ := hstart.run hg (b :: rest) (by simpa using horder) rfl hdone
  obtain ⟨hs₂, -⟩ := hs₁.step hg (by simpa using horder) hdone h₂
  have hdone₂ : (done ++ [b]).forM lowerBlock session.env session.state = .ok ((), s₂) := by
    rw [forM_append, bind_of_ok hdone, forM_cons, bind_of_ok h₂]
    rfl
  obtain ⟨-, e⟩ := hs₂.run hg [] (by simpa using horder) hdone₂ hall
  obtain ⟨-, ⟨hc, -⟩ | ⟨-, hlow⟩⟩ := lowerBlock_ok hg hs₁.wf hs₁.size h₂
  · exact absurd hc hturn.isOpen.not_closed
  · exact ⟨s₂, hs₁.wf, hs₁.size, hlow, e⟩

theorem close_terminator {b b' : Builder} {t : Terminator} (hw : b.WellFormed)
    (e : (b.close t).Extends b') :
    ∃ blk, b'.func.blocks[b.current.index]? = some blk ∧ blk.terminator = t := by
  rw [(e.closed _ (Builder.close_isClosed hw t)).2]
  simp only [Builder.close, Array.getElem?_modify, ↓reduceIte]
  rw [Array.getElem?_eq_getElem hw.current]
  exact ⟨_, rfl, rfl⟩

/-- A contradiction makes a dead end. -/
theorem Session.Contradicted.terminator {session : Session} {sF : State} {p : BlockId}
    (hg : session.env.graph.AlwaysPassable) (hstart : Settled session [] session.state)
    (hall : session.env.dominators.preOrder.forM lowerBlock session.env session.state = .ok ((),
      sF))
    (h : session.Contradicted p) :
    ∃ blk, sF.builder.func.blocks[p.index]? = some blk ∧ blk.terminator = .unreachable := by
  obtain ⟨id, s, s₁, node, facts,
    ⟨⟨b, s₀, facts₀, block, before, after, hturn, hvisited, hkept, hfacts, hblock,
    hsplit, hbefore⟩, hvalid⟩, hnode, hop, rfl, hopen, hexec, hdead⟩ := h
  obtain ⟨s₂, hw, hsize, hlow, e⟩ := hturn.finish hg hstart hall
  cases hlow with
  | skipped hwhy _ =>
    rcases hwhy with hwhy | hwhy
    · rw [hvisited] at hwhy; cases hwhy
    · rw [hkept] at hwhy; cases hwhy
  | @coded facts₁ block₁ s₃ _ _ hfacts₁ hblock₁ hvalid₁ hnodes heq _ =>
    obtain rfl : facts₀ = facts₁ := by rw [hfacts] at hfacts₁; cases hfacts₁; rfl
    obtain rfl : block = block₁ := by rw [hblock] at hblock₁; cases hblock₁; rfl
    rw [hsplit] at hnodes
    obtain ⟨s', hbefore', hnodes⟩ := lowerNodes_append hnodes
    obtain rfl : s = s' := by rw [hbefore] at hbefore'; cases hbefore'; rfl
    rw [lowerNodes_cons hvalid] at hnodes
    obtain ⟨_, s₄, h₄, hnodes⟩ := bind_ok hnodes
    have hw₀ : (Session.headState session.env s₀ b facts₀).builder.WellFormed :=
      ⟨hw.flags, Nat.lt_of_le_of_lt hturn.inRange hsize⟩
    obtain ⟨e₁, hv₁⟩ := lowerNodes_coded hg hw₀ (fun _ => hvalid₁) hbefore
    obtain ⟨e₂, hv₂⟩ := lowerNode_coded hg e₁.after h₄
    obtain ⟨e₃, -⟩ := lowerNodes_coded hg e₂.after hv₂ hnodes
    obtain ⟨node', s₁', hnode', hop', hafter⟩ := lowerNode_ok h₄
    obtain rfl : node = node' := by rw [hnode] at hnode'; cases hnode'; rfl
    obtain rfl : s₁ = s₁' := by rw [hop] at hop'; cases hop'; rfl
    rw [heq] at e
    have e₄ := e₃.toExtends.trans e
    cases hafter with
    | ended hc _ => exact absurd hc hopen.not_closed
    | goesOn _ hexec' hvalid' _ _ =>
      rw [hexec] at hexec'
      cases hexec'
      rw [hdead] at hvalid'
      cases hvalid'
    | deadEnd _ _ _ hclose =>
      have hw₁ := e₂.after
      rw [hclose] at e₄ hw₁
      refine close_terminator ⟨?_, ?_⟩ e₄
      · simpa [Builder.close] using hw₁.flags
      · simpa [Builder.close] using hw₁.current

/-- Blocks without code are dead ends. -/
theorem Session.Uncoded.terminator {session : Session} {sF : State} {p : BlockId}
    (hg : session.env.graph.AlwaysPassable) (hstart : Settled session [] session.state)
    (hall : session.env.dominators.preOrder.forM lowerBlock session.env session.state = .ok ((),
      sF))
    (h : session.Uncoded p) :
    ∃ blk, sF.builder.func.blocks[p.index]? = some blk ∧ blk.terminator = .unreachable := by
  obtain ⟨hsF, -⟩ := hstart.run hg [] (by simp) rfl hall
  rcases h with ⟨b, s, rfl, hturn, hwhy⟩ | ⟨b, rfl, hlt, hnot⟩ | ⟨rfl, hempty⟩
  · obtain ⟨s₂, hw, hsize, hlow, e⟩ := hturn.finish hg hstart hall
    cases hlow with
    | skipped _ heq =>
      rw [heq] at e
      exact close_terminator (b := s.builder.goTo ⟨b.index + 1⟩)
        ⟨hw.flags, Nat.lt_of_le_of_lt hturn.inRange hsize⟩ e
    | coded hvisited hkept _ _ _ _ _ _ =>
      rcases hwhy with hwhy | hwhy
      · rw [hvisited] at hwhy; cases hwhy
      · rw [hkept] at hwhy; cases hwhy
  · exact hsF.waiting _ (hsF.later b (by simpa using hnot) hlt)
  · exact hsF.waiting _ (hsF.entry hempty)

/-- The dead ends of the finished function. -/
theorem terminator_unreachable_iff {g : Graph} {options : LoweringOptions} {layout : ObjectLayout}
    {session : Session} {f : LoweredFunction} {p : BlockId} (hg : g.AlwaysPassable)
    (hstart : Session.start g options layout = .ok session) (hf : g.lower options layout = .ok f) :
    (∃ blk, f.lir.blocks[p.index]? = some blk ∧ blk.terminator = .unreachable) ↔
      session.Contradicted p ∨ session.Uncoded p := by
  obtain ⟨rfl, -⟩ := Session.start_ok hstart
  have hs := Settled.start hstart
  obtain ⟨sF, hall, hlir⟩ := lower_ok hstart hf
  rw [hlir]
  constructor
  · rintro ⟨blk, hb, ht⟩
    obtain ⟨hsF, -⟩ := hs.run hg [] (by simp) rfl hall
    rcases hsF.wf.open_or_closed (Array.getElem?_eq_some_iff.1 hb).1 with ho | hc
    · rcases hsF.opened p.index ho with ⟨b, hb, hp, hlt⟩ | ⟨hp, hempty⟩
      · exact .inr (.inr (.inl ⟨b, by cases p; simp_all, hlt, by simpa using hb⟩))
      · exact .inr (.inr (.inr ⟨by cases p; simp_all, hempty⟩))
    · exact hsF.dead p.index blk hc hb ht
  · rintro (h | h)
    · exact h.terminator hg hs hall
    · exact h.terminator hg hs hall

/-- A run ends as unreachable exactly if it comes to the end of a block where the facts after a node
are contradictory, or of a block without code. -/
theorem run_ends_unreachable_iff {σ : Type} {g : Graph} {options : LoweringOptions}
    {layout : ObjectLayout} {session : Session} {f : LoweredFunction} (hg : g.AlwaysPassable)
    (hstart : Session.start g options layout = .ok session) (hf : g.lower options layout = .ok f)
    (m : Machine σ) (hm : m.func = f.lir) (limit : Nat) (memory : Memory) (runtimeState : σ)
    (p : BlockId) :
    (m.run limit memory runtimeState).result = .ok (.unreachable p) ↔
      m.ComesToEnd limit memory runtimeState p ∧ (session.Contradicted p ∨ session.Uncoded p) := by
  obtain ⟨sF, hall, hlir⟩ := lower_ok hstart hf
  have hentry : 0 < m.func.blocks.size := by
    obtain ⟨rfl, -⟩ := Session.start_ok hstart
    obtain ⟨hsF, -⟩ := (Settled.start hstart).run hg [] (by simp) rfl hall
    rw [hm, hlir]
    exact Nat.lt_of_le_of_lt (Nat.zero_le _) hsF.size
  rw [Machine.run_unreachable_iff hentry, hm, terminator_unreachable_iff hg hstart hf]

theorem start_of_lower {g : Graph} {options : LoweringOptions} {layout : ObjectLayout}
    {f : LoweredFunction} (h : g.lower options layout = .ok f) :
    ∃ session, Session.start g options layout = .ok session := by
  obtain ⟨session, -, hstart, -⟩ := lower_finish h
  exact ⟨session, hstart⟩

/-! ## A contradiction that is none

The constant 2^40 is an integer of 52 bits, and so it is held as one. Its fact keeps it as a double,
however, which is not of the kinds that a use as an integer of 52 bits allows: narrowing the fact
gives a contradiction, and the addition of the constant to itself ends in a dead end. -/

/-- Returns 2^40 + 2^40, computed on integers of 52 bits. -/
def doubledConstant : Graph where
  name := "doubledConstant"
  nodes := #[
    { op := .int52Constant 0x10000000000, result := .int52 },
    { op := .arith .add .unchecked, result := .int52
      children := [{ node := ⟨0⟩, useKind := .int52Rep }, { node := ⟨0⟩, useKind := .int52Rep }] },
    { op := .ret, children := [{ node := ⟨1⟩ }] }]
  blocks := #[{ index := ⟨0⟩, nodes := #[⟨0⟩, ⟨1⟩, ⟨2⟩] }]
  numArguments := 1
  numLocals := 0

/-- The machine of simulated runs. -/
def simulator (f : Function) : Machine Simulation.RuntimeState := ⟨f, 0, 0, Simulation.runtime⟩

/-- The outcome of a simulated run of a graph. -/
def simulated (g : Graph) (memory : Memory) : Option Outcome :=
  match g.lower {} {} with
  | .ok f => (Simulation.run f.lir {} 1000 memory).result.toOption
  | .error _ => none

/-- A simulated run is a run of a machine. -/
theorem simulated_ok {g : Graph} {memory : Memory} {o : Outcome} (h : simulated g memory = some o) :
    ∃ f m, g.lower {} {} = .ok f ∧ m.func = f.lir ∧ m.runtime = Simulation.runtime ∧
      (Machine.run m 1000 memory {}).result = .ok o := by
  unfold simulated at h
  cases hf : g.lower {} {} with
  | error e => rw [hf] at h; cases h
  | ok f =>
    rw [hf] at h
    let m : Machine Simulation.RuntimeState :=
      ⟨f.lir, Simulation.contextAddress, Simulation.frameAddress, Simulation.runtime⟩
    refine ⟨f, m, rfl, rfl, rfl, ?_⟩
    simp only [Simulation.run] at h
    split at h
    · cases h
    · change (m.run 1000 memory {}).result.toOption = some o at h
      cases hr : (m.run 1000 memory {}).result with
      | error e => rw [hr] at h; cases h
      | ok o' => rw [hr] at h; cases h; rfl

/-- The graph can be compiled, trusts no use and says nowhere that control does not go on, and still
its run ends as unreachable. -/
theorem doubledConstant_unreachable :
    doubledConstant.canCompile.isOk = true ∧ doubledConstant.AlwaysPassable ∧
      (∀ node ∈ doubledConstant.nodes, ∀ e ∈ node.children,
        e.useKind ∉ [.knownInt32, .knownBoolean, .knownCell, .knownString]) ∧
      simulated doubledConstant {} = some (.unreachable ⟨1⟩) := by
  refine ⟨by decide +kernel, by decide +kernel, by decide +kernel, by decide +kernel⟩

theorem run_ends_unreachable_doubledConstant :
    ∃ session, Session.start doubledConstant {} {} = .ok session ∧
      (session.Contradicted ⟨1⟩ ∨ session.Uncoded ⟨1⟩) := by
  have hpass : doubledConstant.AlwaysPassable := by decide +kernel
  have hrun : simulated doubledConstant {} = some (.unreachable ⟨1⟩) := by decide +kernel
  obtain ⟨f, m, hf, hm, -, hresult⟩ := simulated_ok hrun
  obtain ⟨session, hstart⟩ := start_of_lower hf
  exact ⟨session, hstart, ((run_ends_unreachable_iff hpass hstart hf m hm 1000 {} {} ⟨1⟩).1
    hresult).2⟩

end Lowering

end SpecJit
