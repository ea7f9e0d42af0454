import SpecJit.Proofs.Graph.Valid
import SpecJit.Proofs.Lowering.Scoped.Prologue

/-!
# Blocks keep to the scoping

Between two blocks of the graph the code is sound for a scoping that gives the entry and the blocks
of the graph fixed scopes `V` (`Between`). A block is lowered from its head on, where the scope must
bring what the lowering remembers (`Between.lowerBlock`); and it may be left once all is defined
that the blocks behind it rely on.
-/

namespace SpecJit

open Lir

theorem Op.successors_of_not_isTerminal {op : Op} (h : op.isTerminal = false) :
    op.successors = [] := by
  cases op <;> first | rfl | cases h

namespace Lowering

variable {α β : Type} {strict : Bool} {env : Env} {Γ : List Fact} {V S S' : Scoping} {s s' : State}
  {u : Unit} {b : BlockIndex} {ts : List BlockIndex}

/-! ## The nodes of a block -/

namespace Leaves

variable {x : Lower α} {f : α → Lower β} {P : α → List Fact} {Q : β → List Fact}

/-- A step that does not leave, and what follows. -/
theorem bind (hx : Leaves strict env b Γ [] x P) (hf : ∀ a, Leaves strict env b (P a) ts (f a) Q) :
    Leaves strict env b Γ ts (x >>= f) Q where
  splits S s c s' hb hs hΓ h := by
    obtain ⟨a, s₂, h₁, h₂⟩ := bind_ok h
    obtain ⟨S₁, s₁, hA, hC, -, -, hleave⟩ := hx.splits S s a s₂ hb hs hΓ h₁
    obtain ⟨S₂, hA₂, hC₂, hP⟩ := hleave .nil
    obtain ⟨S₃, s₃, hA₃, hrest⟩ := (hf a).splits S₂ s₂ c s' (hA₂.block.trans (hA.block.trans hb))
      hC₂ hP h₂
    exact ⟨S₃, s₃, (hA.trans hA₂).trans hA₃, hrest⟩

theorem check {e : Except Fault α} {f : α → Lower β}
    (hf : ∀ a, e = .ok a → Leaves strict env b Γ ts (f a) Q) :
    Leaves strict env b Γ ts ((liftM e : Lower α) >>= f) Q where
  splits S s c s' hb hs hΓ h := by
    obtain ⟨a, ha, h⟩ := check_bind_ok h
    exact (hf a ha).splits S s c s' hb hs hΓ h

end Leaves

/-- A node that a block lists, with a result that fits if types count. -/
structure Sits (strict : Bool) (g : Graph) (b : BlockIndex) (id : NodeId) (node : Node) : Prop where
  found : g.node id = .ok node
  fits : strict = true → node.Fits
  lists : g.Lists b id

/-- Nodes in order: only the last one leaves. -/
theorem leaves_lowerNodes {front : List NodeId} {last : NodeId} {node : Node}
    (hfront : ∀ id ∈ front, ∃ n, Sits strict env.graph b id n ∧ n.op.successors = [])
    (hlast : Sits strict env.graph b last node) :
    Leaves strict env b Γ node.op.successors (lowerNodes (front ++ [last])) fun _ => [] := by
  induction front generalizing Γ with
  | nil =>
    refine .after (P := fun _ => []) inferInstance fun st => ?_
    split
    · exact .andThen (leaves_lowerNode hlast.found hlast.fits hlast.lists)
        (fun _ => inferInstanceAs (Scoped strict env [] (pure ()) _))
        fun _ => inferInstanceAs (RecordsNothing (pure ()))
    · exact .of_scoped inferInstance
  | cons id front ih =>
    obtain ⟨n, hn, hnone⟩ := hfront id (by simp)
    refine .after (P := fun _ => []) inferInstance fun st => ?_
    split
    · have hnode := leaves_lowerNode (Γ := [] ++ Γ) hn.found hn.fits hn.lists
      rw [hnone] at hnode
      exact .bind hnode fun _ => ih fun id' hid' => hfront id' (by simp [hid'])
    · exact .of_scoped inferInstance

/-- The nodes of a valid block. -/
theorem leaves_lowerReachedBlock {blk : BasicBlock} (hblk : env.graph.block? b = some blk)
    (hchecked : env.graph.Checked blk)
    (hfits : strict = true → ∀ id ∈ blk.nodes, ∀ node, env.graph.node id = .ok node → node.Fits) :
    Leaves strict env b Γ (env.graph.successors b) (lowerReachedBlock b) fun _ => [] := by
  obtain ⟨last, hback, hterm, hfront, -⟩ := hchecked.terminal
  have hsits (id : NodeId) (hid : id ∈ blk.nodes) : ∃ node, Sits strict env.graph b id node := by
    have hlisted := hchecked.listed id hid
    rw [Graph.checkListed] at hlisted
    cases hn : env.graph.node? id with
    | none => rw [hn] at hlisted; cases hlisted
    | some node =>
      have hnode := Graph.node_eq_ok.2 hn
      exact ⟨node, hnode, fun hst => hfits hst id hid node hnode, blk, hblk, hid⟩
  obtain ⟨front, hnodes⟩ := Array.back?_eq_some_iff.1 hback
  obtain ⟨node, hlast⟩ := hsits last (by simp [hnodes])
  have hnode := Graph.node_eq_ok.1 hlast.found
  have hop : node.op.isTerminal = true := by simpa [Graph.isTerminalNode, hnode] using hterm
  have hsucc : env.graph.successors b = node.op.successors := by
    simp [Graph.successors, Graph.terminal?, hblk, hback, hnode, hop]
  have hinner (id : NodeId) (hid : id ∈ front.toList) : ∃ n, Sits strict env.graph b id n ∧
    n.op.successors = [] := by
    have hmem : id ∈ front := Array.mem_toList_iff.1 hid
    obtain ⟨n, hn⟩ := hsits id (by simp [hnodes, hmem])
    have hplain := hfront id (by simpa [hnodes] using hmem)
    exact ⟨n, hn, Op.successors_of_not_isTerminal
      (by simpa [Graph.isTerminalNode, Graph.node_eq_ok.1 hn.found] using hplain)⟩
  rw [hsucc]
  refine .read (.after (P := fun _ => []) inferInstance fun st => .check fun facts _ => ?_)
  refine .after (P := fun _ => []) (scoped_modify fun _ => ⟨rfl, rfl, rfl, rfl, rfl⟩) fun _ =>
    .check fun blk' hblk' => ?_
  obtain rfl : blk' = blk := by
    rw [Graph.block, hblk] at hblk'
    cases hblk'
    rfl
  rw [hnodes, Array.toList_push]
  exact .andThen (leaves_lowerNodes hinner hlast) (fun _ => inferInstance) fun _ => inferInstance

/-! ## Edges -/

/-- Control may go on to the blocks that follow, if all that they rely on is defined. -/
theorem Bodies.entries {bd : Builder} (h : Bodies env V S bd) (hexist : env.graph.SuccessorsExist)
    (hV : ∀ t ∈ env.graph.successors b, ∀ r, V (t.index + 1) r → bd.Here S r) :
    Hold strict S bd (bd.Here S) (entries env.graph (env.graph.successors b)) := by
  intro F hF
  obtain ⟨t, ht, rfl⟩ := List.mem_map.1 hF
  intro p hp
  cases List.mem_singleton.1 hp
  have hlt := hexist b t ht
  obtain ⟨blk, hblk, hlen, htyped⟩ := h.block t hlt
  refine ⟨⟨blk, hblk, hlen, fun _ => htyped⟩, fun r hr => hV t ht r ?_⟩
  rw [← h.scope (t.index + 1) (by omega)]
  exact hr

/-! ## A block -/

/-- Between two blocks: the code so far is sound, with the scopes `V` (module doc). -/
structure Between (strict : Bool) (env : Env) (V S : Scoping) (s : State) : Prop where
  sound : s.builder.Sound strict S
  bodies : Bodies env V S s.builder
  typed : strict = true → ∀ v ∈ s.values, s.builder.func.HasType v.2.1 v.1.2.ty

/-- The state at the head of a block. -/
def State.atHead (s : State) (b : BlockIndex) : State :=
  { s with builder := s.builder.goTo ⟨b.index + 1⟩, block := b, node := none, upsilons := [] }

/-- What the scope of a block brings is all that the lowering remembers there. -/
structure Brings (env : Env) (V : Scoping) (s : State) (b : BlockIndex) : Prop where
  context : V (b.index + 1) env.context
  frame : V (b.index + 1) env.frame
  held : ∀ v ∈ s.values, env.dominators.dominates v.2.2 b = true → V (b.index + 1) v.2.1
  phis : ∀ id r t, env.phiParams.lookup id = some r → env.graph.Lists t id → env.graph.Lists b id →
    t = b ∨ V (b.index + 1) r

theorem Between.atHead (h : Between strict env V S s) (hb : b.index < env.graph.blocks.size)
    (hV : Brings env V s b) :
    Consistent strict env S (s.atHead b) := by
  obtain ⟨blk, hblk, -⟩ := h.bodies.block b hb
  have hlt := (Array.getElem?_eq_some_iff.1 hblk).1
  have hscope (r : Reg) (hr : V (b.index + 1) r) : (s.atHead b).builder.Here S r :=
    Builder.here_goTo hlt (by rw [h.bodies.scope _ (by simp only []; omega)]; exact hr)
  refine ⟨(Builder.goTo_grown (p := ⟨b.index + 1⟩) h.sound hlt).after, ?_, h.typed,
    fun v hv hd => hscope _ (hV.held v hv hd), nofun,
    fun id r hr hlists => ?_⟩
  · exact .cons ⟨hscope _ hV.context, fun _ => h.bodies.fixed.1⟩
      (.cons ⟨hscope _ hV.frame, fun _ => h.bodies.fixed.2⟩ .nil)
  · obtain ⟨t, blk', hlists', hblk', hmem, hty⟩ := h.bodies.phi id r hr
    refine ⟨?_, fun _ => hty⟩
    rcases hV.phis id r t hr hlists' hlists with rfl | hr
    · exact Builder.here_param hblk' hmem
    · exact hscope r hr

/-- A block records in its own name. It is sound if what the blocks behind it rely on is defined
when it is left. -/
theorem Between.lowerBlock (hchecked : ∀ blk ∈ env.graph.blocks, env.graph.Checked blk)
    (hexist : env.graph.SuccessorsExist)
    (h : Between strict env V S s) (hV : Brings env V s b)
    (hfits : strict = true → ∀ id node, env.graph.Lists b id → env.graph.node id = .ok node →
      node.Fits)
    (hrun : Lowering.lowerBlock b env s = .ok (u, s')) :
    (∃ new, s'.values = new ++ s.values ∧ ∀ v ∈ new, v.2.2 = b) ∧
      ((∀ S₁ s₁, Advances strict S (s.atHead b) S₁ s₁ → Consistent strict env S₁ s₁ →
        s₁.values = s'.values →
        ∀ t ∈ env.graph.successors b, ∀ r, V (t.index + 1) r → s₁.builder.Here S₁ r) → ∃ S',
          Between strict env V S' s') := by
  rw [Lowering.lowerBlock, read_bind] at hrun
  unfold Env.bodyBlock at hrun
  by_cases hb : b.index < env.graph.blocks.size
  · simp only [hb, if_true] at hrun
    obtain ⟨_, b₁, h₁, hrun⟩ := emit_bind_ok hrun
    obtain rfl := Emit.switchTo_ok h₁
    obtain ⟨t, b₂, h₂, hrun⟩ := emit_bind_ok hrun
    obtain ⟨rfl, -⟩ := Emit.isTerminated_ok h₂
    have hs := h.atHead hb hV
    have hbodies : Bodies env V S (s.atHead b).builder := by
      obtain ⟨blk, hblk, -⟩ := h.bodies.block b hb
      exact h.bodies.grow (Builder.goTo_grown (p := ⟨b.index + 1⟩) h.sound
        (Array.getElem?_eq_some_iff.1 hblk).1)
    cases t with
    | true =>
      cases hrun
      exact ⟨⟨[], rfl, by simp⟩, fun _ => ⟨S, hs.sound, hbodies, h.typed⟩⟩
    | false =>
      simp only [Bool.false_eq_true, if_false] at hrun
      obtain ⟨_, s₃, h₃, hrun⟩ := bind_ok hrun
      cases h₃
      have hleaves : Leaves strict env b [] (env.graph.successors b) (do
          let facts := (← get).facts
          if !(← facts.isVisited b) || (← facts.needsReverification b) then
            countStats fun st => { st with unreachableBlocks := st.unreachableBlocks + 1 }
            Emit.unreachable
          else lowerReachedBlock b : Lower Unit) fun _ => [] := by
        obtain ⟨blk, hblk⟩ : ∃ blk, env.graph.block? b = some blk :=
          ⟨_, Array.getElem?_eq_getElem hb⟩
        refine .after (P := fun _ => []) inferInstance fun st => .after inferInstance fun visited =>
          .after inferInstance fun reverify => ?_
        split
        · exact .of_scoped inferInstance
        · exact leaves_lowerReachedBlock hblk (hchecked blk (Array.mem_of_getElem? hblk))
            fun hst id hid node hnode => hfits hst id node ⟨blk, hblk, hid⟩ hnode
      obtain ⟨S₁, s₁, hA, hC, hvalues, hblock, hleave⟩ :=
        hleaves.splits S (s.atHead b) u s' rfl hs .nil hrun
      obtain ⟨new, hnew₁, hnewb⟩ := hA.values
      refine ⟨⟨new, hvalues.trans hnew₁, hnewb⟩, fun hdefined => ?_⟩
      have hbodies₁ := hbodies.grow hA.grown
      obtain ⟨S', hA', hC', -⟩ :=
        hleave (hbodies₁.entries hexist (hdefined S₁ s₁ hA hC hvalues.symm))
      exact ⟨S', hC'.sound, hbodies₁.grow hA'.grown, hC'.typed⟩
  · simp only [hb, if_false] at hrun
    cases hrun

end Lowering

end SpecJit
