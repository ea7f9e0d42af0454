import SpecJit.Proofs.Lowering.Scoped.Elements

/-!
# Control keeps to the scoping

An edge to a block of the graph hands over the values of its phis. It may be taken where every
register is defined that the block relies on, besides its parameters. The lowering does not know
this of itself: it depends on what is recorded until the block is left. So the operations that end a
block are split (`Leaves`): first what they use is computed and recorded, and behind that nothing is
recorded any more; from there the edges are fit to be taken if the blocks may be entered.
-/

namespace SpecJit

open Lir

/-! ## Phis -/

theorem filterAuxM_ok {α : Type} {f : α → Except Fault Bool} {l acc l' : List α}
    (h : l.filterAuxM f acc = .ok l') :
    ∀ a ∈ l', a ∈ acc ∨ a ∈ l ∧ f a = .ok true := by
  induction l generalizing acc with
  | nil =>
    cases h
    exact fun a ha => .inl ha
  | cons x l ih =>
    rw [List.filterAuxM] at h
    cases hf : f x with
    | error e => rw [hf] at h; cases h
    | ok t =>
      rw [hf] at h
      intro a ha
      rcases ih h a ha with hacc | ⟨hl, ht⟩
      · cases t with
        | false => exact .inl hacc
        | true =>
          rcases List.mem_cons.1 hacc with rfl | hacc
          · exact .inr ⟨by simp, hf⟩
          · exact .inl hacc
      · exact .inr ⟨by simp [hl], ht⟩

theorem filterM_ok {α : Type} {f : α → Except Fault Bool} {l l' : List α} (h : l.filterM f = .ok l')
    :
    ∀ a ∈ l', a ∈ l ∧ f a = .ok true := by
  rw [List.filterM] at h
  cases haux : l.filterAuxM f [] with
  | error e => rw [haux] at h; cases h
  | ok m =>
    rw [haux] at h
    cases h
    intro a ha
    rcases filterAuxM_ok haux a (List.mem_reverse.1 ha) with hnil | hl
    · cases hnil
    · exact hl

namespace Graph

variable {g : Graph} {t : BlockIndex} {phis : List NodeId}

/-- The phis of a block are nodes that it lists. -/
theorem phis_ok (h : g.phis t = .ok phis) : ∃ blk, g.block? t = some blk ∧
    ∀ phi ∈ phis, phi ∈ blk.nodes ∧ ∃ node, g.node? phi = some node ∧ node.op = .phi := by
  rw [Graph.phis, Graph.block] at h
  cases hb : g.block? t with
  | none => rw [hb] at h; cases h
  | some blk =>
    rw [hb] at h
    refine ⟨blk, rfl, fun phi hphi => ?_⟩
    obtain ⟨hmem, hop⟩ := filterM_ok h phi hphi
    refine ⟨Array.mem_toList_iff.1 hmem, ?_⟩
    rw [Graph.node] at hop
    cases hn : g.node? phi with
    | none => rw [hn] at hop; cases hop
    | some node =>
      refine ⟨node, rfl, ?_⟩
      rw [hn] at hop
      dsimp only [Fault.ofOption, bind, Except.bind] at hop
      split at hop
      · assumption
      · cases hop

/-- The types of the phis of a block. -/
def phiTypes (g : Graph) (t : BlockIndex) : List Ty :=
  match g.phis t with
  | .ok phis => phis.map g.typeOfResult
  | .error _ => []

theorem phiTypes_ok (h : g.phis t = .ok phis) : g.phiTypes t = phis.map g.typeOfResult := by
  rw [phiTypes, h]

end Graph

namespace Lowering

variable {α β : Type} {strict : Bool} {env : Env} {Γ Δ : List Fact} {S S' S'' : Scoping}
  {s s' s'' : State} {u : Unit}

/-! ## Edges to blocks of the graph -/

/-- Every phi gets the register that was kept for it. -/
theorem lookupAll_ok {upsilons : List (NodeId × Reg)} {target : BlockIndex} {phis : List NodeId}
    {rs : List Reg}
    (h : (phis.mapM fun phi => match upsilons.lookup phi with
      | some r => pure r
      | none => crash (.noUpsilon phi target) : Lower (List Reg)) env s = .ok (rs, s')) :
    s' = s ∧ rs.length = phis.length ∧ ∀ p ∈ phis.zip rs, p ∈ upsilons := by
  induction phis generalizing s s' rs with
  | nil =>
    cases h
    exact ⟨rfl, rfl, nofun⟩
  | cons phi phis ih =>
    rw [List.mapM_cons] at h
    obtain ⟨r, s₁, h₁, h⟩ := bind_ok h
    obtain ⟨rest, s₂, h₂, h₃⟩ := bind_ok h
    cases hl : upsilons.lookup phi with
    | none => rw [hl] at h₁; cases h₁
    | some r' =>
      rw [hl] at h₁
      cases h₁
      obtain ⟨rfl, hlen, hrest⟩ := ih h₂
      cases h₃
      refine ⟨rfl, by simp [hlen], fun p hp => ?_⟩
      rcases List.mem_cons.1 hp with rfl | hp
      · obtain ⟨l₁, l₂, hsplit, -⟩ := List.lookup_eq_some_iff.1 hl
        simp [hsplit]
      · exact hrest p hp

theorem phiArguments_ok {target : BlockIndex} {rs : List Reg}
    (h : phiArguments target env s = .ok (rs, s')) :
    s' = s ∧ ∃ phis, env.graph.phis target = .ok phis ∧ rs.length = phis.length ∧ ∀ p ∈ phis.zip rs,
      p ∈ s.upsilons := by
  rw [phiArguments, get_bind, read_bind] at h
  obtain ⟨phis, hphis, h⟩ := check_bind_ok h
  obtain ⟨rfl, hall⟩ := lookupAll_ok h
  exact ⟨rfl, phis, hphis, hall⟩

/-- The values for the phis of a block have the types of its parameters. -/
instance (target : BlockIndex) :
    Scoped strict env Γ (phiArguments target) fun rs => [.list rs (env.graph.phiTypes target)] :=
  scoped_of_still
    (fun _ _ _ h => by obtain ⟨rfl, -⟩ := phiArguments_ok h; exact ⟨rfl, rfl, rfl, rfl, rfl⟩)
    fun S s rs s' hs _ h => by
      obtain ⟨rfl, phis, hphis, hlen, hall⟩ := phiArguments_ok h
      obtain ⟨_, -, hnodes⟩ := Graph.phis_ok hphis
      rw [Graph.phiTypes_ok hphis]
      refine .cons ⟨by simp [hlen], fun p hp => ?_⟩ .nil
      -- the place of the value gives its phi
      obtain ⟨i, hi, rfl⟩ := List.mem_iff_getElem.1 hp
      simp only [List.length_zip, List.length_map, Nat.lt_min] at hi
      simp only [List.getElem_zip, List.getElem_map]
      obtain ⟨hhere, htyped⟩ := hs.upsilons _ (hall _ (getElem_mem_zip hi.2 hi.1))
      refine ⟨hhere, fun hst => ?_⟩
      obtain ⟨-, node, hnode, -⟩ := hnodes phis[i] (List.getElem_mem _)
      rw [Graph.typeOfResult_of_node (Graph.node_eq_ok.2 hnode)]
      exact htyped hst node (Graph.node_eq_ok.2 hnode)

theorem bodyBlock_ok {target : BlockIndex} {p : BlockId} (h : env.bodyBlock target = .ok p) :
    p = ⟨target.index + 1⟩ := by
  rw [Env.bodyBlock] at h
  split at h
  · cases h
    rfl
  · cases h

/-- The low-level block of a block of the graph. -/
instance (priority := high) {P : α → List Fact} (target : BlockIndex) (f : BlockId → Lower α)
    [hf : Scoped strict env Γ (f ⟨target.index + 1⟩) P] :
    Scoped strict env Γ ((liftM (env.bodyBlock target) : Lower BlockId) >>= f) P where
  follows S s a s' hs hΓ h := by
    obtain ⟨p, hp, h⟩ := check_bind_ok h
    rw [bodyBlock_ok hp] at h
    exact hf.follows S s a s' hs hΓ h

section Edges

variable (target : BlockIndex) [Leads Γ [⟨target.index + 1⟩] (env.graph.phiTypes target)]

instance : Scoped strict env Γ (jumpTo target) fun _ => [] := by unfold jumpTo; infer_instance

/-- An edge block is made on the side, with the scope of the place where it is made. -/
instance : Scoped strict env Γ (successorBlock target) fun p => [.leads [p] []] := by
  refine .bind inferInstance fun args => ⟨fun S s a s' hs hΓ h => ?_⟩
  have hlist := hΓ (.list args (env.graph.phiTypes target)) (by simp)
  have henters := (inferInstance : Leads Γ [⟨target.index + 1⟩] (env.graph.phiTypes target)).holds
    hΓ.right ⟨target.index + 1⟩ (by simp)
  rw [read_bind] at h
  obtain ⟨block, hblock, h⟩ := check_bind_ok h
  obtain rfl := bodyBlock_ok hblock
  by_cases hargs : args.isEmpty = true
  · rw [if_pos hargs] at h
    cases h
    have hnil : env.graph.phiTypes target = [] := by
      simpa [List.isEmpty_iff.1 hargs] using hlist.1.symm
    rw [hnil] at henters
    exact ⟨S, .refl hs.sound, hs,
      .cons (fun p hp => by cases List.mem_singleton.1 hp; exact henters) .nil⟩
  · rw [if_neg hargs] at h
    obtain ⟨here, b₂, h₂, h⟩ := emit_bind_ok h
    cases h₂
    obtain ⟨edge, b₃, h₃, h⟩ := emit_bind_ok h
    obtain ⟨rfl, rfl⟩ := Emit.createBlock_ok h₃
    obtain ⟨_, b₄, h₄, h⟩ := emit_bind_ok h
    obtain rfl := Emit.switchTo_ok h₄
    obtain ⟨_, b₅, h₅, h⟩ := emit_bind_ok h
    obtain ⟨_, b₆, h₆, h⟩ := emit_bind_ok h
    obtain rfl := Emit.switchTo_ok h₆
    cases h
    rw [Emit.terminate_addBlock hs.sound.wf h₅]
    have hedge := henters.edge hlist
    have e := Builder.addClosed_grown (t := .jump ⟨target.index + 1⟩ args) hs.sound
      ⟨hlist.here, by simpa [Terminator.edges] using hedge.1⟩
      fun hst => ⟨trivial, by simpa [Terminator.edges] using hedge.2 hst⟩
    have here (r : Reg) (hr : s.builder.Here S r) :=
      hr.addClosed hs.sound.wf (.jump ⟨target.index + 1⟩ args) (s.builder.Here S)
    refine ⟨_, ⟨e, here, rfl, rfl, rfl, [], rfl, nofun, fun _ => rfl⟩, hs.grow e here rfl rfl rfl,
      .cons (fun p hp => ?_) .nil⟩
    cases List.mem_singleton.1 hp
    refine ⟨⟨_, Builder.addClosed_last s.builder _, rfl, nofun⟩, fun r hr => ?_⟩
    rw [Scoping.add_self] at hr
    exact here r hr

end Edges

end Lowering

end SpecJit
