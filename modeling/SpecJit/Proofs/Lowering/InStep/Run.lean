import SpecJit.Lowering
import SpecJit.Proofs.Lowering.InStep.Switch
import SpecJit.Proofs.Lowering.Scoped.Prologue

/-!
# Two lowerings of one graph

With the frame, the phis and the ends of blocks all operations are in step. After a node the facts
and the places of variables are the same on both sides, and there is still a place for every
variable of the frame.

Both lowerings start with the same blocks (`Session.start_twin`) and go through the graph in step
(`lower_twin`).
-/

namespace SpecJit.Lowering

open Lir

variable {E : Setting} {Γ : List Link}

section Operations

variable (id : NodeId) (node : Node)

/-! ## The frame -/

instance (access : StackAccess) :
    Alike E Γ (lowerGetStack id access) (lowerGetStack id access) := by
  refine .bind inferInstance fun offset => inStep_read ?_
  dsimp only
  split <;> infer_instance

instance (access : StackAccess) :
    Alike E Γ (lowerPutStack node access) (lowerPutStack node access) := by
  refine .bind inferInstance fun offset => .bind inferInstance fun e => inStep_read ?_
  dsimp only
  split <;> infer_instance

instance : Alike E Γ lowerInvalidationPoint lowerInvalidationPoint := by
  unfold lowerInvalidationPoint
  infer_instance

instance (address : Word) :
    Alike E Γ (lowerCountExecution address) (lowerCountExecution address) := by
  unfold lowerCountExecution
  infer_instance

/-! ## Phis and control -/

instance : Alike E Γ (lowerPhi id) (lowerPhi id) where
  steps π s s' u u' s₁ s₁' hs hΓ hx hy := by
    rw [lowerPhi, read_bind] at hx hy
    cases hl : E.env.phiParams.lookup id with
    | none =>
      have hleft : E.leftEnv.phiParams.lookup id = none := hl
      rw [hleft] at hx
      cases hx
    | some r =>
      have hleft : E.leftEnv.phiParams.lookup id = some r := hl
      have hright : E.rightEnv.phiParams.lookup id = some r := hl
      rw [hleft] at hx
      rw [hright] at hy
      exact (inferInstance : Alike E [.reg r r] (setResult id r) (setResult id r)).steps π s s' u u'
        s₁ s₁' hs
        (.one (hs.phis hl)) hx hy

/-- A value is kept for a phi. -/
instance (phi : NodeId) (r r' : Reg) [hr : Gives Γ (.reg r r')] :
    Alike E Γ (modify fun s => { s with upsilons := (phi, r) :: s.upsilons } : Lower Unit)
      (modify fun s => { s with upsilons := (phi, r') :: s.upsilons }) :=
  inStep_modify fun h hΓ => { h with
    data := { h.data with }
    upsilons := .cons ⟨rfl, hr.holds hΓ⟩ h.upsilons }

instance (phi : NodeId) : Alike E Γ (lowerUpsilon node phi) (lowerUpsilon node phi) := by
  refine .bind inferInstance fun e => .bind inferInstance fun target => ?_
  have hcrash (cause : CrashCause) : Twins E ([] ++ Γ) (crash cause) (crash cause) := inStep_crash
  dsimp only
  split
  all_goals first | infer_instance | exact .bind (hcrash _) fun _ => inferInstance

set_option synthInstance.maxSize 50000 in
instance (data : BranchData) : Alike E Γ (lowerBranch node data) (lowerBranch node data) := by
  refine inStep_read (inStep_get fun s s' hs => ?_)
  rw [hs.facts]
  refine .bind inferInstance fun direction => ?_
  split <;> infer_instance

instance (helper : Helper) (arg arg' : Reg) [Gives Γ (.reg arg arg')] :
    Alike E Γ (lowerThrow helper arg) (lowerThrow helper arg') := by
  unfold lowerThrow
  infer_instance

instance : Alike E Γ (lowerTypedArrayByteOffset id node) (lowerTypedArrayByteOffset id node) := by
  unfold lowerTypedArrayByteOffset
  infer_instance

/-! ## All operations -/

instance : Alike E Γ (lowerOp id node) (lowerOp id node) := by
  unfold lowerOp
  split <;> infer_instance

end Operations

/-! ## Nodes -/

/-- The facts and the places of variables after a node, if they can be given. -/
theorem inStep_execute (id : NodeId) : Alike E Γ (do
      let availability ← check ((← get).availability.execute E.leftEnv.graph id)
      modify fun s => { s with availability } : Lower Unit) (do
      let availability ← check ((← get).availability.execute E.rightEnv.graph id)
      modify fun s => { s with availability }) where
  steps π s s' u u' s₁ s₁' hs _ hx hy := by
    rw [get_bind] at hx hy
    obtain ⟨availability, ha, hx⟩ := check_bind_ok hx
    obtain ⟨availability', ha', hy⟩ := check_bind_ok hy
    rw [← hs.data.availability] at ha'
    obtain rfl : availability = availability' := Except.ok.inj (ha.symm.trans ha')
    cases hx
    cases hy
    exact ⟨π, (), .refl π, hs.keep (.refl hs.builder) { hs.data with availability := rfl }
      ⟨rfl, rfl⟩ ⟨rfl, rfl⟩ ⟨rfl, rfl⟩ rfl
      (hs.fits.execute ha), rfl, rfl, .nil⟩

instance (facts : AbstractState) :
    Alike E Γ (modify fun s => { s with facts } : Lower Unit) (modify fun s => { s with facts }) :=
  inStep_modify fun h _ => h.setFacts facts

instance (id : NodeId) : Alike E Γ (lowerNode id) (lowerNode id) := by
  refine inStep_read (.bind inferInstance fun node => inStep_then
    (inStep_modify fun {π s s'} h _ => ?_) fun _ =>
    .bind inferInstance fun _ => inStep_then (inStep_countStats fun _ => rfl) fun _ =>
      .bind inferInstance fun ended =>
    inStep_get fun s s' hs => ?_)
  · exact h.keep (.refl h.builder) { h.data with node := rfl, origin := rfl } ⟨rfl, rfl⟩ ⟨rfl, rfl⟩
      ⟨rfl, rfl⟩ rfl h.fits
  · have hexecute (Γ : List Link) := inStep_execute (E := E) (Γ := Γ) id
    rw [hs.facts]
    dsimp only
    split
    · refine inStep_get fun t t' ht => ?_
      rw [ht.facts]
      refine .bind inferInstance fun facts => inStep_then inferInstance fun _ => ?_
      split
      · exact inStep_then inferInstance fun _ => hexecute _
      · exact hexecute _
    · split
      · exact inStep_then inferInstance fun _ => hexecute _
      · exact hexecute _

end SpecJit.Lowering

namespace SpecJit.Lowering

open Lir

variable {E : Setting} {Γ : List Link}

/-! ## Nodes in a row -/

instance (ids : List NodeId) : Alike E Γ (lowerNodes ids) (lowerNodes ids) := by
  induction ids generalizing Γ with
  | nil => exact inferInstanceAs (Alike E Γ (pure PUnit.unit : Lower PUnit) (pure PUnit.unit))
  | cons id ids ih =>
    refine inStep_get fun s s' hs => ?_
    rw [hs.facts]
    split
    · exact .bind inferInstance fun _ => ih
    · infer_instance

/-! ## Blocks -/

/-- The block of a block of the graph goes together with itself. -/
theorem inStep_body {α ι : Type} {l r : ι → α} {P : ι → List Link} {x y : Lower α} {i : Nat}
    (hi : i < E.env.graph.blocks.size) (h : InStep E (.block ⟨i + 1⟩ ⟨i + 1⟩ :: Γ) x y l r P) :
    InStep E Γ x y l r P :=
  ⟨fun π s s' a a' s₁ s₁' hs hΓ hx hy => h.steps π s s' a a' s₁ s₁' hs (.cons (hs.bodies hi) hΓ) hx
    hy⟩

section Blocks

variable (hheads : AvailabilityMap.AllFit E.env.graph E.env.availabilityHeads) (b : BlockIndex)

include hheads

theorem inStep_lowerReachedBlock : Alike E Γ (lowerReachedBlock b) (lowerReachedBlock b) := by
  refine inStep_read (inStep_get fun s s' hs => ?_)
  rw [hs.facts]
  refine .bind inferInstance fun facts => inStep_then (inStep_modify fun {π s s'} h _ => ?_)
    fun _ => ?_
  · exact h.keep (.refl h.builder) { h.data with facts := rfl, availability := rfl } ⟨rfl, rfl⟩
      ⟨rfl, rfl⟩ ⟨rfl, rfl⟩ rfl
      (hheads.headOrEmpty b)
  · refine .bind inferInstance fun blk => .bind inferInstance fun _ => .bind inferInstance
      fun ended => ?_
    split
    · refine inStep_get fun t t' ht => ?_
      rw [ht.facts]
      infer_instance
    · infer_instance

theorem inStep_lowerBlock : Alike E Γ (lowerBlock b) (lowerBlock b) := by
  refine inStep_read ?_
  by_cases hb : b.index < E.env.graph.blocks.size
  · have hleft : E.leftEnv.bodyBlock b = .ok ⟨b.index + 1⟩ := if_pos hb
    have hright : E.rightEnv.bodyBlock b = .ok ⟨b.index + 1⟩ := if_pos hb
    have hreached (Γ : List Link) := inStep_lowerReachedBlock (Γ := Γ) hheads b
    have hcount (Γ : List Link) :
      Alike E Γ (countStats fun st => { st with unreachableBlocks := st.unreachableBlocks + 1 })
        (countStats fun st => { st with unreachableBlocks := st.unreachableBlocks + 1 }) :=
          inStep_countStats fun _ => rfl
    rw [hleft, hright]
    refine inStep_body hb (.bind inferInstance fun _ => .bind inferInstance fun ended => ?_)
    split
    · infer_instance
    · refine inStep_then (inStep_modify fun {π s s'} h _ => ?_) fun _ =>
        inStep_get fun s s' hs => ?_
      · exact { h with data := { h.data with block := rfl, node := rfl }, upsilons := .nil }
      · rw [hs.facts]
        infer_instance
  · have hleft : E.leftEnv.bodyBlock b = .error .outOfRange := if_neg hb
    have hright : E.rightEnv.bodyBlock b = .error .outOfRange := if_neg hb
    rw [hleft, hright]
    exact inStep_crash

theorem inStep_lowerAll : Alike E Γ lowerAll lowerAll := by
  refine inStep_read (inStep_forM fun b _ => ?_)
  exact inStep_lowerBlock hheads b

end Blocks

/-! ## The start -/

/-- What is there goes together with itself. -/
def Pairing.identity (b : Builder) (blocks : Nat) : Pairing where
  regs r r' := r = r' ∧ r.index < b.func.types.size
  blocks p p' := p = p' ∧ p.index ≤ blocks
  left _ _ := False
  right _ _ := False

variable {g : Graph} {n : Nat} {params : List (NodeId × Reg)} {b b' : Builder} {π : Pairing}
  {options : LoweringOptions} {layout : ObjectLayout} {session : Session}

/-- Each block that was set up has its code in common with itself. -/
theorem Declared.block_pairs (h : Declared g n params b) {i : Nat} (hi : i ≤ n) :
    ∃ blk, b.func.blocks[i]? = some blk ∧ blk.Pairs (Pairing.identity b n) blk := by
  have hlt {r : Reg} {ty : Ty} (hr : b.func.HasType r ty) : r.index < b.func.types.size :=
    (Array.getElem?_eq_some_iff.1 hr).1
  cases i with
  | zero =>
    refine ⟨_, h.entry, .nil, ?_, .unreachable⟩
    exact .both .context (.some ⟨rfl, hlt h.context⟩) (.both .frame (.some ⟨rfl, hlt h.frame⟩) .nil)
  | succ t =>
    obtain ⟨rs, hblk, hlen, htyped⟩ := h.body t (by omega)
    refine ⟨_, hblk, List.forall₂_same.2 fun r hr => ⟨rfl, ?_⟩, .nil, .unreachable⟩
    obtain ⟨j, hj, rfl⟩ := List.mem_iff_getElem.1 hr
    exact hlt (htyped _ (getElem_mem_zip hj (hlen ▸ hj)))

theorem Declared.pairs (h : Declared g n params b) : Builder.Pairs (Pairing.identity b n) b b where
  proper := ⟨h.wf, fun i blk _ hblk => h.unended i blk hblk⟩
  proper' := ⟨h.wf, fun i blk _ hblk => h.unended i blk hblk⟩
  reg := by
    rintro r r' ⟨rfl, hr⟩
    exact ⟨_, Array.getElem?_eq_getElem hr, Array.getElem?_eq_getElem hr⟩
  regUnique := by
    rintro r r' q q' ⟨rfl, -⟩ ⟨rfl, -⟩
    rfl
  block := by
    rintro p p' ⟨rfl, hp⟩
    obtain ⟨blk, hblk, hpairs⟩ := h.block_pairs hp
    exact ⟨blk, blk, hblk, hblk, hpairs, rfl⟩
  blockUnique := by
    rintro p p' q q' ⟨rfl, -⟩ ⟨rfl, -⟩
    rfl
  left := nofun
  right := nofun
  current := ⟨rfl, by rw [h.current]; exact Nat.zero_le _⟩

/-- The blocks of a graph go together with themselves, and none of them exits. -/
theorem prologue_pairs {name : String} {p : Prologue} (h : prologue g (.start name) = .ok (p, b')) :
    Builder.Pairs (Pairing.identity b' g.blocks.size) b' b' ∧
    (∀ i id regs, ¬ b'.ExitsAt i id regs) ∧
      (∀ r, r = p.context ∨ r = p.frame ∨ (∃ id, p.phiParams.lookup id = some r) →
        r.index < b'.func.types.size) := by
  obtain ⟨hcontext, hframe, b, hd, rfl⟩ := prologue_declared h
  have hnone (i : Nat) (id : ExitId) (regs : List Reg) : ¬ b.ExitsAt i id regs := by
    rintro ⟨blk, hblk, hexit⟩
    rw [hd.unended i blk hblk] at hexit
    cases hexit
  have hdefined : ∀ r, r = p.context ∨ r = p.frame ∨ (∃ id, p.phiParams.lookup id = some r) →
    r.index < b.func.types.size := by
    rintro r (rfl | rfl | ⟨id, hr⟩)
    · rw [hcontext]
      exact (Array.getElem?_eq_some_iff.1 hd.context).1
    · rw [hframe]
      exact (Array.getElem?_eq_some_iff.1 hd.frame).1
    · obtain ⟨l₁, l₂, hsplit, -⟩ := List.lookup_eq_some_iff.1 hr
      obtain ⟨-, -, -, hty, -⟩ := hd.phi (id, r) (by simp [hsplit])
      exact (Array.getElem?_eq_some_iff.1 hty).1
  split
  · rename_i hne
    have hopen : b.IsOpen b.current.index := hd.isOpen _ (by rw [hd.current]; exact Nat.zero_le _)
    refine ⟨hd.pairs.close (.jump ⟨rfl, hne⟩ .nil), fun i id regs hi => hnone i id regs ?_,
      hdefined⟩
    have hsame : b.SameExits (b.close (.jump ⟨1⟩ [])) :=
      Builder.sameExits_close hd.pairs.proper hopen nofun
    exact (hsame i id regs).1 hi
  · exact ⟨hd.pairs, hnone, hdefined⟩

/-- A session starts in the same way in either mode. -/
theorem Session.start_inMode (h : Session.start g options layout = .ok session)
    (mode : ExitLiveness) :
    Session.start g { options with exitLiveness := mode }
      layout = .ok { session with env := session.env.inMode mode } := by
  unfold Session.start at h ⊢
  -- the analyses and the blocks do not depend on the mode
  dsimp only at h ⊢
  generalize AbstractState.fixpoint g options.maxStructureSetSize = facts at h ⊢
  generalize AvailabilityMap.blockHeads g = heads at h ⊢
  generalize (prologue g).run (Builder.start g.name) = blocks at h ⊢
  generalize g.varargsOutgoingSlots = slots at h ⊢
  cases facts <;> cases heads <;> cases blocks <;> cases slots <;> cases h
  rfl

/-- A session is in step with itself in another mode. -/
theorem Session.start_twin (h : session.Fresh g) (left right : ExitLiveness) :
    Twin ⟨session.env, left, right⟩ (Pairing.identity session.state.builder g.blocks.size)
      session.state session.state := by
  obtain ⟨p, hp, hcontext, hframe, hphi⟩ := h.prologue
  obtain ⟨hpairs, hnone, hdefined⟩ := prologue_pairs hp
  have hmatched (mode : ExitLiveness) : Matched (session.env.inMode mode) session.state.builder
    session.state.exits := by
    rw [h.exits]
    exact ⟨fun hi => absurd hi (hnone _ _ _), nofun, fun hi => absurd hi (hnone _ _ _),
      fun _ => nofun⟩
  refine ⟨⟨rfl, rfl, rfl, rfl, rfl, rfl, rfl, rfl⟩, hpairs, ?_, ?_,
    ⟨rfl, hdefined _ (.inl hcontext)⟩,
    ⟨rfl, hdefined _ (.inr (.inl hframe))⟩, fun {id r} hr =>
      ⟨rfl, hdefined _ (.inr (.inr ⟨id, hphi ▸ hr⟩))⟩, fun hi => ⟨rfl, ?_⟩,
    ?_, ?_, rfl, hmatched left, hmatched right, fun hi => absurd hi (hnone _ _ _)⟩
  · rw [h.values]
    exact .nil
  · rw [h.upsilons]
    exact .nil
  · rw [h.graph] at hi
    exact hi
  · rw [h.availability, h.graph]
    exact AvailabilityMap.fits_empty g
  · rw [h.stats, h.exits]
    rfl

/-! ## The whole lowering -/

/-- A graph that is lowered in two modes gives functions that are in step. -/
theorem lower_twin (left right : ExitLiveness) {f f' : LoweredFunction}
    (h : g.lower { options with exitLiveness := left } layout = .ok f)
    (h' : g.lower { options with exitLiveness := right } layout = .ok f') :
    ∃ session π s s', Session.start g options layout = .ok session ∧ Twin ⟨session.env, left, right⟩
      π s s' ∧ π.blocks ⟨0⟩ ⟨0⟩ ∧
      f = Session.finish { session with state := s } ∧
      f' = Session.finish { session with state := s' } := by
  obtain ⟨session₁, s, hstart₁, hall, rfl⟩ := lower_finish h
  obtain ⟨session₁', s', hstart₁', hall', rfl⟩ := lower_finish h'
  -- the session without a mode of its own
  have hstart := Session.start_inMode hstart₁ options.exitLiveness
  generalize { session₁ with env := session₁.env.inMode options.exitLiveness : Session } = session
    at hstart
  rw [Session.start_inMode hstart left] at hstart₁
  rw [Session.start_inMode hstart right] at hstart₁'
  cases hstart₁
  cases hstart₁'
  have hfresh := Session.start_fresh hstart
  have hheads : AvailabilityMap.AllFit session.env.graph session.env.availabilityHeads := by
    rw [hfresh.graph]
    exact AvailabilityMap.allFit_blockHeads hfresh.heads
  have hstep := inStep_lowerAll (E := ⟨session.env, left, right⟩) (Γ := []) hheads
  obtain ⟨π, -, hle, hs, -⟩ := hstep.steps _ _ _ _ _ _ _ (Session.start_twin hfresh left right) .nil
    hall hall'
  exact ⟨session, π, s, s', hstart, hs, hle.blocks ⟨rfl, Nat.zero_le _⟩, rfl, rfl⟩

end SpecJit.Lowering
