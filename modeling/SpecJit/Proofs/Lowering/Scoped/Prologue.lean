import SpecJit.Proofs.Lowering.DeadEnds
import SpecJit.Proofs.Lowering.Scoped.Node

/-!
# The blocks of a graph are set up

The entry block reads the context and the frame, and each block of the graph gets a parameter for
each of its phis (`Declared`). Nothing leads to these blocks so far but the jump to the first one,
so that the code is sound whatever the other blocks of the graph rely on (`prologue_sound`).
-/

namespace SpecJit.Lowering

open Lir

variable {strict : Bool} {g : Graph} {n : Nat} {params params' : List (NodeId × Reg)}
  {b b' : Builder}

/-- What the entry block consists of. -/
def entryInsts : Array InstData := #[⟨.context, some ⟨0⟩⟩, ⟨.frame, some ⟨1⟩⟩]

/-- The entry block has its instructions and the first `n` blocks of the graph have their
parameters. -/
structure Declared (g : Graph) (n : Nat) (params : List (NodeId × Reg)) (b : Builder) :
    Prop extends Blank n b where
  context : b.func.HasType ⟨0⟩ .i64
  frame : b.func.HasType ⟨1⟩ .i64
  entry : b.func.blocks[0]? = some { insts := entryInsts }
  body : ∀ t < n, ∃ rs, b.func.blocks[t + 1]? = some { params := rs } ∧
    rs.length = (g.phiTypes ⟨t⟩).length ∧
    ∀ q ∈ rs.zip (g.phiTypes ⟨t⟩), b.func.HasType q.1 q.2
  phi : ∀ p ∈ params, ∃ t < n, g.Lists ⟨t⟩ p.1 ∧ b.func.HasType p.2 (g.typeOfResult p.1) ∧
    ∃ rs, b.func.blocks[t + 1]? = some { params := rs } ∧ p.2 ∈ rs

/-- A parameter for each phi. -/
theorem declareParams_ok {block : BlockId} {phis : List NodeId} {rs₀ : List Reg}
    (hblock : b.func.blocks[block.index]? = some { params := rs₀ })
    (hd : (phis.foldlM (fun params phi => do
      return (phi, ← Emit.blockParam block (← g.node phi).result.machineType) :: params) params :
        Emit (List (NodeId × Reg))) b = .ok (params', b')) :
    ∃ rs, rs.length = phis.length ∧ b'.func.blocks[block.index]? = some { params := rs₀ ++ rs } ∧
      (∀ i ≠ block.index, b'.func.blocks[i]? = b.func.blocks[i]?) ∧
      (∀ (i : Nat) ty, b.func.types[i]? = some ty → b'.func.types[i]? = some ty) ∧
      (∀ q ∈ rs.zip (phis.map g.typeOfResult), b'.func.HasType q.1 q.2) ∧ ∀ p ∈ params',
      p ∈ params ∨ p ∈ phis.zip rs := by
  induction phis generalizing params b rs₀ with
  | nil =>
    obtain ⟨rfl, rfl⟩ := Emit.pure_ok hd
    exact ⟨[], rfl,
      by simpa using hblock, fun _ _ => rfl, fun _ _ h => h, nofun, fun p hp => .inl hp⟩
  | cons phi phis ih =>
    rw [List.foldlM_cons] at hd
    obtain ⟨params₁, b₁, h₁, hd⟩ := Emit.bind_ok hd
    obtain ⟨node, hnode, h₁⟩ := Emit.lift_bind_ok h₁
    obtain ⟨r, b₂, h₂, h₁⟩ := Emit.bind_ok h₁
    obtain ⟨rfl, rfl⟩ := Emit.blockParam_ok h₂
    obtain ⟨rfl, rfl⟩ := Emit.pure_ok h₁
    have hnew (i : Nat) (hi : i ≠ block.index) :
        ((b.addReg node.result.machineType).addParam block ⟨b.func.types.size⟩).func.blocks[i]?
          = b.func.blocks[i]? := by
      simp [Builder.addParam, Builder.addReg, Array.getElem?_modify, Ne.symm hi]
    have hthis : ((b.addReg node.result.machineType).addParam block
      ⟨b.func.types.size⟩).func.blocks[block.index]? =
        some { params := rs₀ ++ [⟨b.func.types.size⟩] } := by
      simp [Builder.addParam, Builder.addReg, Array.getElem?_modify, hblock]
    have htypes (i : Nat) (ty : Ty) (hi : b.func.types[i]? = some ty) :
        ((b.addReg node.result.machineType).addParam block ⟨b.func.types.size⟩).func.types[i]?
          = some ty := by
      have hlt := (Array.getElem?_eq_some_iff.1 hi).1
      simp only [Builder.addParam, Builder.addReg, Array.getElem?_push]
      rw [if_neg (by omega)]
      exact hi
    obtain ⟨rs, hlen, hblock', hothers, htypes', htyped, hparams⟩ := ih hthis hd
    refine ⟨⟨b.func.types.size⟩ :: rs,
      by simp [hlen], by simpa using hblock', fun i hi => (hothers i hi).trans (hnew i hi),
      fun i ty hi => htypes' i ty (htypes i ty hi), fun q hq => ?_, fun p hp => ?_⟩
    · rcases List.mem_cons.1 hq with rfl | hq
      · refine htypes' _ _ ?_
        rw [Graph.typeOfResult_of_node hnode]
        simp [Builder.addParam, Builder.addReg]
      · exact htyped q hq
    · rcases hparams p hp with hp | hp
      · rcases List.mem_cons.1 hp with rfl | hp
        · exact .inr (by simp)
        · exact .inl hp
      · exact .inr (by simp [hp])

theorem Declared.declareBlock (h : Declared g n params b)
    (hd : declareBlock g params ⟨n⟩ b = .ok (params', b')) :
    Declared g (n + 1) params' b' := by
  have hblank := h.toBlank.declareBlock hd
  obtain ⟨block, b₁, h₁, hd⟩ := Emit.bind_ok hd
  obtain ⟨rfl, rfl⟩ := Emit.createBlock_ok h₁
  obtain ⟨phis, hphis, hd⟩ := Emit.lift_bind_ok hd
  have hsize := h.size
  have hempty : (b.addBlock false).func.blocks[(⟨b.func.blocks.size⟩ : BlockId).index]?
    = some { params := [] } := by
    simp [Builder.addBlock]
  obtain ⟨rs, hlen, hblock, hothers, htypes, htyped, hparams⟩ := declareParams_ok hempty hd
  rw [h.size] at hblock hothers
  have hold (i : Nat) (hi : i < n + 1) : b'.func.blocks[i]? = b.func.blocks[i]? :=
    (hothers i (by simp only []; omega)).trans (Builder.addBlock_getElem? false (by omega))
  have hnodes := (Graph.phis_ok hphis).choose_spec
  refine ⟨hblank, htypes _ _ h.context, htypes _ _ h.frame, (hold 0 (by omega)).trans h.entry,
    fun t ht => ?_, fun p hp => ?_⟩
  · by_cases hlast : t = n
    · subst hlast
      rw [Graph.phiTypes_ok hphis]
      exact ⟨rs, by simpa using hblock, by simp [hlen], htyped⟩
    · obtain ⟨rs', hblock', hlen', htyped'⟩ := h.body t (by omega)
      exact ⟨rs', (hold _ (by omega)).trans hblock', hlen', fun q hq => htypes _ _ (htyped' q hq)⟩
  · rcases hparams p hp with hp | hp
    · obtain ⟨t, ht, hlists, hty, rs', hblock', hmem⟩ := h.phi p hp
      exact ⟨t, by omega, hlists, htypes _ _ hty, rs', (hold _ (by omega)).trans hblock', hmem⟩
    · obtain ⟨i, hi, rfl⟩ := List.mem_iff_getElem.1 hp
      simp only [List.length_zip, Nat.lt_min] at hi
      simp only [List.getElem_zip]
      refine ⟨n,
        by omega, ⟨_, hnodes.1,
          (hnodes.2 _ (List.getElem_mem hi.1)).1⟩, ?_, rs,
            by simpa using hblock, List.getElem_mem hi.2⟩
      have := htyped _ (getElem_mem_zip hi.2 (by simpa using hi.1))
      simpa using this

theorem Declared.declareBlocks {m : Nat} (h : Declared g n params b)
    (hd : ((List.range' n m).map BlockIndex.mk).foldlM (Lowering.declareBlock g) params
      b = .ok (params', b')) :
    Declared g (n + m) params' b' := by
  induction m generalizing n params b with
  | zero =>
    obtain ⟨rfl, rfl⟩ := Emit.pure_ok hd
    exact h
  | succ m ih =>
    rw [List.range'_succ, List.map_cons, List.foldlM_cons] at hd
    obtain ⟨params₁, b₁, h₁, hd⟩ := Emit.bind_ok hd
    have := ih (h.declareBlock h₁) hd
    rwa [Nat.add_assoc, Nat.add_comm 1 m] at this

theorem prologue_declared {name : String} {p : Prologue}
    (h : prologue g (.start name) = .ok (p, b')) :
    p.context = ⟨0⟩ ∧ p.frame = ⟨1⟩ ∧ ∃ b, Declared g g.blocks.size p.phiParams b ∧
      b' = if 0 < g.blocks.size then b.close (.jump ⟨1⟩ []) else b := by
  obtain ⟨context, b₁, h₁, h⟩ := Emit.bind_ok h
  obtain ⟨b₂, h₂, rfl, rfl⟩ := Emit.define_ok h₁
  obtain rfl := Emit.ensureOpen_of_open h₂ rfl
  obtain ⟨frame, b₃, h₃, h⟩ := Emit.bind_ok h
  obtain ⟨b₄, h₄, rfl, rfl⟩ := Emit.define_ok h₃
  obtain rfl := Emit.ensureOpen_of_open h₄ rfl
  obtain ⟨phiParams, b₅, h₅, h⟩ := Emit.bind_ok h
  have hstart : Declared g 0 []
    ((((((Builder.start name).addReg .i64).addInst ⟨.context, some ⟨0⟩⟩)).addReg .i64).addInst
      ⟨.frame, some ⟨1⟩⟩) := by
    refine ⟨((Blank.start name).define h₁).define h₃, rfl, rfl, rfl, nofun, nofun⟩
  rw [Graph.blockIndices, List.range_eq_range'] at h₅
  have hall := hstart.declareBlocks h₅
  rw [Nat.zero_add] at hall
  by_cases hne : 0 < g.blocks.size
  · have hsome : (!g.blocks.isEmpty) = true := by
      simpa [Array.isEmpty, Nat.pos_iff_ne_zero] using hne
    rw [if_pos hsome] at h
    obtain ⟨_, b₆, h₆, hend⟩ := Emit.bind_ok h
    obtain ⟨b₇, h₇, rfl⟩ := Emit.terminate_ok h₆
    obtain rfl :=
      Emit.ensureOpen_of_open h₇ (hall.isOpen _ (by rw [hall.current]; exact Nat.zero_le _))
    cases hend
    exact ⟨rfl, rfl, _, hall, (if_pos hne).symm⟩
  · have hnone : ¬ (!g.blocks.isEmpty) = true := by
      simpa [Array.isEmpty, Nat.pos_iff_ne_zero] using hne
    rw [if_neg hnone] at h
    cases h
    exact ⟨rfl, rfl, _, hall, (if_neg hne).symm⟩

/-- Blocks without code are sound. -/
theorem Declared.sound (h : Declared g n params b) {S : Scoping} : b.Sound strict S := by
  have hlt (r : Reg) (ty : Ty) (hr : b.func.HasType r ty) : r.index < b.func.types.size :=
    (Array.getElem?_eq_some_iff.1 hr).1
  refine ⟨h.wf, fun i blk hblk => ?_⟩
  cases i with
  | zero =>
    rw [h.entry] at hblk
    cases hblk
    have hinst (k : Nat) (d : InstData) (hd : entryInsts[k]? = some d) :
        d = ⟨.context, some ⟨0⟩⟩ ∨ d = ⟨.frame, some ⟨1⟩⟩ := by
      have := Array.mem_of_getElem? hd
      simpa [entryInsts] using this
    refine ⟨nofun, fun k d hd => ?_, ⟨nofun, nofun⟩, fun _ k d hd => ?_, fun _ => trivial,
      fun _ => nofun⟩
    · rcases hinst k d hd with rfl | rfl
      · exact ⟨nofun, fun r hr => by cases hr; exact ⟨hlt _ _ h.context, rfl⟩⟩
      · exact ⟨nofun, fun r hr => by cases hr; exact ⟨hlt _ _ h.frame, rfl⟩⟩
    · rcases hinst k d hd with rfl | rfl
      · exact h.context
      · exact h.frame
  | succ t =>
    have hin := (Array.getElem?_eq_some_iff.1 hblk).1
    rw [h.size] at hin
    obtain ⟨rs, hrs, hlen, htyped⟩ := h.body t (by omega)
    rw [hrs] at hblk
    cases hblk
    refine .empty false fun r hr => ?_
    obtain ⟨j, hj, rfl⟩ := List.mem_iff_getElem.1 hr
    exact hlt _ _ (htyped _ (getElem_mem_zip hj (hlen ▸ hj)))

/-- The entry and the blocks of the graph are as they were set up, with `V` in scope. -/
structure Bodies (env : Env) (V S : Scoping) (b : Builder) : Prop where
  fixed : b.func.HasType env.context .i64 ∧ b.func.HasType env.frame .i64
  entry : ∃ blk, b.func.blocks[0]? = some blk ∧ blk.params = []
  block : ∀ t : BlockIndex, t.index < env.graph.blocks.size → ∃ blk,
    b.func.blocks[t.index + 1]? = some blk ∧
    blk.params.length = (env.graph.phiTypes t).length ∧ ∀ q ∈ blk.params.zip (env.graph.phiTypes t),
    b.func.HasType q.1 q.2
  scope : ∀ i < env.graph.blocks.size + 1, S i = V i
  phi : ∀ id r, env.phiParams.lookup id = some r → ∃ t blk, env.graph.Lists t id ∧
    b.func.blocks[t.index + 1]? = some blk ∧
    r ∈ blk.params ∧ b.func.HasType r (env.graph.typeOfResult id)

theorem Bodies.size {env : Env} {V S : Scoping} (h : Bodies env V S b) :
    env.graph.blocks.size < b.func.blocks.size := by
  by_cases hne : env.graph.blocks.size = 0
  · obtain ⟨blk, hblk, -⟩ := h.entry
    rw [hne]
    exact (Array.getElem?_eq_some_iff.1 hblk).1
  · obtain ⟨blk, hblk, -⟩ := h.block ⟨env.graph.blocks.size - 1⟩ (by simp only []; omega)
    have := (Array.getElem?_eq_some_iff.1 hblk).1
    simp only [] at this
    omega

theorem Bodies.grow {env : Env} {V S S' : Scoping} (h : Bodies env V S b)
    (e : b.Grown strict S S' b') : Bodies env V S' b' where
  fixed := ⟨e.func.types _ _ h.fixed.1, e.func.types _ _ h.fixed.2⟩
  entry := by
    obtain ⟨blk, hblk, hparams⟩ := h.entry
    obtain ⟨blk', hblk', hp⟩ := e.func.params _ _ hblk
    exact ⟨blk', hblk', hp.trans hparams⟩
  block t ht := by
    obtain ⟨blk, hblk, hlen, htyped⟩ := h.block t ht
    obtain ⟨blk', hblk', hp⟩ := e.func.params _ _ hblk
    exact ⟨blk', hblk', hp ▸ hlen, fun q hq => e.func.types _ _ (htyped q (hp ▸ hq))⟩
  scope i hi := (e.scope i (Nat.lt_of_lt_of_le hi h.size)).trans (h.scope i hi)
  phi id r hr := by
    obtain ⟨t, blk, hlists, hblk, hmem, hty⟩ := h.phi id r hr
    obtain ⟨blk', hblk', hp⟩ := e.func.params _ _ hblk
    exact ⟨t, blk', hlists, hblk', hp ▸ hmem, e.func.types _ _ hty⟩

/-- The code is sound whatever the blocks of the graph rely on, as long as the first one relies on
the context, the frame and what is in scope at the entry. Where values are counted it has no phis.
-/
theorem prologue_sound {env : Env} {name : String} {p : Prologue} {V : Scoping}
    (hp : prologue env.graph (.start name) = .ok (p, b')) (hne : 0 < env.graph.blocks.size)
    (hcontext : env.context = p.context) (hframe : env.frame = p.frame)
    (hphi : env.phiParams = p.phiParams) (hplain : strict = false → env.graph.phiTypes ⟨0⟩ = [])
    (hV : ∀ r, V 1 r → r = env.context ∨ r = env.frame ∨ V 0 r) :
    b'.Sound strict V ∧ Bodies env V V b' := by
  obtain ⟨hc, hf, b, hd, hclose⟩ := prologue_declared hp
  rw [if_pos hne] at hclose
  subst hclose
  rw [hc] at hcontext
  rw [hf] at hframe
  have hbodies : Bodies env V V b := by
    refine ⟨by
      rw [hcontext, hframe]; exact ⟨hd.context, hd.frame⟩, ⟨_, hd.entry, rfl⟩, fun t ht => ?_,
      fun _ _ => rfl, fun id r hr => ?_⟩
    · obtain ⟨rs, hblk, hrest⟩ := hd.body t.index ht
      exact ⟨_, hblk, hrest⟩
    · rw [hphi] at hr
      obtain ⟨l₁, l₂, hsplit, -⟩ := List.lookup_eq_some_iff.1 hr
      obtain ⟨t, -, hlists, hty, rs, hblk, hmem⟩ := hd.phi (id, r) (by simp [hsplit])
      exact ⟨⟨t⟩, _, hlists, hblk, hmem, hty⟩
  have hcurrent : b.func.blocks[b.current.index]? = some { insts := entryInsts } := by
    rw [hd.current]
    exact hd.entry
  have hentry (r : Reg) (hr : V 1 r) : Block.Defined { insts := entryInsts } (V b.current.index)
    entryInsts.size r := by
    rcases hV r hr with rfl | rfl | hr
    · exact .inr (.inr ⟨0, by simp [entryInsts], _, rfl, by rw [hcontext]; rfl⟩)
    · exact .inr (.inr ⟨1, by simp [entryInsts], _, rfl, by rw [hframe]; rfl⟩)
    · rw [hd.current]
      exact .inl hr
  obtain ⟨rs, hblk, hlen, -⟩ := hd.body 0 hne
  have hrs (hst : strict = false) : rs = [] :=
    List.eq_nil_of_length_eq_zero (by rw [hlen, hplain hst]; rfl)
  have hsound : b.Sound strict V := hd.sound
  have e := Builder.close_grown (t := .jump ⟨1⟩ []) hsound hcurrent
    ⟨nofun,
      by simpa [Terminator.edges] using ⟨⟨_, hblk, fun hst => by simp [hrs (by simpa using hst)]⟩,
        hentry⟩⟩
    fun _ => ⟨trivial, by simpa [Terminator.edges] using ⟨_, hblk, by simp⟩⟩
  exact ⟨e.after, hbodies.grow e⟩

end SpecJit.Lowering
