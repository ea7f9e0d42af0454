import SpecJit.Proofs.Execution
import SpecJit.Proofs.Lir.Effects
import SpecJit.Proofs.Lowering.CellUses
import SpecJit.Proofs.Lowering.DeadEnds

/-!
# Structures under several names

A store of a structure changes the header of one cell. The analysis updates what it knows of the
node that the store uses; what it knows of other nodes stays, also of those that hold the same cell.
So a fact about the structures of another node is still true behind the store exactly if that node
holds another cell, or the new structure is one that the fact allows (`put_structure_fact_iff`).
-/

namespace SpecJit

open Lir

section Headers

variable {layout : ObjectLayout} {memory : Memory} {p q v : Word}

/-- The address of the structure id of a cell. -/
def ObjectLayout.structureAddress (layout : ObjectLayout) (cell : Word) : Word :=
  Machine.address cell (Int32.ofInt (layout.fieldOffset .structureId))

/-- The id of the structure in the header of a cell. -/
def ObjectLayout.structureOf (layout : ObjectLayout) (memory : Memory) (cell : Word) :
    StructureId :=
  ⟨(memory.read (layout.structureAddress cell) 4).toNat⟩

/-- The structure ids of the cells share no byte. -/
def Apart (p q : Word) : Prop := 4 ≤ (q - p).toNat ∧ 4 ≤ (p - q).toNat

theorem Apart.ne (h : Apart p q) : q ≠ p := by
  rintro rfl
  simpa using h.1

/-- The bits of a structure id that fits into the header. -/
theorem Offset.toNat_ofIndex {n : Nat} (h : n < 0x100000000) :
    (ofInt32 (Int32.ofInt (Offset.ofIndex n))).toNat = n := by
  have hbits : (Int32.ofInt (Offset.ofIndex n)).toUInt32.toNat = n := by
    change (BitVec.ofInt 32 (Int.bmod n 0x100000000)).toNat = n
    have hmod : Int.bmod n 0x100000000 % 0x100000000 = n % 0x100000000 := Int.bmod_emod ..
    rw [BitVec.toNat_ofInt]
    omega
  rw [ofInt32, UInt32.toNat_toUInt64, hbits]

theorem Offset.ofInt32_ofIndex {n : Nat} (h : n < 0x100000000) :
    ofInt32 (Int32.ofInt (Offset.ofIndex n)) = UInt64.ofNat n := by
  rw [← UInt64.toNat_inj, toNat_ofIndex h, UInt64.toNat_ofNat', Nat.mod_eq_of_lt (by omega)]

/-- A cell has the structure that was stored last. -/
theorem ObjectLayout.structureOf_write {id : StructureId} (h : id.index < 0x100000000) :
    layout.structureOf (memory.write (layout.structureAddress p) 4
      (ofInt32 (Int32.ofInt (Offset.ofIndex id.index)))) p = id := by
  unfold structureOf
  rw [Memory.read_write_self (by omega), Offset.toNat_ofIndex h,
    Nat.mod_eq_of_lt (show id.index < 256 ^ 4 from h)]

/-- Other cells keep their structures. -/
theorem ObjectLayout.structureOf_write_apart (h : Apart p q) :
    layout.structureOf (memory.write (layout.structureAddress p) 4 v) q = layout.structureOf memory
      q := by
  have hsub (a b d : Word) : a + d - (b + d) = a - b := by grind
  unfold structureOf structureAddress Machine.address
  rw [Memory.read_write_apart ⟨by rw [hsub]; exact h.1, by rw [hsub]; exact h.2⟩]

end Headers

namespace AbstractState

variable {g : Graph} {s s' : AbstractState} {id : NodeId} {node : Node} {e : Edge} {t : Transition}

/-- What is known of the structures of the cell that an operation gives a structure. -/
def storedStructures : Op → Option StructureFact
  | .putStructure t => some (.singleton t.next)
  | .multiPutByOffset cases => some (.known (WriteCase.structuresAfter cases))
  | _ => none

/-- Such an operation leaves this fact about the node that it uses first, and the facts about nodes
that it does not concern as they are. -/
theorem execute_storedStructures {known : StructureFact} (h : s.execute g id = .ok s')
    (hvalid : s'.valid = true) (hnode : g.node id = .ok node)
    (hop : storedStructures node.op = some known) (hchild : node.child 0 = .ok e) :
    (∃ v, s'.current.get? e.node = some v ∧ v.structures = known) ∧
      ∀ y, ¬ g.Concerns id y → s'.current.get? y = s.current.get? y := by
  have hclobber : node.op.clobbersWorld = false := by
    cases hcase : node.op <;> rw [hcase] at hop <;> first | rfl | cases hop
  constructor
  · obtain ⟨node', s₁, s₂, hn, -, -, -, ht, rfl⟩ := execute_ok h hvalid
    obtain rfl : node = node' := Except.ok.inj (hnode.symm.trans hn)
    rw [hclobber, if_neg Bool.false_ne_true]
    unfold transfer at ht
    cases hcase : node.op <;> rw [hcase] at hop ht <;> try cases hop
    all_goals
      obtain ⟨e', he, ht⟩ := bind_eq_ok_iff.1 ht
      obtain rfl : e = e' := Except.ok.inj (hchild.symm.trans he)
      obtain ⟨slot, -, ht⟩ := bind_eq_ok_iff.1 ht
      cases ht
      exact ⟨_, get?_setFact_self .., rfl⟩
  · intro y hy
    obtain ⟨node', hn, hkept⟩ := execute_kept h hvalid hy
    obtain rfl : node = node' := Except.ok.inj (hnode.symm.trans hn)
    rw [hkept, hclobber, if_neg Bool.false_ne_true]

end AbstractState

namespace Lowering

open Value

section

variable {σ : Type} {m : Machine σ} {c : Config σ} {env : Env} {s s' : State} {id : NodeId}
  {node : Node} {e : Edge} {r : Reg} {w : Word} {t : Transition}

/-- A store of a structure leaves, or comes to its end. -/
theorem putStructure_goes (hop : node.op = .putStructure t) (hchild : node.children = [e])
    (h : lowerOp id node env s = .ok ((), s')) (hm : s'.builder.Completes m.func)
    (hc : m.At s.builder c) (hcell : Boxed env s e.node r) (hw : c.Has s.builder r .i64 w)
    (hi : Informed env c.memory s e.node w) (ho : Sees env c.memory e w) :
    m.Leaves s'.builder c ∨ ∃ c', m.Goes (Config.Inside s'.builder) c c' ∧ m.At s'.builder c' ∧
      (∀ r ty v, c.Has s.builder r ty v → c'.Has s'.builder r ty v) ∧
      c'.memory = c.memory.write (env.layout.structureAddress w) 4
        (ofInt32 (Int32.ofInt (Offset.ofIndex t.next.index))) := by
  have hlower : lowerOp id node = lowerPutStructure node t := by simp only [lowerOp, hop]
  rw [hlower, lowerPutStructure] at h
  obtain ⟨e', he, h⟩ := check_bind_ok h
  rw [child_eq hchild] at he
  cases he
  obtain ⟨r₁, s₁, h₁, h⟩ := bind_ok h
  have e₁ : s.builder.Emits [] s₁.builder := Tidy.after h₁ (.refl hc.wf)
  have e₂ : s₁.builder.Emits [] s'.builder := Tidy.after h (.refl e₁.after)
  obtain ⟨rfl, hleave | ⟨-, -, -, -, hruns⟩⟩ := asCell_reads h₁ (e₂.toExtends.completes hm) hc hcell
    hw hi ho
  · exact .inl (hleave.grow e₂.toExtends)
  obtain ⟨c₁, hgoes₁, hc₁, hk₁, -⟩ := hruns
  rw [storeStructureId] at h
  obtain ⟨r₂, b₂, h₂, h⟩ := emit_bind_ok h
  have e₃ : s₁.builder.Emits [] b₂ := (inferInstance : (Emit.int32 _).Tidy).emits _ _ _ e₁.after h₂
  change (liftM (Emit.store .w32 r₂ r₁ (env.layout.fieldOffset .structureId)) : Lower Unit) env
    _ = _ at h
  obtain ⟨b₃, h₃, rfl⟩ := emit_ok h
  have e₄ : b₂.Emits [] b₃ := (inferInstance : (Emit.store _ _ _ _).Tidy).emits _ _ _ e₃.after h₃
  -- the id, and the store of it
  obtain ⟨c₂, hgoes₂, hc₂, hk₂, hid⟩ :=
    Emit.int32_yields (m := m) _ (.refl c₁ _) hc₁ h₂ (e₄.toExtends.completes hm)
  have hcell₂ := (hw.keep e₁.toExtends hk₁).keep e₃.toExtends hk₂
  obtain ⟨c₃, hgoes₃, hc₃, hregs, hmem⟩ := Machine.store_goes h₃ hm hc₂ hid hcell₂
  have hx := e₃.trans e₄
  refine .inr ⟨c₃, ?_, hc₃, fun r ty v hv => ?_, ?_⟩
  · exact (hgoes₁.mono fun _ hp => hp.grow hx.toGrows).trans
      ((hgoes₂.mono fun _ hp => hp.grow e₄.toGrows).trans hgoes₃)
  · have hv₂ := (hv.keep e₁.toExtends hk₁).keep e₃.toExtends hk₂
    exact ⟨e₄.toExtends.types _ _ hv₂.type, by rw [hregs]; exact hv₂.value⟩
  · rw [hmem, hk₂.memory, hk₁.memory]
    rfl

/-- A store of a structure leaves, or comes to its end with the structure in the header of the cell
and the fact that the node it used has this structure. What is known of a node that it does not
concern stays. If it was true of the cell that the node holds, it still is exactly if that is
another cell or the new structure is among those known. -/
theorem put_structure_fact_iff {facts : AbstractState} (hnode : env.graph.node id = .ok node)
    (hop : node.op = .putStructure t) (hchild : node.children = [e])
    (hfits : t.next.index < 0x100000000) (h : lowerOp id node env s = .ok ((), s'))
    (hm : s'.builder.Completes m.func) (hc : m.At s.builder c) (hcell : Boxed env s e.node r)
    (hw : c.Has s.builder r .i64 w) (hi : Informed env c.memory s e.node w)
    (ho : Sees env c.memory e w) (hexec : s'.facts.execute env.graph id = .ok facts)
    (hvalid : facts.valid = true) :
    m.Leaves s'.builder c ∨ ∃ c', m.Goes (Config.Inside s'.builder) c c' ∧ m.At s'.builder c' ∧
      (∀ r ty v, c.Has s.builder r ty v → c'.Has s'.builder r ty v) ∧
      (env.layout.structureOf c'.memory w = t.next ∧
        ∃ v, facts.current.get? e.node = some v ∧ v.structures = .singleton t.next) ∧
      ∀ y v q set, ¬ env.graph.Concerns id y → s'.facts.current.get? y = some v →
      v.structures = .known set →
        env.layout.structureOf c.memory q ∈ set.ids → q = w ∨ Apart w q →
        facts.current.get? y = some v ∧ (env.layout.structureOf c'.memory q ∈ set.ids ↔ q ≠ w ∨
          t.next ∈ set.ids) := by
  rcases putStructure_goes hop hchild h hm hc hcell hw hi ho with hleave | ⟨c', hgoes, hc', hkeep,
    hmem⟩
  · exact .inl hleave
  have hnew : env.layout.structureOf c'.memory w = t.next := by
    rw [hmem, ObjectLayout.structureOf_write hfits]
  have hstored : AbstractState.storedStructures node.op = some (.singleton t.next) := by
    rw [hop]
    rfl
  obtain ⟨hown, hkept⟩ := AbstractState.execute_storedStructures hexec hvalid hnode hstored
    (child_eq hchild)
  refine .inr ⟨c', hgoes, hc', hkeep, ⟨hnew, hown⟩, ?_⟩
  intro y v q set hy hv hset hin hq
  constructor
  · rw [hkept y hy, hv]
  · rcases hq with rfl | hq
    · rw [hnew]
      simp
    · rw [hmem, ObjectLayout.structureOf_write_apart hq]
      simp [hin, hq.ne]

end

/-! ## A cell with two names

Two reads of one argument hold the same cell. A structure that is stored through the first one is
not what the facts about the second one say, so that a check of the second one is left out. -/

/-- Reads an argument twice, checks both reads for structure 1, stores structure 2 through the first
one, and returns the second one after another check for structure 1. -/
def renamedCell : Graph where
  name := "renamedCell"
  nodes := #[
    { op := .getStack { operand := .arg 1, slot := .arg 1, format := .jsValue },
      result := .jsValue },
    { op := .getStack { operand := .arg 1, slot := .arg 1, format := .jsValue },
      result := .jsValue },
    { op := .checkStructure ⟨[⟨1⟩]⟩, children := [{ node := ⟨0⟩, useKind := .cell }] },
    { op := .checkStructure ⟨[⟨1⟩]⟩, children := [{ node := ⟨1⟩, useKind := .cell }] },
    { op := .putStructure { previous := ⟨1⟩, next := ⟨2⟩ },
      children := [{ node := ⟨0⟩, useKind := .cell }] },
    { op := .checkStructure ⟨[⟨1⟩]⟩, children := [{ node := ⟨1⟩, useKind := .cell }] },
    { op := .ret, children := [{ node := ⟨1⟩ }] }]
  blocks := #[{ index := ⟨0⟩, nodes := #[⟨0⟩, ⟨1⟩, ⟨2⟩, ⟨3⟩, ⟨4⟩, ⟨5⟩, ⟨6⟩] }]
  numArguments := 2
  numLocals := 0

/-- The address of an object. -/
def objectAddress : Word := 0x5000

/-- Memory in which argument 1 is an object with structure 1. -/
def objectMemory : Memory :=
  (Simulation.FrameValues.memory { arguments := [objectAddress] }).write objectAddress 4 1

/-- The structure that the object has when a simulated run of a graph ends. -/
def structureAtEnd (g : Graph) : Option StructureId :=
  match g.lower {} {} with
  | .ok f =>
    some (ObjectLayout.structureOf {} (Simulation.run f.lir {} 1000 objectMemory).memory
      objectAddress)
  | .error _ => none

/-- What the analysis knows of the structures of the second read before it is returned. -/
def structuresOfSecond : Option StructureFact :=
  match AbstractState.executeAll renamedCell [⟨0⟩, ⟨1⟩, ⟨2⟩, ⟨3⟩, ⟨4⟩]
      { blocks := #[], current := .empty renamedCell, valid := true } with
  | .ok s => (s.current.get? ⟨1⟩).map (·.structures)
  | .error _ => none

/-- The last check lets an object with structure 2 pass. -/
theorem renamedCell_passes_check :
    renamedCell.canCompile.isOk = true ∧
    simulated renamedCell objectMemory = some (.returned objectAddress) ∧
      structureAtEnd renamedCell = some ⟨2⟩ ∧ structuresOfSecond = some (.known ⟨[⟨1⟩]⟩) := by
  refine ⟨by decide, by decide +kernel, by decide +kernel, by decide⟩

namespace StructureStore

def env : Env where
  graph := renamedCell
  options := {}
  layout := {}
  dominators := { parents := #[some ⟨0⟩], numbers := #[some 0] }
  availabilityHeads := #[]
  phiParams := []
  exitOnly := []
  context := ⟨0⟩
  frame := ⟨1⟩

def fact : AbstractValue := { ty := .cell, structures := .known ⟨[⟨1⟩]⟩ }

/-- Before the store: registers 2 and 3 hold the object. -/
def before : State where
  builder := {
    func := { name := "renamedCell", blocks := #[{}], types := #[.i64, .i64, .i64, .i64] }
    terminated := #[false]
    current := ⟨0⟩ }
  facts := { blocks := #[], current := ((Facts.empty renamedCell).set ⟨0⟩ fact).set ⟨1⟩ fact,
             valid := true }
  availability := .empty renamedCell
  values := [((⟨1⟩, .jsValue), ⟨3⟩, ⟨0⟩), ((⟨0⟩, .jsValue), ⟨2⟩, ⟨0⟩)]

def use : Edge := { node := ⟨0⟩, useKind := .cell }

def node : Node := { op := .putStructure { previous := ⟨1⟩, next := ⟨2⟩ }, children := [use] }

def config : Config Simulation.RuntimeState where
  registers := #[none, none, some objectAddress, some objectAddress, none]
  memory := objectMemory
  runtimeState := {}

/-- The store comes to its end. -/
def ends : Bool :=
  match lowerOp ⟨4⟩ node env before with
  | .error _ => false
  | .ok (_, s') => s'.builder.func.types.size == 5 && (s'.facts.current.get? ⟨1⟩ == some fact) &&
    match (simulator s'.builder.func).advance 2 config, s'.facts.execute renamedCell ⟨4⟩ with
    | some c', .ok facts => decide ((simulator s'.builder.func).At s'.builder c') && facts.valid
    | _, _ => false

theorem before_at (f : Function) (h : f.types.size = 5) :
    (simulator f).At before.builder config where
  wf := ⟨rfl, by decide⟩
  isOpen := rfl
  block := rfl
  position blk hb := by cases hb; rfl
  registers := h.symm

theorem before_boxed : Boxed env before ⟨0⟩ ⟨2⟩ where
  held := rfl
  only form hne := by cases form <;> first | rfl | exact absurd rfl hne

theorem before_informed : Informed env objectMemory before ⟨0⟩ objectAddress where
  valid := rfl
  depth := rfl
  fact := ⟨_, rfl, by decide, by decide, fun _ hc => by cases hc⟩

theorem not_concerns : ¬ renamedCell.Concerns ⟨4⟩ ⟨1⟩ := by
  rintro (hx | ⟨node, hnode, hx⟩)
  · cases hx
  · cases hnode
    rcases hx with hx | ⟨e, he, hx⟩
    · cases hx
    · obtain rfl : e = use := List.mem_singleton.1 he
      cases hx

end StructureStore

/-- Behind the store the second read holds an object with structure 2, of which structure 1 is
known. -/
theorem put_structure_fact_renamedCell : ∃ s' c' facts,
    lowerOp ⟨4⟩ StructureStore.node StructureStore.env StructureStore.before = .ok ((), s') ∧
      (simulator s'.builder.func).At s'.builder c' ∧
      c'.Has s'.builder ⟨3⟩ .i64 objectAddress ∧
      s'.facts.execute renamedCell ⟨4⟩ = .ok facts ∧
      facts.current.get? ⟨1⟩ = some StructureStore.fact ∧
      ObjectLayout.structureOf {} c'.memory objectAddress ∉ [(⟨1⟩ : StructureId)] := by
  have hends : StructureStore.ends = true := by decide
  unfold StructureStore.ends at hends
  split at hends
  · cases hends
  · rename_i u s' h
    rw [Bool.and_eq_true, Bool.and_eq_true, beq_iff_eq, beq_iff_eq] at hends
    obtain ⟨⟨htypes, hfact⟩, hends⟩ := hends
    split at hends
    · rename_i c' facts hadvance hexec
      rw [Bool.and_eq_true, decide_eq_true_eq] at hends
      obtain ⟨hend, hvalid⟩ := hends
      rcases put_structure_fact_iff (e := StructureStore.use) (r := ⟨2⟩) (w := objectAddress) rfl
        rfl rfl (by decide) h
        s'.builder.completes_self (StructureStore.before_at _ htypes) StructureStore.before_boxed
          ⟨rfl, rfl⟩
        StructureStore.before_informed (.inr ⟨rfl, by decide⟩) hexec hvalid with
        hleave | ⟨c₁, -, hc₁, hkeep, -, hothers⟩
      · exact absurd hend (hleave.not_at (Machine.Steps.of_advance hadvance))
      · obtain ⟨hkept, hiff⟩ := hothers ⟨1⟩ StructureStore.fact objectAddress ⟨[⟨1⟩]⟩
          StructureStore.not_concerns hfact rfl
          (by decide) (.inl rfl)
        refine ⟨s', c₁, facts, h, hc₁, hkeep _ _ _ ⟨rfl, rfl⟩, hexec, hkept, fun hin => ?_⟩
        have hnot := hiff.1 hin
        revert hnot
        decide
    · cases hends

end Lowering

end SpecJit
