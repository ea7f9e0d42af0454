import SpecJit.Proofs.Lowering.Smooth

/-!
# Exits, checks and machine forms

Building an exit may put constants into registers, and nothing more. A check ends the current block
by a branch to a block that leaves and goes on in another one, and so does the reading of a use that
is checked. What a relation says of the ways in which uses are read it says of the routines that
read them.
-/

namespace SpecJit.Lowering

open Lir

variable {α β : Type} {R : Law}

/-! ## Exits -/

instance (kind : ExitKind) (profile : Option Reg) (failing : Reg) :
    Tidy (speculate kind profile failing) where
  obeys env s a s' h hw := by
    obtain ⟨⟨exit, captured⟩, s₁, h₁, h⟩ := bind_ok h
    have e₁ := Tidy.after h₁ (.refl hw)
    obtain ⟨cold, s₂, h₂, h⟩ := bind_ok h
    have e₂ := createBlock_after h₂ e₁
    obtain ⟨continuation, s₃, h₃, h⟩ := bind_ok h
    have e₃ := createBlock_after h₃ e₂
    obtain ⟨_, s₄, h₄, h⟩ := bind_ok h
    obtain ⟨e₄, c₄⟩ := terminate_after h₄ nofun e₃
    obtain ⟨_, s₅, h₅, h⟩ := bind_ok h
    have e₅ := switchTo_after h₅ e₄ c₄ (by simp)
    obtain ⟨_, s₆, h₆, h⟩ := bind_ok h
    obtain ⟨e₆, c₆⟩ := terminate_after h₆ nofun e₅
    obtain ⟨_, s₇, h₇, h⟩ := bind_ok h
    have e₇ := switchTo_after h₇ e₆ c₆ (by simp)
    have e₈ := Tidy.after h e₇
    simpa using e₈

instance : (onBuilders Builder.settling).Codes where
  computing := inferInstance
  chooses _ _ _ := inferInstance
  captures _ _ := inferInstance
  speculates _ _ _ := inferInstance
  building := inferInstance
  whens _ _ := inferInstance

instance [R.Codes] (cell : Reg) : Obeys R (writeBarrier cell) := by
  unfold writeBarrier
  infer_instance

/-! ## Boxing -/

section

variable {Q : Builder.Law} [Emit.Computing Q]

instance (r : Reg) : (isInt32 r).Obeys Q := by unfold isInt32; infer_instance
instance (r : Reg) : (isNumber r).Obeys Q := by unfold isNumber; infer_instance
instance (r : Reg) : (isCell r).Obeys Q := by unfold isCell; infer_instance
instance (r : Reg) : (isBoolean r).Obeys Q := by unfold isBoolean; infer_instance
instance (r : Reg) : (isOther r).Obeys Q := by unfold isOther; infer_instance
instance (r : Reg) : (isMisc r).Obeys Q := by unfold isMisc; infer_instance
instance (r : Reg) : (negated r).Obeys Q := by unfold negated; infer_instance
instance (r : Reg) : (boxInt32 r).Obeys Q := by unfold boxInt32; infer_instance
instance (r : Reg) : (boxBoolean r).Obeys Q := by unfold boxBoolean; infer_instance
instance (r : Reg) (impure : Bool) : (boxDouble r impure).Obeys Q := by
  unfold boxDouble
  infer_instance
instance (r : Reg) : (unboxDouble r).Obeys Q := by unfold unboxDouble; infer_instance

set_option synthInstance.maxSize 1000 in
instance (r : Reg) : (isNotInt52 r).Obeys Q := by unfold isNotInt52; infer_instance

end

section

variable [R.Computes]

instance (r : Reg) : Obeys R (cellTag r) := by unfold cellTag; infer_instance
instance (r : Reg) : Obeys R (isObjectTag r) := by unfold isObjectTag; infer_instance
instance (r : Reg) : Obeys R (isNotObjectTag r) := by unfold isNotObjectTag; infer_instance
instance (r : Reg) (t : CellType) : Obeys R (hasCellType r t) := by
  unfold hasCellType
  infer_instance

set_option synthInstance.maxSize 1000 in
instance (r : Reg) : Obeys R (isNotIdentString r) := by unfold isNotIdentString; infer_instance

instance (r : Reg) : Obeys R (isStringVar r) := by unfold isStringVar; infer_instance

set_option synthInstance.maxSize 1000 in
instance (value : Reg) : Obeys R (isNotRealNumber value) := by
  unfold isNotRealNumber
  infer_instance

instance (value : Reg) : Obeys R (isNotObjectOrOther value) := by
  unfold isNotObjectOrOther
  infer_instance

instance (id : NodeId) (boxed : Reg) : Obeys R (unboxNumber id boxed) := by
  unfold unboxNumber
  infer_instance

end

/-! ## Ends of blocks -/

instance [R.Codes] (kind : ExitKind) (profile : Option Reg) :
    Obeys R (exitHere kind profile) := by
  unfold exitHere
  infer_instance

instance : (onBuilders Builder.settling).Leaves where
  leaves kind := by
    have : Tidy (modify fun s : State => { s with
        stats.terminatedBlocks := s.stats.terminatedBlocks + 1, facts := s.facts.invalidate } :
          Lower Unit) := obeys_modify fun _ s => Builder.settling.refl s.builder
    unfold terminate
    infer_instance

/-! ## Checks -/

section

variable {id : NodeId} [R.Computes] [R.Leaves] [hN : R.Narrows id]

instance (mask : SpecType) (kind : ExitKind) (profile : Option Reg)
    (failing : Lower Reg) [Obeys R failing] : Obeys R (typeCheck id mask kind profile failing) := by
  refine .bind inferInstance fun known => .bind inferInstance fun s => ?_
  have narrow : Obeys R (do
      let s ← get
      let facts ← s.facts.filter (← read).graph id mask
      set { s with facts } : Lower Unit) := ⟨fun env s a s' h => by
    rw [get_bind, read_bind] at h
    obtain ⟨facts, hfacts, h⟩ := check_bind_ok h
    cases h
    exact hN.narrows hfacts⟩
  infer_instance

instance (value : Reg) (mask : SpecType) (failing : Lower Reg) [Obeys R failing] :
    Obeys R (typeCheckValue id value mask failing) :=
  inferInstanceAs (Obeys R (typeCheck _ _ _ _ _))

instance (value : Reg) : Obeys R (checkInt32 id value) := by
  unfold checkInt32
  infer_instance
instance (value : Reg) : Obeys R (checkCell id value) := by
  unfold checkCell
  infer_instance
instance (value : Reg) : Obeys R (checkBoolean id value) := by
  unfold checkBoolean
  infer_instance

instance (value : Reg) (mask : SpecType) (cellType : CellType) :
    Obeys R (checkCellType id value mask cellType) := by unfold checkCellType; infer_instance

end

instance [R.Computes] [R.Leaves] (e : Edge) (value : Reg) [R.Narrows e.node] :
    Obeys R (checkUse e value) := by
  unfold checkUse
  dsimp only
  split <;> infer_instance

/-! ## Machine forms -/

instance (e : Edge) (form : Form) : Obeys R (missingForm e form : Lower α) := by
  unfold missingForm
  infer_instance

instance [R.Computes] [R.Leaves] : Obeys R badConstant := by unfold badConstant; infer_instance

section

variable {id : NodeId} {e : Edge}

instance [hN : R.Notes id] (r : Reg) : Obeys R (record id .int32 r) := hN.notes r nofun nofun
instance [hN : R.Notes id] (r : Reg) : Obeys R (record id .int52 r) := hN.notes r nofun nofun
instance [hN : R.Notes id] (r : Reg) : Obeys R (record id .strictInt52 r) := hN.notes r nofun nofun
instance [hN : R.Notes id] (r : Reg) : Obeys R (record id .boolean r) := hN.notes r nofun nofun
instance [hN : R.Notes id] (r : Reg) : Obeys R (record id .double r) := hN.notes r nofun nofun

instance : Obeys R (asStorage e) := by
  refine .bind inferInstance fun held => ?_
  split <;> infer_instance

variable [R.Computes]

instance [hB : R.Boxes] (strict : Reg) : Obeys R (boxStrictInt52 id strict) := by
  have hcall : (Emit.call .boxInt52 [strict]).Obeys R.emitted := ⟨fun _ _ _ => hB.boxes⟩
  unfold boxStrictInt52 callHelper
  infer_instance

instance [R.Notes e.node] : Obeys R (asStrictInt52 e) := by
  refine .bind inferInstance fun strict => ?_
  split
  · infer_instance
  refine .bind inferInstance fun shifted => ?_
  split
  · infer_instance
  refine .bind inferInstance fun node => ?_
  split
  · infer_instance
  · infer_instance
  · refine .bind inferInstance fun narrow => ?_
    split <;> infer_instance

instance [R.Notes e.node] : Obeys R (asInt52 e) := by
  refine .bind inferInstance fun held => ?_
  split <;> infer_instance

instance [R.Boxes] [R.Notes id] : Obeys R (boxHeld id) := by
  have : Obeys R (asStrictInt52 { node := id }) := inferInstance
  refine .bind inferInstance fun int => ?_
  split
  · infer_instance
  refine .bind inferInstance fun boolean => ?_
  split
  · infer_instance
  refine .bind inferInstance fun double => ?_
  split <;> infer_instance

/-- A boxed value that is not held is recorded. -/
theorem obeys_boxedNode [R.Boxes] [R.Notes id] (h : ∀ r, Obeys R (record id .jsValue r)) :
    Obeys R (boxedNode id) := by
  refine .bind inferInstance fun held => ?_
  split
  · infer_instance
  · refine .bind inferInstance fun node => ?_
    split <;> infer_instance

instance [R.Boxes] [R.Records] : Obeys R (boxedNode id) := obeys_boxedNode fun _ => inferInstance

instance [R.Notes e.node] : Obeys R (doubleOf e) := by
  refine .bind inferInstance fun held => ?_
  split
  · infer_instance
  refine .bind inferInstance fun node => ?_
  split
  · infer_instance
  · infer_instance
  · split <;> infer_instance
  · refine .bind inferInstance fun narrow => ?_
    split <;> infer_instance

end

/-! ## The ways to read a use -/

/-- The law holds of the ways in which the use is read. -/
class Law.Reads (R : Law) (e : Edge) : Prop where
  value : Obeys R (asValue e)
  int32 : Obeys R (asInt32 e)
  int52 : Obeys R (asInt52 e)
  strictInt52 : Obeys R (asStrictInt52 e)
  double : Obeys R (asDouble e)
  boolean : Obeys R (asBoolean e)

attribute [instance] Law.Reads.value Law.Reads.int32 Law.Reads.int52 Law.Reads.strictInt52
  Law.Reads.double Law.Reads.boolean

/-- The law holds of the ways in which the uses of a node are read. -/
class Law.ReadsUses (R : Law) (node : Node) : Prop where
  reads : ∀ e ∈ node.children, R.Reads e

section

variable {e : Edge} {node : Node}

set_option synthInstance.maxSize 1000 in
instance [R.Computes] [R.Leaves] [R.Narrows e.node] [R.Notes e.node] [Obeys R (boxedNode e.node)] :
    R.Reads e where
  value := by
    unfold asValue
    infer_instance
  int32 := by
    refine .bind inferInstance fun held => ?_
    split
    · infer_instance
    · refine .bind inferInstance fun node => ?_
      split <;> infer_instance
  int52 := inferInstance
  strictInt52 := inferInstance
  double := by
    refine .bind inferInstance fun value => ?_
    split <;> infer_instance
  boolean := by
    refine .bind inferInstance fun held => ?_
    split
    · infer_instance
    · refine .bind inferInstance fun node => ?_
      split <;> infer_instance

instance [∀ e, R.Reads e] : R.ReadsUses node where
  reads _ _ := inferInstance

instance [hR : R.ReadsUses node] (e : {e // e ∈ node.children}) : R.Reads e.1 :=
  hR.reads e.1 e.2

variable [R.Reads e]

instance : Obeys R (asCell e) := by unfold asCell; infer_instance
instance : Obeys R (asStorageOrCell e) := by unfold asStorageOrCell; infer_instance

end

end SpecJit.Lowering
