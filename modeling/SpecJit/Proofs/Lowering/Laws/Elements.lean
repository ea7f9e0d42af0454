import SpecJit.Lowering.Node
import SpecJit.Proofs.Lowering.Laws.Operations

/-!
# What holds of elements, arrays and control

The routines for the elements of arrays, for arrays as objects, and for branches, phis and returns,
as `Law.Lowers` has those for the other operations. A store behind the end of an array makes blocks
of its own, so that a law has to hold of it separately (`Law.Appends`).
-/

namespace SpecJit.Lowering

open Lir

variable {α β : Type} {R : Law}

/-! ## Building steps -/

section

variable {Q : Builder.Law} [Emit.Computing Q]

instance (storage index : Reg) (shift : Nat) : (elementAddress storage index shift).Obeys Q := by
  unfold elementAddress
  infer_instance

instance (value : Reg) : (isEmptyWord value).Obeys Q := by unfold isEmptyWord; infer_instance

instance (value : Reg) : (isNaN value).Obeys Q := by unfold isNaN; infer_instance

instance (address : Reg) : (loadDouble address).Obeys Q := by unfold loadDouble; infer_instance

instance (butterfly index : Reg) (double : Bool) :
    (loadElement butterfly index double).Obeys Q := by
  unfold loadElement
  infer_instance

instance (value : Reg) (double : Bool) : (isHole value double).Obeys Q := by
  unfold isHole
  infer_instance

instance (value : Reg) : (clampInt32 value).Obeys Q := by unfold clampInt32; infer_instance

set_option synthInstance.maxSize 4000 in
instance (value : Reg) : (clampDouble value).Obeys Q := by unfold clampDouble; infer_instance

instance (arrayType : ArrayType) (value : Reg) : (boxElement arrayType value).Obeys Q := by
  unfold boxElement
  infer_instance

instance : (doubleHole).Obeys Q := by unfold doubleHole; infer_instance

instance (double : Bool) : (holeOf double).Obeys Q := by unfold holeOf; infer_instance

end

section

variable [R.Codes]

instance (arrayType : ArrayType) (butterfly index value : Reg) :
    (storeElement arrayType butterfly index value).Obeys R.emitted := by
  unfold storeElement
  infer_instance

/-! ## Elements -/

instance (index length : Reg) : Obeys R (checkInBounds index length) := by
  unfold checkInBounds
  infer_instance

instance (butterfly : Reg) : Obeys R (loadPublicLength butterfly) := by
  unfold loadPublicLength
  infer_instance

instance (butterfly : Reg) : Obeys R (loadVectorLength butterfly) := by
  unfold loadVectorLength
  infer_instance

instance (butterfly length : Reg) : Obeys R (storePublicLength butterfly length) := by
  unfold storePublicLength
  infer_instance

instance (arguments : Reg) : Obeys R (checkUnmapped arguments) := by
  unfold checkUnmapped
  infer_instance

instance (cell : Reg) (mode : ArrayMode) : Obeys R (arrayCheckFails cell mode) := by
  unfold arrayCheckFails
  split <;> infer_instance

instance (string : Reg) : Obeys R (flatString string) := by unfold flatString; infer_instance

instance (characters index eightBit : Reg) : Obeys R (loadCharacter characters index eightBit) := by
  unfold loadCharacter
  infer_instance

set_option synthInstance.maxSize 4000 in
instance (string index : Reg) : Obeys R (charCodeAt string index) := by
  unfold charCodeAt
  infer_instance

instance [R.Records] (id : NodeId) (value : Reg) (loaded : Loaded) :
    Obeys R (setElement id value loaded) := by
  refine .bind inferInstance fun _ => ?_
  split <;> infer_instance

instance (speculation : ArraySpeculation) (base index : Reg) :
    Obeys R (missedElement speculation base index) := by
  unfold missedElement
  infer_instance

instance (arguments index : Reg) : Obeys R (argumentAddress arguments index) := by
  unfold argumentAddress
  infer_instance

set_option synthInstance.maxSize 400 in
instance (id : NodeId) (kind : ElementKind) (vector index : Reg) :
    Obeys R (loadTypedElement id kind vector index) := by
  unfold loadTypedElement
  split <;> infer_instance

instance (arrayType : ArrayType) (value : NodeId) (cell : Reg) :
    Obeys R (elementBarrier arrayType value cell) := by
  unfold elementBarrier
  infer_instance

/-! ## Arrays -/

set_option synthInstance.maxSize 1000 in
instance (array butterfly length : Reg) (arrayType : ArrayType) :
    Obeys R (takeLast array butterfly length arrayType) := by
  unfold takeLast
  infer_instance

instance (base index : Reg) : Obeys R (askPresence base index) := by
  unfold askPresence
  infer_instance

instance (base butterfly index : Reg) (mode : ArrayMode) :
    Obeys R (presentInBounds base butterfly index mode) := by
  unfold presentInBounds
  infer_instance

instance (data : NewArrayData) : Obeys R (elementShape data) := by
  unfold elementShape
  infer_instance

instance (shape : ArrayType) (butterfly : Reg) (values : List Reg) :
    Obeys R (storeElements shape butterfly values) := by
  unfold storeElements
  infer_instance

set_option synthInstance.maxSize 4000 in
instance (data : NewArrayData) (length : Nat) : Obeys R (allocateArray data length) := by
  unfold allocateArray
  infer_instance

instance (shape : ArrayType) (element : FrozenValue) : Obeys R (elementConstant shape element) := by
  unfold elementConstant
  split
  · split <;> infer_instance
  · infer_instance

end

/-! ## Stores that may append -/

/-- The law holds of stores that may append an element. -/
class Law.Appends (R : Law) : Prop where
  appends : ∀ mode base butterfly index length value,
    Obeys R (storeOrAppend mode base butterfly index length value)

instance [hR : R.Appends] (mode : ArrayMode) (base butterfly index length value : Reg) :
    Obeys R (storeOrAppend mode base butterfly index length value) :=
  hR.appends mode base butterfly index length value

set_option synthInstance.maxSize 1000000 in
instance [R.Rebuilds] : R.Appends where
  appends _ _ _ _ _ _ := by
    unfold storeOrAppend
    infer_instance

instance (mode : ArrayMode) (base butterfly index length value : Reg) :
    Tidy (storeOrAppend mode base butterfly index length value) where
  obeys env s a s' h hw := by
    obtain ⟨inBounds, s₁, h₁, h⟩ := bind_ok h
    have e₁ := Tidy.after h₁ (.refl hw)
    obtain ⟨store, s₂, h₂, h⟩ := bind_ok h
    have e₂ := createBlock_after h₂ e₁
    obtain ⟨beyond, s₃, h₃, h⟩ := bind_ok h
    have e₃ := createBlock_after h₃ e₂
    obtain ⟨join, s₄, h₄, h⟩ := bind_ok h
    have e₄ := createBlock_after h₄ e₃
    obtain ⟨_, s₅, h₅, h⟩ := bind_ok h
    obtain ⟨e₅, c₅⟩ := terminate_after h₅ nofun e₄
    obtain ⟨_, _, harm, h⟩ := bind_ok h
    obtain ⟨s₉, h₉, rfl⟩ := inArm_ok harm
    -- in bounds
    obtain ⟨_, s₆, h₆, h₉⟩ := bind_ok h₉
    have e₆ := switchTo_after h₆ e₅ c₅ (by simp)
    obtain ⟨_, s₇, h₇, h₉⟩ := bind_ok h₉
    have e₇ := Tidy.after h₇ e₆
    obtain ⟨_, s₈, h₈, h₉⟩ := bind_ok h₉
    obtain ⟨e₈, c₈⟩ := terminate_after h₈ nofun e₇
    -- beyond the length
    obtain ⟨_, s₁₀, h₁₀, h₉⟩ := bind_ok h₉
    have e₁₀ := switchTo_after h₁₀ e₈ c₈ (by simp)
    obtain ⟨capacity, s₁₁, h₁₁, h₉⟩ := bind_ok h₉
    have e₁₁ := Tidy.after h₁₁ e₁₀
    obtain ⟨fits, s₁₂, h₁₂, h₉⟩ := bind_ok h₉
    have e₁₂ := Tidy.after h₁₂ e₁₁
    have hP : ((([] ++ [store] ++ [beyond] ++ [join]).erase store).erase beyond) = [join] := by simp
    rw [hP] at e₁₂
    obtain ⟨append, s₁₃, h₁₃, h₉⟩ := bind_ok h₉
    have e₁₃ := createBlock_after h₁₃ e₁₂
    obtain ⟨generic, s₁₄, h₁₄, h₉⟩ := bind_ok h₉
    have e₁₄ := createBlock_after h₁₄ e₁₃
    obtain ⟨_, s₁₅, h₁₅, h₉⟩ := bind_ok h₉
    obtain ⟨e₁₅, c₁₅⟩ := terminate_after h₁₅ nofun e₁₄
    obtain ⟨_, s₁₆, h₁₆, h₉⟩ := bind_ok h₉
    have e₁₆ := switchTo_after h₁₆ e₁₅ c₁₅ (by simp)
    obtain ⟨_, s₁₇, h₁₇, h₉⟩ := bind_ok h₉
    have e₁₇ := Tidy.after h₁₇ e₁₆
    obtain ⟨grown, s₁₈, h₁₈, h₉⟩ := bind_ok h₉
    have e₁₈ := Tidy.after h₁₈ e₁₇
    obtain ⟨_, s₁₉, h₁₉, h₉⟩ := bind_ok h₉
    have e₁₉ := Tidy.after h₁₉ e₁₈
    obtain ⟨_, s₂₀, h₂₀, h₉⟩ := bind_ok h₉
    obtain ⟨e₂₀, c₂₀⟩ := terminate_after h₂₀ nofun e₁₉
    have hgeneric : generic ∈ ([join] ++ [append] ++ [generic]).erase append := by
      have hne := (List.nodup_append.1 e₁₄.distinct).2.2 append (by simp) generic (by simp)
      exact (List.mem_erase_of_ne (Ne.symm hne)).2 (by simp)
    obtain ⟨_, s₂₁, h₂₁, h₉⟩ := bind_ok h₉
    have e₂₁ := switchTo_after h₂₁ e₂₀ c₂₀ hgeneric
    obtain ⟨boxedIndex, s₂₂, h₂₂, h₉⟩ := bind_ok h₉
    have e₂₂ := Tidy.after h₂₂ e₂₁
    obtain ⟨boxedValue, s₂₃, h₂₃, h₉⟩ := bind_ok h₉
    have e₂₃ := Tidy.after h₂₃ e₂₂
    obtain ⟨_, s₂₄, h₂₄, h₉⟩ := bind_ok h₉
    have e₂₄ := Tidy.after h₂₄ e₂₃
    obtain ⟨e₉, c₉⟩ := terminate_after h₉ nofun e₂₄
    have hrest : (([join] ++ [append] ++ [generic]).erase append).erase generic = [join] := by
      obtain ⟨hd, -, hg⟩ := List.nodup_append.1 e₁₄.distinct
      have hja : join ≠ append := by simpa using hd
      have hjg : join ≠ generic := hg join (by simp) generic (by simp)
      simp [hja, hjg]
    rw [hrest] at e₉
    have e := switchTo_after h e₉ c₉ (by simp)
    simpa using e

instance : (onBuilders Builder.settling).Appends where
  appends _ _ _ _ _ _ := inferInstance

instance {R' : Law} [R.Appends] [R'.Appends] : (R.and R').Appends where
  appends _ _ _ _ _ _ := inferInstance

/-! # Steps that read uses -/

section

variable {R' : Law} {node : Node} [R.Speculates] [R.ReadsUses node] [hR : R'.Lowers]

/-! ## Elements -/

set_option synthInstance.maxSize 400 in
instance : Staged R R' (lowerCheckInBounds node) := by
  unfold lowerCheckInBounds
  infer_instance

instance (base : Reg) (storage : Option Edge) : Obeys R' (butterflyOf base storage) := by
  unfold butterflyOf
  split <;> infer_instance

instance (mode : ArrayMode) : Staged R R' (lowerCheckArray node mode) := by
  unfold lowerCheckArray
  split <;> infer_instance

set_option synthInstance.maxSize 400 in
instance (id : NodeId) (mode : ArrayMode) :
    Staged R R' (lowerGetArrayLength id node mode) := by
  unfold lowerGetArrayLength
  split <;> infer_instance

instance (id : NodeId) (mode : ArrayMode) :
    Staged R R' (lowerGetIndexedPropertyStorage id node mode) := by
  unfold lowerGetIndexedPropertyStorage
  split <;> infer_instance

set_option synthInstance.maxSize 400 in
instance : Staged R R' (charAt node) := by unfold charAt; infer_instance

instance (id : NodeId) : Staged R R' (lowerStringCharAt id node) := by
  unfold lowerStringCharAt
  infer_instance

set_option synthInstance.maxSize 400 in
instance (id : NodeId) : Staged R R' (lowerStringCharCodeAt id node) := by
  unfold lowerStringCharCodeAt
  infer_instance

set_option synthInstance.maxSize 10000 in
instance (id : NodeId) (mode : ArrayMode) :
    Staged R R' (lowerGetButterflyElement id node mode) := by
  unfold lowerGetButterflyElement
  infer_instance

set_option synthInstance.maxSize 1000 in
instance (id : NodeId) : Staged R R' (lowerGetArgument id node) := by
  unfold lowerGetArgument
  infer_instance

set_option synthInstance.maxSize 1000 in
instance (id : NodeId) (kind : ElementKind) :
    Staged R R' (lowerGetTypedElement id node kind) := by
  unfold lowerGetTypedElement
  infer_instance

set_option synthInstance.maxSize 400 in
instance (id : NodeId) (mode : ArrayMode) : Staged R R' (lowerGetByVal id node mode) := by
  unfold lowerGetByVal
  split <;> infer_instance

set_option synthInstance.maxSize 400 in
instance (id : NodeId) : Staged R R' (lowerGetMyArgumentByVal id node) := by
  unfold lowerGetMyArgumentByVal
  split
  · infer_instance
  · rename_i e he
    have : R.Reads e := Law.ReadsUses.reads e (List.mem_of_getLast? he)
    infer_instance

instance (e : Edge) [R.Reads e] (kind : ElementKind) : Staged R R' (typedStoreValue e kind) := by
  unfold typedStoreValue
  split <;> infer_instance

set_option synthInstance.maxSize 10000 in
instance (mode : ArrayMode) (kind : ElementKind) :
    Staged R R' (lowerPutTypedElement node mode kind) := by
  unfold lowerPutTypedElement
  infer_instance

instance (e : Edge) [R.Reads e] (arrayType : ArrayType) :
    Obeys R (butterflyStoreValue e arrayType) := by
  unfold butterflyStoreValue
  split <;> infer_instance

set_option synthInstance.maxSize 1000 in
instance (mode : ArrayMode) [R'.Appends] :
    Staged R R' (lowerPutButterflyElement node mode) := by
  unfold lowerPutButterflyElement
  infer_instance

set_option synthInstance.maxSize 1000 in
instance : Staged R R' (lowerPutArgument node) := by
  unfold lowerPutArgument
  infer_instance

set_option synthInstance.maxSize 400 in
instance (mode : ArrayMode) [R'.Appends] : Staged R R' (lowerPutByVal node mode) := by
  unfold lowerPutByVal
  split <;> infer_instance

/-! ## Arrays -/

set_option synthInstance.maxSize 4000 in
instance (id : NodeId) (mode : ArrayMode) :
    Staged R R' (lowerArrayPush id node mode) := by
  unfold lowerArrayPush
  infer_instance

set_option synthInstance.maxSize 400 in
instance (id : NodeId) (mode : ArrayMode) : Staged R R' (lowerArrayPop id node mode) := by
  unfold lowerArrayPop
  infer_instance

set_option synthInstance.maxSize 1000 in
instance (id : NodeId) (mode : ArrayMode) :
    Staged R R' (lowerHasIndexedProperty id node mode) := by
  unfold lowerHasIndexedProperty
  split <;> infer_instance

instance (id : NodeId) (data : NewArrayData) :
    Staged R R' (lowerNewArray id node data) := by
  refine .bind inferInstance fun shape => .bind (.mapM fun e he => ?_) fun values => inferInstance
  have : R.Reads e := Law.ReadsUses.reads e he
  infer_instance

instance (id : NodeId) (data : NewArrayData) :
    Staged R R' (lowerNewArrayWithSize id node data) := by
  refine staged_child fun e he => ?_
  have : R.Reads e := Law.ReadsUses.reads e he
  refine .bind inferInstance fun env => .bind inferInstance fun user => .bind inferInstance
    fun length => ?_
  split <;> infer_instance

instance (id : NodeId) (data : NewArrayData) (elements : List FrozenValue) :
    Obeys R' (lowerNewArrayBuffer id data elements) := by
  unfold lowerNewArrayBuffer
  infer_instance

/-! ## Frame and control -/

instance (id : NodeId) (access : StackAccess) : Obeys R' (lowerGetStack id access) := by
  unfold lowerGetStack
  split <;> infer_instance

instance (access : StackAccess) : Staged R R' (lowerPutStack node access) := by
  unfold lowerPutStack
  split <;> infer_instance

instance : Obeys R' (lowerInvalidationPoint) := by unfold lowerInvalidationPoint; infer_instance

instance (address : Word) : Obeys R' (lowerCountExecution address) := by
  unfold lowerCountExecution
  infer_instance

instance (id : NodeId) : Obeys R' (lowerPhi id) := by
  refine .bind inferInstance fun _ => ?_
  split <;> infer_instance

instance (phi : NodeId) : Staged R R' (lowerUpsilon node phi) := by
  have (r : Reg) : Obeys R' (modify fun s => { s with
      upsilons := (phi, r) :: s.upsilons } : Lower Unit) :=
    obeys_modify fun env s => hR.upsilons env s phi r
  refine staged_child fun e he => ?_
  have : R.Reads e := Law.ReadsUses.reads e he
  refine .bind inferInstance fun target => ?_
  dsimp only
  split <;> infer_instance

instance (data : BranchData) : Staged R R' (lowerBranch node data) := by
  have (cond : Reg) (taken notTaken : BlockId) (args args' : List Reg) :
      (Emit.terminate (.branch cond taken args notTaken args' .normal)).Obeys R'.emitted :=
    Emit.obeys_terminate rfl
  refine .bind inferInstance fun env => .bind inferInstance fun s => .bind inferInstance
    fun known => ?_
  split <;> infer_instance

instance (helper : Helper) (arg : Reg) : Obeys R' (lowerThrow helper arg) := by
  unfold lowerThrow
  infer_instance

instance (id : NodeId) : Staged R R' (lowerTypedArrayByteOffset id node) := by
  unfold lowerTypedArrayByteOffset
  infer_instance

end

end SpecJit.Lowering
