import SpecJit.Proofs.Lowering.InStep.Operations

/-!
# Elements of two lowerings in step

The routines for elements and whole arrays, in the order of the operations.
-/

namespace SpecJit.Lowering

open Lir

variable {E : Setting} {Γ Δ : List Link}

section Elements

variable (id : NodeId) (node : Node) (mode : ArrayMode)

/-! ## Bounds and addresses -/

section

variable (r r' q q' : Reg) [Gives Γ (.reg r r')]

instance (storage : Option Edge) : Twins E Γ (butterflyOf r storage) (butterflyOf r' storage) := by
  unfold butterflyOf
  split <;> infer_instance

instance : Twins E Γ (loadPublicLength r) (loadPublicLength r') := by
  unfold loadPublicLength
  infer_instance
instance : Twins E Γ (loadVectorLength r) (loadVectorLength r') := by
  unfold loadVectorLength
  infer_instance
instance : Alike E Γ (checkUnmapped r) (checkUnmapped r') := by unfold checkUnmapped; infer_instance

variable [Gives Γ (.reg q q')]

instance : Alike E Γ (checkInBounds r q) (checkInBounds r' q') := by
  unfold checkInBounds
  infer_instance

instance (shift : Nat) : Emit.Twins Γ (elementAddress r q shift) (elementAddress r' q' shift) := by
  unfold elementAddress
  infer_instance

instance : Alike E Γ (storePublicLength r q) (storePublicLength r' q') := by
  unfold storePublicLength
  infer_instance

end

instance : Alike E Γ (lowerCheckInBounds node) (lowerCheckInBounds node) := by
  unfold lowerCheckInBounds
  infer_instance

/-! ## The check of an array mode -/

instance (cell cell' : Reg) [Gives Γ (.reg cell cell')] :
    Twins E Γ (arrayCheckFails cell mode) (arrayCheckFails cell' mode) := by
  unfold arrayCheckFails
  split
  · infer_instance
  · infer_instance
  · exact inStep_crash

instance : Alike E Γ (lowerCheckArray node mode) (lowerCheckArray node mode) := by
  refine .bind inferInstance fun e => ?_
  split <;> infer_instance

/-! ## Lengths and characters -/

section

variable (r r' q q' c c' : Reg) [Gives Γ (.reg r r')]

instance : Twins E Γ (flatString r) (flatString r') := by unfold flatString; infer_instance

variable [Gives Γ (.reg q q')]

instance [Gives Γ (.reg c c')] : Twins E Γ (loadCharacter r q c) (loadCharacter r' q' c') := by
  unfold loadCharacter
  infer_instance

set_option synthInstance.maxSize 50000 in
instance : Twins E Γ (charCodeAt r q) (charCodeAt r' q') := by unfold charCodeAt; infer_instance

end

instance : Alike E Γ (lowerGetArrayLength id node mode) (lowerGetArrayLength id node mode) := by
  refine .bind inferInstance fun _ => .bind inferInstance fun base => ?_
  split <;> infer_instance

instance :
    Alike E Γ (lowerGetIndexedPropertyStorage id node mode) (lowerGetIndexedPropertyStorage id node
      mode) := by
  refine .bind inferInstance fun _ => .bind inferInstance fun base => ?_
  split <;> infer_instance

set_option synthInstance.maxSize 50000 in
instance : Twins E Γ (charAt node) (charAt node) := by unfold charAt; infer_instance
instance : Alike E Γ (lowerStringCharAt id node) (lowerStringCharAt id node) := by
  unfold lowerStringCharAt
  infer_instance

instance : Alike E Γ (lowerStringCharCodeAt id node) (lowerStringCharCodeAt id node) := by
  unfold lowerStringCharCodeAt
  infer_instance

/-! ## Reading -/

section

variable (r r' q q' : Reg) [Gives Γ (.reg r r')]

instance (loaded : Loaded) : Alike E Γ (setElement id r loaded) (setElement id r' loaded) := by
  refine .bind inferInstance fun node => ?_
  split <;> infer_instance

instance : Emit.Twins Γ (isEmptyWord r) (isEmptyWord r') := by unfold isEmptyWord; infer_instance
instance : Emit.Twins Γ (isNaN r) (isNaN r') := by unfold isNaN; infer_instance
instance : Emit.Twins Γ (loadDouble r) (loadDouble r') := by unfold loadDouble; infer_instance
instance (double : Bool) : Emit.Twins Γ (isHole r double) (isHole r' double) := by
  unfold isHole
  infer_instance

variable [Gives Γ (.reg q q')]

instance (speculation : ArraySpeculation) :
    Twins E Γ (missedElement speculation r q) (missedElement speculation r' q') := by
  unfold missedElement
  infer_instance

instance (double : Bool) : Emit.Twins Γ (loadElement r q double) (loadElement r' q' double) := by
  unfold loadElement
  infer_instance
instance : Twins E Γ (argumentAddress r q) (argumentAddress r' q') := by
  unfold argumentAddress
  infer_instance

end

set_option synthInstance.maxSize 50000 in
instance :
    Alike E Γ (lowerGetButterflyElement id node mode) (lowerGetButterflyElement id node mode) := by
  unfold lowerGetButterflyElement
  infer_instance

set_option synthInstance.maxSize 50000 in
instance : Alike E Γ (lowerGetArgument id node) (lowerGetArgument id node) := by
  unfold lowerGetArgument
  infer_instance

/-- Steps that give registers which go together, loaded in the same form. -/
abbrev TwinLoads (E : Setting) (Γ : List Link) (x y : Lower (Reg × Loaded)) : Prop :=
  InStep E Γ x y (fun i : (Reg × Reg) × Loaded => (i.1.1, i.2)) (fun i => (i.1.2, i.2)) fun i =>
    [.reg i.1.1 i.1.2]

instance (r r' : Reg) (loaded : Loaded) [hr : Gives Γ (.reg r r')] :
    TwinLoads E Γ (pure (r, loaded) : Lower (Reg × Loaded)) (pure (r', loaded)) :=
  inStep_pure ((r, r'), loaded) rfl rfl fun hΓ => .one (hr.holds hΓ)

instance (kind : ElementKind) (vector index vector' index' : Reg) [Gives Γ (.reg vector vector')]
    [Gives Γ (.reg index index')] :
    TwinLoads E Γ (loadTypedElement id kind vector index)
      (loadTypedElement id kind vector' index') := by
  refine .bind inferInstance fun address => ?_
  split <;> infer_instance

set_option synthInstance.maxSize 50000 in
instance (kind : ElementKind) :
    Alike E Γ (lowerGetTypedElement id node kind) (lowerGetTypedElement id node kind) := by
  unfold lowerGetTypedElement
  infer_instance

instance : Alike E Γ (lowerGetByVal id node mode) (lowerGetByVal id node mode) := by
  unfold lowerGetByVal
  split <;> infer_instance

set_option synthInstance.maxSize 50000 in
instance : Alike E Γ (lowerGetMyArgumentByVal id node) (lowerGetMyArgumentByVal id node) := by
  unfold lowerGetMyArgumentByVal
  split <;> infer_instance

/-! ## Writing -/

section

variable (r r' : Reg) [Gives Γ (.reg r r')]

instance : Emit.Twins Γ (clampInt32 r) (clampInt32 r') := by unfold clampInt32; infer_instance

set_option synthInstance.maxSize 50000 in
instance : Emit.Twins Γ (clampDouble r) (clampDouble r') := by unfold clampDouble; infer_instance

end

instance (e : Edge) (kind : ElementKind) :
    Twins E Γ (typedStoreValue e kind) (typedStoreValue e kind) := by
  unfold typedStoreValue
  split
  · infer_instance
  · infer_instance
  · infer_instance
  · split
    · infer_instance
    · exact inStep_crash

set_option synthInstance.maxSize 50000 in
instance (kind : ElementKind) :
    Alike E Γ (lowerPutTypedElement node mode kind) (lowerPutTypedElement node mode kind) := by
  unfold lowerPutTypedElement
  infer_instance

instance (e : Edge) (arrayType : ArrayType) :
    Twins E Γ (butterflyStoreValue e arrayType) (butterflyStoreValue e arrayType) := by
  unfold butterflyStoreValue
  split <;> infer_instance

instance : Emit.Twins Γ doubleHole doubleHole := by unfold doubleHole; infer_instance
instance (double : Bool) : Emit.Twins Γ (holeOf double) (holeOf double) := by
  unfold holeOf
  infer_instance

section

variable (arrayType : ArrayType) (r r' q q' c c' d d' e e' : Reg) [Gives Γ (.reg r r')]

instance : Emit.Twins Γ (boxElement arrayType r) (boxElement arrayType r') := by
  unfold boxElement
  infer_instance
instance : Alike E Γ (elementBarrier arrayType id r) (elementBarrier arrayType id r') := by
  unfold elementBarrier
  infer_instance

variable [Gives Γ (.reg q q')] [Gives Γ (.reg c c')]

instance : Emit.Alike Γ (storeElement arrayType r q c) (storeElement arrayType r' q' c') := by
  unfold storeElement
  infer_instance

set_option synthInstance.maxSize 50000 in
instance : Twins E Γ (takeLast r q c arrayType) (takeLast r' q' c' arrayType) := by
  unfold takeLast
  infer_instance

set_option synthInstance.maxSize 50000 in
instance [Gives Γ (.reg d d')] [Gives Γ (.reg e e')] :
    Alike E Γ (storeOrAppend mode r q c d e) (storeOrAppend mode r' q' c' d' e') := by
  -- in pieces: the whole is too large for one search
  refine .bind inferInstance fun inBounds => .bind inferInstance fun store => .bind inferInstance
    fun beyond =>
    .bind inferInstance fun join => .bind inferInstance fun _ => inStep_then (inStep_inArm ?_)
      fun _ => inferInstance
  refine .bind inferInstance fun _ => .bind inferInstance fun _ => .bind inferInstance fun _ =>
    .bind inferInstance fun _ =>
    .bind inferInstance fun capacity => ?_
  infer_instance

end

set_option synthInstance.maxSize 50000 in
instance : Alike E Γ (lowerPutButterflyElement node mode) (lowerPutButterflyElement node mode) := by
  unfold lowerPutButterflyElement
  infer_instance

set_option synthInstance.maxSize 50000 in
instance : Alike E Γ (lowerPutArgument node) (lowerPutArgument node) := by
  unfold lowerPutArgument
  infer_instance

set_option synthInstance.maxSize 50000 in
instance : Alike E Γ (lowerPutByVal node mode) (lowerPutByVal node mode) := by
  unfold lowerPutByVal
  split <;> infer_instance

/-! ## Whole arrays -/

set_option synthInstance.maxSize 50000 in
instance : Alike E Γ (lowerArrayPush id node mode) (lowerArrayPush id node mode) := by
  unfold lowerArrayPush
  infer_instance

set_option synthInstance.maxSize 50000 in
instance : Alike E Γ (lowerArrayPop id node mode) (lowerArrayPop id node mode) := by
  unfold lowerArrayPop
  infer_instance

section

variable (base butterfly index base' butterfly' index' : Reg) [Gives Γ (.reg base base')]
  [Gives Γ (.reg index index')]

instance : Twins E Γ (askPresence base index) (askPresence base' index') := by
  unfold askPresence
  infer_instance

instance [Gives Γ (.reg butterfly butterfly')] :
    Twins E Γ (presentInBounds base butterfly index mode) (presentInBounds base' butterfly' index'
      mode) := by
  unfold presentInBounds
  infer_instance

end

set_option synthInstance.maxSize 50000 in
instance :
    Alike E Γ (lowerHasIndexedProperty id node mode) (lowerHasIndexedProperty id node mode) := by
  unfold lowerHasIndexedProperty
  split <;> infer_instance

/-- Registers that go together are used one by one, with their places. -/
theorem inStep_forM_zipIdx {f g : Reg × Nat → Lower Unit} {rs rs' : List Reg}
    (hrs : Gives Γ (.regs rs rs'))
    (hf : ∀ r r' i, Gives Γ (.reg r r') → Alike E Γ (f (r, i)) (g (r', i))) (n : Nat) :
    Alike E Γ ((rs.zipIdx n).forM f) ((rs'.zipIdx n).forM g) := by
  refine inStep_of_has fun hΓ => ?_
  have hall := hrs.holds hΓ
  clear hΓ
  induction hall generalizing n with
  | nil => exact inferInstanceAs (Alike E Γ (pure PUnit.unit : Lower PUnit) (pure PUnit.unit))
  | cons _ _ ih =>
    refine .bind (hf _ _ n hrs.head) fun _ => ?_
    exact ih hrs.tail (n + 1)

instance (shape : ArrayType) (butterfly butterfly' : Reg) (values values' : List Reg)
    [Gives Γ (.reg butterfly butterfly')] [hvalues : Gives Γ (.regs values values')] :
    Alike E Γ (storeElements shape butterfly values) (storeElements shape butterfly' values') :=
  inStep_forM_zipIdx hvalues (fun _ _ _ _ => inferInstance) 0

instance (data : NewArrayData) : Alike E Γ (elementShape data) (elementShape data) := by
  unfold elementShape
  infer_instance

set_option synthInstance.maxSize 50000 in
instance (data : NewArrayData) (length : Nat) :
    TwinPairs E Γ (allocateArray data length) (allocateArray data length) := by
  unfold allocateArray
  infer_instance

instance (data : NewArrayData) :
    Alike E Γ (lowerNewArray id node data) (lowerNewArray id node data) := by
  refine .bind inferInstance fun shape => .bind inferInstance fun values =>
    inStep_of_has fun hΓ => ?_
  rw [(List.Forall₂.length_eq (hΓ (.regs values.1 values.2) (by simp)) :)]
  infer_instance

instance (data : NewArrayData) :
    Alike E Γ (lowerNewArrayWithSize id node data) (lowerNewArrayWithSize id node data) := by
  refine .bind inferInstance fun e =>
    inStep_read (.bind inferInstance fun size => .bind inferInstance fun length => ?_)
  dsimp only [Setting.leftEnv, Setting.rightEnv, Env.inMode]
  generalize (constantLength? size.op).filter _ = constant
  cases constant <;> infer_instance

instance (shape : ArrayType) (element : FrozenValue) :
    Twins E Γ (elementConstant shape element) (elementConstant shape element) := by
  unfold elementConstant
  split
  · split
    · infer_instance
    · exact inStep_crash
  · infer_instance

instance (data : NewArrayData) (elements : List FrozenValue) :
    Alike E Γ (lowerNewArrayBuffer id data elements) (lowerNewArrayBuffer id data elements) := by
  unfold lowerNewArrayBuffer
  infer_instance

end Elements

end SpecJit.Lowering
