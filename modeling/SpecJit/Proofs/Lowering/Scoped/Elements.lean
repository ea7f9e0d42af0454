import SpecJit.Proofs.Lowering.Scoped.Operations

/-!
# Elements, arrays and the frame keep to the scoping

An element is loaded in a form of its own and recorded in the form that the node declares
(`Loaded.recorded`), which is where the declared result counts.
-/

namespace SpecJit.Lowering

open Lir

variable {α β : Type} {strict : Bool} {env : Env} {Γ Δ : List Fact}

section Elements

variable (id : NodeId) (node : Node)

/-! ## Bounds and lengths -/

instance (index length : Reg) [Known Γ index .i32] [Known Γ length .i32] :
    Scoped strict env Γ (checkInBounds index length) fun _ => [] := by
  unfold checkInBounds
  infer_instance

instance : Scoped strict env Γ (lowerCheckInBounds node) fun _ => [] := by
  unfold lowerCheckInBounds
  infer_instance

instance (storage index : Reg) (shift : Nat) [Known Γ storage .i64] [Known Γ index .i32] :
    (elementAddress storage index shift).Scoped strict Γ fun r => [.reg r .i64] := by
  unfold elementAddress
  infer_instance

instance (base : Reg) (storage : Option Edge) [Known Γ base .i64] :
    Scoped strict env Γ (butterflyOf base storage) fun r => [.reg r .i64] := by
  unfold butterflyOf
  split <;> infer_instance

section Cells

variable (cell : Reg) [Known Γ cell .i64]

instance : Scoped strict env Γ (loadPublicLength cell) fun r => [.reg r .i32] := by
  unfold loadPublicLength
  infer_instance
instance : Scoped strict env Γ (loadVectorLength cell) fun r => [.reg r .i32] := by
  unfold loadVectorLength
  infer_instance

instance (length : Reg) [Known Γ length .i32] :
    Scoped strict env Γ (storePublicLength cell length) fun _ => [] := by
  unfold storePublicLength
  infer_instance

instance : Scoped strict env Γ (checkUnmapped cell) fun _ => [] := by
  unfold checkUnmapped
  infer_instance

instance (mode : ArrayMode) :
    Scoped strict env Γ (arrayCheckFails cell mode) fun r => [.reg r .i32] := by
  unfold arrayCheckFails
  split
  · infer_instance
  · infer_instance
  · exact scoped_crash

instance : Scoped strict env Γ (flatString cell) fun r => [.reg r .i64] := by
  unfold flatString
  infer_instance

end Cells

instance (mode : ArrayMode) : Scoped strict env Γ (lowerCheckArray node mode) fun _ => [] := by
  unfold lowerCheckArray
  split <;> infer_instance

set_option synthInstance.maxSize 50000 in
instance (mode : ArrayMode) [Fits strict env id .i32] :
    Scoped strict env Γ (lowerGetArrayLength id node mode) fun _ => [] := by
  unfold lowerGetArrayLength
  split <;> infer_instance

instance (mode : ArrayMode) [Fits strict env id .i64] :
    Scoped strict env Γ (lowerGetIndexedPropertyStorage id node mode) fun _ => [] := by
  unfold lowerGetIndexedPropertyStorage
  split <;> infer_instance

/-! ## Characters -/

instance (characters index eightBit : Reg) [Known Γ characters .i64] [Known Γ index .i32]
    [Known Γ eightBit .i32] :
    Scoped strict env Γ (loadCharacter characters index eightBit) fun r => [.reg r .i32] := by
  unfold loadCharacter
  infer_instance

set_option synthInstance.maxSize 50000 in
instance (string index : Reg) [Known Γ string .i64] [Known Γ index .i32] :
    Scoped strict env Γ (charCodeAt string index) fun r => [.reg r .i32] := by
  unfold charCodeAt
  infer_instance

instance : Scoped strict env Γ (charAt node) fun r => [.reg r .i64] := by
  unfold charAt
  infer_instance

instance [Fits strict env id .i64] :
    Scoped strict env Γ (lowerStringCharAt id node) fun _ => [] := by
  unfold lowerStringCharAt
  infer_instance

instance [Fits strict env id .i32] :
    Scoped strict env Γ (lowerStringCharCodeAt id node) fun _ => [] := by
  unfold lowerStringCharCodeAt
  infer_instance

/-! ## Reading -/

/-- The type of a loaded element. -/
@[reducible] def Loaded.ty : Loaded → Ty
  | .boxed => .i64
  | .double => .f64
  | .int32 => .i32

/-- The type of the register that a loaded element is recorded in. A boxed element is unboxed for an
int32 result only. -/
def Loaded.recorded : Loaded → NodeResult → Ty
  | .boxed, .int32 | .int32, .int32 => .i32
  | .double, .double | .int32, .double => .f64
  | _, _ => .i64

theorem scoped_setElement {value : Reg} {loaded : Loaded} {id : NodeId} {node : Node}
    [Known Γ value loaded.ty] [hn : Named env id node]
    [hf : Fits strict env id (loaded.recorded node.result)] :
    Scoped strict env Γ (setElement id value loaded) fun _ => [] := by
  refine scoped_getNode fun node' hn' => ?_
  rw [hn.unique hn']
  generalize node.result = result at hf
  cases loaded <;> cases result <;> (simp only [Loaded.recorded] at hf; infer_instance)

instance (value : Reg) [Known Γ value .i64] [Named env id node]
    [Fits strict env id (Loaded.boxed.recorded node.result)] :
    Scoped strict env Γ (setElement id value .boxed) fun _ => [] := scoped_setElement

instance (value : Reg) [Known Γ value .f64] [Named env id node]
    [Fits strict env id (Loaded.double.recorded node.result)] :
    Scoped strict env Γ (setElement id value .double) fun _ => [] := scoped_setElement

instance (speculation : ArraySpeculation) (base index : Reg) [Known Γ base .i64]
    [Known Γ index .i32] :
    Scoped strict env Γ (missedElement speculation base index) fun r => [.reg r .i64] := by
  unfold missedElement
  infer_instance

instance (value : Reg) [Known Γ value .i64] :
    (isEmptyWord value).Scoped strict Γ fun r => [.reg r .i32] := by
  unfold isEmptyWord
  infer_instance

instance (value : Reg) [Known Γ value .f64] :
    (isNaN value).Scoped strict Γ fun r => [.reg r .i32] := by
  unfold isNaN
  infer_instance

instance (address : Reg) [Known Γ address .i64] :
    (loadDouble address).Scoped strict Γ fun r => [.reg r .f64] := by
  unfold loadDouble
  infer_instance

section Holes

variable (butterfly index value : Reg) [Known Γ butterfly .i64] [Known Γ index .i32]

instance : (loadElement butterfly index true).Scoped strict Γ fun r => [.reg r .f64] := by
  simp only [loadElement, if_true]
  infer_instance

instance : (loadElement butterfly index false).Scoped strict Γ fun r => [.reg r .i64] := by
  simp only [loadElement, if_false, Bool.false_eq_true]
  infer_instance

instance [Known Γ value .f64] : (isHole value true).Scoped strict Γ fun r => [.reg r .i32] :=
  inferInstanceAs ((isNaN value).Scoped strict Γ _)

instance [Known Γ value .i64] : (isHole value false).Scoped strict Γ fun r => [.reg r .i32] :=
  inferInstanceAs ((isEmptyWord value).Scoped strict Γ _)

end Holes

/-- How an element of a butterfly is loaded: a double that is in bounds as it is, and boxed
otherwise. -/
def butterflyLoaded (mode : ArrayMode) : Loaded :=
  if mode.speculation = .inBounds ∧ mode.arrayType = .double then .double else .boxed

set_option synthInstance.maxSize 50000 in
instance (mode : ArrayMode) [Named env id node]
    [hf : Fits strict env id ((butterflyLoaded mode).recorded node.result)] :
    Scoped strict env Γ (lowerGetButterflyElement id node mode) fun _ => [] := by
  unfold lowerGetButterflyElement
  by_cases hd : mode.arrayType = .double
  · by_cases hb : mode.speculation = .inBounds
    · rw [butterflyLoaded, if_pos ⟨hb, hd⟩] at hf
      simp only [hd, hb, beq_self_eq_true, if_true]
      infer_instance
    · rw [butterflyLoaded, if_neg fun h => hb h.1] at hf
      simp only [hd, hb, beq_self_eq_true, if_true, if_false]
      infer_instance
  · rw [butterflyLoaded, if_neg fun h => hd h.2] at hf
    have hne : (mode.arrayType == .double) = false := by simpa using hd
    simp only [hne, Bool.false_eq_true, if_false]
    infer_instance

instance (arguments index : Reg) [Known Γ arguments .i64] [Known Γ index .i32] :
    Scoped strict env Γ (argumentAddress arguments index) fun r => [.reg r .i64] := by
  unfold argumentAddress
  infer_instance

set_option synthInstance.maxSize 50000 in
instance [Named env id node] [Fits strict env id (Loaded.boxed.recorded node.result)] :
    Scoped strict env Γ (lowerGetArgument id node) fun _ => [] := by
  unfold lowerGetArgument
  infer_instance

/-- How an element of a typed array is loaded. -/
def typedLoaded (kind : ElementKind) (result : NodeResult) : Loaded :=
  match kind with
  | .float32 | .float64 => .double
  | .uint32 => if result == .int32 then .int32 else .double
  | _ => .int32

theorem loadTypedElement_loaded {kind : ElementKind} {vector index : Reg} {id : NodeId}
    {node : Node} {s s' : State} {p : Reg × Loaded} (hn : Named env id node)
    (h : loadTypedElement id kind vector index env s = .ok (p, s')) :
    p.2 = typedLoaded kind node.result := by
  obtain ⟨address, s₁, -, h⟩ := bind_ok h
  split at h
  · obtain ⟨r, s₂, -, h⟩ := bind_ok h
    cases h
    rfl
  · obtain ⟨r, s₂, -, h⟩ := bind_ok h
    cases h
    rfl
  · obtain ⟨raw, s₂, -, h⟩ := bind_ok h
    obtain ⟨node', hn', h⟩ := getNode_bind_ok h
    rw [hn.unique ⟨hn'⟩] at h
    split at h
    · rename_i hr
      obtain ⟨r, s₃, -, h⟩ := bind_ok h
      obtain ⟨_, s₄, -, h⟩ := bind_ok h
      cases h
      simp [typedLoaded, hr]
    · rename_i hr
      obtain ⟨r, s₃, -, h⟩ := bind_ok h
      cases h
      simp [typedLoaded, hr]
  · obtain ⟨r, s₂, -, h⟩ := bind_ok h
    cases h
    cases kind <;> first | rfl | contradiction

instance (kind : ElementKind) (vector index : Reg) [hn : Named env id node] [Known Γ vector .i64]
    [Known Γ index .i32] :
    Scoped strict env Γ (loadTypedElement id kind vector index) fun p =>
      [.reg p.1 (typedLoaded kind node.result).ty] := by
  have hpair (r : Reg) (loaded : Loaded) {ty : Ty} (Γ : List Fact) [hr : Known Γ r ty] :
      Scoped strict env Γ (pure (r, loaded) : Lower (Reg × Loaded)) fun p => [.reg p.1 ty] :=
    scoped_pure fun hΓ => .cons (hr.holds hΓ) .nil
  have hload (ty : Ty) (width : MemWidth) (signed : Bool) (loaded : Loaded) (address : Reg)
    (Γ : List Fact) [Known Γ address .i64]
      (h : ty = width.registerType) : Scoped strict env Γ
        (do return (← Emit.load ty width signed address 0, loaded) : Lower (Reg × Loaded)) fun p =>
          [.reg p.1 ty] := by
    have : (Emit.load ty width signed address 0).Scoped strict Γ fun r => [.reg r ty] :=
      Emit.scoped_load h
    infer_instance
  refine .bind inferInstance fun address => ?_
  cases kind with
  | float32 | float64 => exact hload .f64 _ _ _ address _ rfl
  | uint32 =>
    refine .bind inferInstance fun raw => scoped_getNode fun node' hn' => ?_
    rw [hn.unique hn']
    by_cases hr : (node.result == .int32) = true
    · simp only [typedLoaded, hr, if_true]
      infer_instance
    · simp only [typedLoaded, hr, if_false, Bool.false_eq_true]
      infer_instance
  | int8 | uint8 | uint8Clamped | int16 | uint16 | int32 => exact hload .i32 _ _ _ address _ rfl

instance (kind : ElementKind) [hn : Named env id node]
    [Fits strict env id ((typedLoaded kind node.result).recorded node.result)] :
    Scoped strict env Γ (lowerGetTypedElement id node kind) fun _ => [] := by
  refine .bind inferInstance fun e => .bind inferInstance fun view => .bind inferInstance fun e' =>
    .bind inferInstance fun index => .bind inferInstance fun length => .bind inferInstance fun _ =>
    .bind inferInstance fun vector => .bind_result inferInstance fun p s s' h => ?_
  have hloaded := loadTypedElement_loaded hn h
  obtain ⟨value, loaded⟩ := p
  subst hloaded
  exact scoped_setElement

/-- How `lowerGetByVal` loads an element; a character is a string, which is recorded as it is. -/
def elementType (mode : ArrayMode) (result : NodeResult) : Option Ty :=
  match mode.arrayType with
  | .int32 | .contiguous | .double => some ((butterflyLoaded mode).recorded result)
  | .string => some .i64
  | .directArguments | .scopedArguments | .generic => some (Loaded.boxed.recorded result)
  | .typedArray kind => some ((typedLoaded kind result).recorded result)
  | .forceExit => none

theorem scoped_lowerGetByVal {mode : ArrayMode} {id : NodeId} {node : Node} [Named env id node]
    (hf : ∀ ty, elementType mode node.result = some ty → Fits strict env id ty) :
    Scoped strict env Γ (lowerGetByVal id node mode) fun _ => [] := by
  unfold lowerGetByVal
  cases hm : mode.arrayType <;> simp only [elementType, hm] at hf ⊢
  case forceExit => infer_instance
  all_goals
    have := hf _ rfl
    infer_instance

set_option synthInstance.maxSize 50000 in
instance [Fits strict env id .i64] :
    Scoped strict env Γ (lowerGetMyArgumentByVal id node) fun _ => [] := by
  unfold lowerGetMyArgumentByVal
  split <;> infer_instance

/-! ## Writing -/

instance (value : Reg) [Known Γ value .i32] :
    (clampInt32 value).Scoped strict Γ fun r => [.reg r .i32] := by
  unfold clampInt32
  infer_instance

set_option synthInstance.maxSize 50000 in
instance (value : Reg) [Known Γ value .f64] :
    (clampDouble value).Scoped strict Γ fun r => [.reg r .i32] := by
  unfold clampDouble
  infer_instance

theorem registerType_of_isFloat {kind : ElementKind} (h : kind.isFloat = true) :
    kind.width.registerType = .f64 := by
  cases kind <;> first | rfl | cases h

theorem registerType_of_not_isFloat {kind : ElementKind} (h : ¬ kind.isFloat = true) :
    kind.width.registerType = .i32 := by
  cases kind <;> first | rfl | exact absurd rfl h

instance (e : Edge) (kind : ElementKind) :
    Scoped strict env Γ (typedStoreValue e kind) fun r => [.reg r kind.width.registerType] := by
  unfold typedStoreValue
  by_cases hk : kind.isFloat = true
  · rw [registerType_of_isFloat hk]
    simp only [hk, if_true]
    split
    · infer_instance
    · infer_instance
    · infer_instance
    · split
      · infer_instance
      · exact scoped_crash
  · rw [registerType_of_not_isFloat hk]
    simp only [hk, if_false, Bool.false_eq_true]
    split
    · infer_instance
    · infer_instance
    · infer_instance
    · split
      · infer_instance
      · exact scoped_crash

set_option synthInstance.maxSize 50000 in
instance (mode : ArrayMode) (kind : ElementKind) :
    Scoped strict env Γ (lowerPutTypedElement node mode kind) fun _ => [] := by
  unfold lowerPutTypedElement
  infer_instance

instance (e : Edge) (arrayType : ArrayType) :
    Scoped strict env Γ (butterflyStoreValue e arrayType) fun r =>
      [.reg r (elementWidth arrayType).registerType] := by
  unfold butterflyStoreValue
  split
  · exact inferInstanceAs (Scoped strict env Γ _ fun r => [.reg r .i64])
  · exact inferInstanceAs (Scoped strict env Γ _ fun r => [.reg r .f64])
  · rename_i hd
    rw [elementWidth, if_neg hd]
    exact inferInstanceAs (Scoped strict env Γ _ fun r => [.reg r .i64])

section Stores

variable (arrayType : ArrayType) (butterfly index value : Reg)
  [hv : Known Γ value (elementWidth arrayType).registerType]

instance [Known Γ butterfly .i64] [Known Γ index .i32] :
    (storeElement arrayType butterfly index value).Scoped strict Γ fun _ => [] := by
  unfold storeElement
  infer_instance

instance : (boxElement arrayType value).Scoped strict Γ fun r => [.reg r .i64] := by
  unfold boxElement
  unfold elementWidth at hv
  by_cases hd : arrayType = .double
  · rw [if_pos hd] at hv ⊢
    have : Known Γ value .f64 := hv
    infer_instance
  · rw [if_neg hd] at hv ⊢
    have : Known Γ value .i64 := hv
    infer_instance

end Stores

instance (arrayType : ArrayType) (value : NodeId) (cell : Reg) [Known Γ cell .i64] :
    Scoped strict env Γ (elementBarrier arrayType value cell) fun _ => [] := by
  unfold elementBarrier
  infer_instance

instance (mode : ArrayMode) (base butterfly index length value : Reg) [Known Γ base .i64]
    [Known Γ butterfly .i64] [Known Γ index .i32] [Known Γ length .i32]
    [hv : Known Γ value (elementWidth mode.arrayType).registerType] :
    Scoped strict env Γ (storeOrAppend mode base butterfly index length value) fun _ => [] := by
  refine .bind inferInstance fun inBounds => ⟨fun S s a s' hs hΓ h => ?_⟩
  obtain ⟨store, s₁, h₁, h⟩ := bind_ok h
  obtain ⟨S₁, d₁, hΓ₁⟩ := (Detour.start hs).createBlock hΓ h₁
  obtain ⟨beyond, s₂, h₂, h⟩ := bind_ok h
  obtain ⟨S₂, d₂, hΓ₂⟩ := d₁.createBlock hΓ₁ h₂
  obtain ⟨join, s₃, h₃, h⟩ := bind_ok h
  obtain ⟨S₃, d₃, hΓ₃⟩ := d₂.createBlock hΓ₂ h₃
  obtain ⟨_, s₄, h₄, h⟩ := bind_ok h
  obtain ⟨S₄, d₄, -⟩ := d₃.quiet (Γ := .leads [store] [] :: .leads [beyond] [] :: _) hs
    (.cons (d₃.leads (p := ⟨store, []⟩) (by simp)) (.cons (d₃.leads (p := ⟨beyond, []⟩) (by simp))
      hΓ₃)) h₄
  obtain ⟨_, s₂₂, h₂₂, h⟩ := bind_ok h
  obtain ⟨s₂₁, harm, rfl⟩ := inArm_ok h₂₂
  obtain ⟨_, s₅, h₅, harm⟩ := bind_ok harm
  obtain ⟨d₅, -⟩ := d₄.enter.switchTo (p := ⟨store, []⟩) (by simp) h₅
  obtain ⟨_, s₆, h₆, harm⟩ := bind_ok harm
  obtain ⟨S₆, d₆, -⟩ := d₅.step hs (d₅.hold hΓ) h₆
  obtain ⟨_, s₇, h₇, harm⟩ := bind_ok harm
  obtain ⟨S₇, d₇, -⟩ :=
    d₆.step (Γ := [.leads [join] []]) hs (.cons (d₆.leads (p := ⟨join, []⟩) (by simp)) .nil) h₇
  obtain ⟨_, s₈, h₈, harm⟩ := bind_ok harm
  obtain ⟨d₈, -⟩ := d₇.switchTo (p := ⟨beyond, []⟩) (by simp) h₈
  obtain ⟨capacity, s₉, h₉, harm⟩ := bind_ok harm
  obtain ⟨S₉, d₉, hΓ₉⟩ := d₈.step (Γ := .leads [join] [] :: _) hs
    (.cons (d₈.leads (p := ⟨join, []⟩) (by simp)) (d₈.hold hΓ)) h₉
  obtain ⟨fits, s₁₀, h₁₀, harm⟩ := bind_ok harm
  obtain ⟨S₁₀, d₁₀, hΓ₁₀⟩ := d₉.step hs hΓ₉ h₁₀
  -- a detour of its own, from behind the second comparison
  have hs₁₀ := d₁₀.consistent hs
  have ha : s₁₀.armDepth + 0 ≠ 0 := by rw [d₁₀.armDepth]; omega
  obtain ⟨append, s₁₁, h₁₁, harm⟩ := bind_ok harm
  obtain ⟨S₁₁, d₁₁, hΓ₁₁⟩ := (Detour.start hs₁₀).createBlock hΓ₁₀ h₁₁
  obtain ⟨generic, s₁₂, h₁₂, harm⟩ := bind_ok harm
  obtain ⟨S₁₂, d₁₂, hΓ₁₂⟩ := d₁₁.createBlock hΓ₁₁ h₁₂
  obtain ⟨_, s₁₃, h₁₃, harm⟩ := bind_ok harm
  obtain ⟨S₁₃, d₁₃, -⟩ := d₁₂.quiet (Γ := .leads [append] [] :: .leads [generic] [] :: _) hs₁₀
    (.cons (d₁₂.leads (p := ⟨append, []⟩) (by simp))
      (.cons (d₁₂.leads (p := ⟨generic, []⟩) (by simp)) hΓ₁₂)) h₁₃
  obtain ⟨_, s₁₄, h₁₄, harm⟩ := bind_ok harm
  obtain ⟨d₁₄, -⟩ := d₁₃.switchTo (p := ⟨append, []⟩) (by simp) h₁₄
  obtain ⟨_, s₁₅, h₁₅, harm⟩ := bind_ok harm
  obtain ⟨S₁₅, d₁₅, hΓ₁₅⟩ := d₁₄.step hs₁₀ (d₁₄.hold hΓ₁₀) h₁₅ ha
  obtain ⟨grown, s₁₆, h₁₆, harm⟩ := bind_ok harm
  obtain ⟨S₁₆, d₁₆, hΓ₁₆⟩ := d₁₅.step hs₁₀ hΓ₁₅ h₁₆ ha
  obtain ⟨_, s₁₇, h₁₇, harm⟩ := bind_ok harm
  obtain ⟨S₁₇, d₁₇, hΓ₁₇⟩ := d₁₆.step hs₁₀ hΓ₁₆ h₁₇ ha
  obtain ⟨_, s₁₈, h₁₈, harm⟩ := bind_ok harm
  obtain ⟨S₁₈, d₁₈, -⟩ := d₁₇.step hs₁₀ hΓ₁₇ h₁₈ ha
  obtain ⟨_, s₂₀, h₂₀, harm⟩ := bind_ok harm
  obtain ⟨d₂₀, -⟩ := d₁₈.switchTo (p := ⟨generic, []⟩) (by simp) h₂₀
  obtain ⟨S₂₁, d₂₁, -⟩ := d₂₀.step hs₁₀ (d₂₀.hold hΓ₁₀) harm ha
  obtain ⟨d₂₂, -⟩ := (d₁₀.follow d₂₁.follows (by omega)).leave.switchTo (p := ⟨join, []⟩) (by simp)
    h
  exact ⟨S₂₁, d₂₂.follows, d₂₂.consistent hs, .nil⟩

set_option synthInstance.maxSize 50000 in
instance (mode : ArrayMode) :
    Scoped strict env Γ (lowerPutButterflyElement node mode) fun _ => [] := by
  unfold lowerPutButterflyElement
  infer_instance

set_option synthInstance.maxSize 50000 in
instance : Scoped strict env Γ (lowerPutArgument node) fun _ => [] := by
  unfold lowerPutArgument
  infer_instance

set_option synthInstance.maxSize 50000 in
instance (mode : ArrayMode) : Scoped strict env Γ (lowerPutByVal node mode) fun _ => [] := by
  unfold lowerPutByVal
  split <;> infer_instance

/-! ## Arrays -/

set_option synthInstance.maxSize 50000 in
instance (mode : ArrayMode) [Fits strict env id .i64] :
    Scoped strict env Γ (lowerArrayPush id node mode) fun _ => [] := by
  unfold lowerArrayPush
  infer_instance

instance : doubleHole.Scoped strict Γ fun r => [.reg r .f64] := by unfold doubleHole; infer_instance

/-- A type that goes with the elements of an array, checked for doubles and for words. -/
theorem elementType_cases {P : Bool → Ty → Prop} (arrayType : ArrayType) (hdouble : P true .f64)
    (hword : P false .i64) :
    P (arrayType == .double) (elementWidth arrayType).registerType := by
  unfold elementWidth
  by_cases hd : arrayType = .double
  · rwa [if_pos hd, beq_iff_eq.2 hd]
  · rwa [if_neg hd, beq_eq_false_iff_ne.2 hd]

section Shapes

variable (arrayType : ArrayType) (butterfly index value : Reg)

instance :
    (holeOf (arrayType == .double)).Scoped strict Γ fun r =>
      [.reg r (elementWidth arrayType).registerType] :=
  elementType_cases (P := fun double ty => (holeOf double).Scoped strict Γ fun r => [.reg r ty])
    arrayType
    (inferInstanceAs (doubleHole.Scoped strict Γ _))
      (inferInstanceAs ((Emit.word _).Scoped strict Γ _))

instance [Known Γ butterfly .i64] [Known Γ index .i32] :
    (loadElement butterfly index (arrayType == .double)).Scoped strict Γ
    fun r => [.reg r (elementWidth arrayType).registerType] :=
  elementType_cases (P := fun double ty => (loadElement butterfly index double).Scoped strict Γ
    fun r => [.reg r ty]) arrayType
    inferInstance inferInstance

instance [h : Known Γ value (elementWidth arrayType).registerType] :
    (isHole value (arrayType == .double)).Scoped strict Γ
    fun r => [.reg r .i32] :=
  elementType_cases (P := fun double ty => Known Γ value ty → (isHole value double).Scoped strict Γ
    fun r => [.reg r .i32])
    arrayType (fun _ => inferInstance) (fun _ => inferInstance) h

end Shapes

set_option synthInstance.maxSize 50000 in
instance (array butterfly length : Reg) (arrayType : ArrayType) [Known Γ array .i64]
    [Known Γ butterfly .i64] [Known Γ length .i32] :
    Scoped strict env Γ (takeLast array butterfly length arrayType) fun r => [.reg r .i64] := by
  refine .bind inferInstance fun last => .bind inferInstance fun address => ?_
  have htake (value : Reg) : Scoped strict env
    ([.reg value (elementWidth arrayType).registerType] ++
      ([.reg address .i64] ++ ([.reg last .i32] ++ Γ))) (do
        let hole ← isHole value (arrayType == .double)
        diamond .i64 hole .takenRare (callHelper .arrayPop [array]) do
          Emit.store (elementWidth arrayType) (← holeOf (arrayType == .double)) address 0
          storePublicLength butterfly last
          boxElement arrayType value : Lower Reg) fun r => [.reg r .i64] := inferInstance
  by_cases hd : arrayType = .double
  · have hty : (elementWidth arrayType).registerType = .f64 := by rw [elementWidth, if_pos hd]; rfl
    rw [hty] at htake
    rw [if_pos (beq_iff_eq.2 hd)]
    exact .bind inferInstance htake
  · have hty : (elementWidth arrayType).registerType = .i64 := by rw [elementWidth, if_neg hd]; rfl
    rw [hty] at htake
    rw [if_neg (mt beq_iff_eq.1 hd)]
    exact .bind inferInstance htake

set_option synthInstance.maxSize 50000 in
instance (mode : ArrayMode) [Fits strict env id .i64] :
    Scoped strict env Γ (lowerArrayPop id node mode) fun _ => [] := by
  unfold lowerArrayPop
  infer_instance

section Presence

variable (base butterfly index : Reg) [Known Γ base .i64] [Known Γ index .i32]

instance : Scoped strict env Γ (askPresence base index) fun r => [.reg r .i32] := by
  unfold askPresence
  infer_instance

instance (mode : ArrayMode) [Known Γ butterfly .i64] :
    Scoped strict env Γ (presentInBounds base butterfly index mode) fun r => [.reg r .i32] := by
  unfold presentInBounds
  infer_instance

end Presence

set_option synthInstance.maxSize 50000 in
instance (mode : ArrayMode) [Fits strict env id .i32] :
    Scoped strict env Γ (lowerHasIndexedProperty id node mode) fun _ => [] := by
  unfold lowerHasIndexedProperty
  split <;> infer_instance

instance (data : NewArrayData) : Scoped strict env Γ (elementShape data) fun _ => [] := by
  unfold elementShape
  infer_instance

instance (shape : ArrayType) (butterfly : Reg) (values : List Reg) [Known Γ butterfly .i64]
    [hv : KnownAll Γ values (elementWidth shape).registerType] :
    Scoped strict env Γ (storeElements shape butterfly values) fun _ => [] :=
  scoped_forM fun p hp => by
    have : Known Γ p.1 (elementWidth shape).registerType :=
      ⟨fun hΓ => hv.holds hΓ p.1 (List.fst_mem_of_mem_zipIdx hp)⟩
    infer_instance

instance (n : Nat) (r : Reg) {ty : Ty} [h : Known Γ r ty] : KnownAll Γ (List.replicate n r) ty where
  holds hΓ r' hr' := by
    cases List.eq_of_mem_replicate hr'
    exact h.holds hΓ

set_option synthInstance.maxSize 50000 in
instance (data : NewArrayData) (length : Nat) :
    Scoped strict env Γ (allocateArray data length) fun p => [.reg p.1 .i64, .reg p.2 .i64] := by
  unfold allocateArray
  infer_instance

instance (data : NewArrayData) [Fits strict env id .i64] :
    Scoped strict env Γ (lowerNewArray id node data) fun _ => [] := by
  unfold lowerNewArray
  infer_instance

instance (data : NewArrayData) [Fits strict env id .i64] :
    Scoped strict env Γ (lowerNewArrayWithSize id node data) fun _ => [] := by
  refine .bind inferInstance fun e => .bind inferInstance fun env' => .bind inferInstance
    fun length =>
    .bind inferInstance fun r => ?_
  split <;> infer_instance

instance (shape : ArrayType) (element : FrozenValue) :
    Scoped strict env Γ (elementConstant shape element) fun r =>
      [.reg r (elementWidth shape).registerType] := by
  unfold elementConstant elementWidth
  by_cases hd : shape = .double
  · simp only [hd, if_true]
    split
    · exact inferInstanceAs (Scoped strict env Γ _ fun r => [.reg r .f64])
    · exact scoped_crash
  · simp only [hd, if_false]
    exact inferInstanceAs (Scoped strict env Γ _ fun r => [.reg r .i64])

instance (data : NewArrayData) (elements : List FrozenValue) [Fits strict env id .i64] :
    Scoped strict env Γ (lowerNewArrayBuffer id data elements) fun _ => [] := by
  unfold lowerNewArrayBuffer
  infer_instance

/-! ## The frame -/

instance (access : StackAccess) : Scoped strict env Γ (lowerGetStack id access) fun _ => [] := by
  unfold lowerGetStack
  split <;> infer_instance

instance (access : StackAccess) : Scoped strict env Γ (lowerPutStack node access) fun _ => [] := by
  unfold lowerPutStack
  split <;> infer_instance

instance : Scoped strict env Γ lowerInvalidationPoint fun _ => [] := by
  unfold lowerInvalidationPoint
  infer_instance

instance (address : Word) : Scoped strict env Γ (lowerCountExecution address) fun _ => [] := by
  unfold lowerCountExecution
  infer_instance

instance (helper : Helper) (arg : Reg) [Known Γ arg .i64] :
    Scoped strict env Γ (lowerThrow helper arg) fun _ => [] := by
  unfold lowerThrow
  infer_instance

instance [Fits strict env id .i32] :
    Scoped strict env Γ (lowerTypedArrayByteOffset id node) fun _ => [] := by
  unfold lowerTypedArrayByteOffset
  infer_instance

end Elements

end SpecJit.Lowering
