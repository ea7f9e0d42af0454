import SpecJit.Lowering.Forms
import SpecJit.Proofs.Lowering.InStep.Exits

/-!
# Checks and machine forms of two lowerings in step

Checks go the same way on both sides, since the facts are the same. A node in a machine form is
found held, converted or loaded on both sides alike; the registers that hold it go together.
-/

namespace SpecJit.Lowering

open Lir

variable {α : Type} {E : Setting} {Γ : List Link}

/-! ## Boxing -/

section Boxing

variable (r r' : Reg) [Gives Γ (.reg r r')]

instance : Emit.Twins Γ (isInt32 r) (isInt32 r') := by unfold isInt32; infer_instance
instance : Emit.Twins Γ (isNumber r) (isNumber r') := by unfold isNumber; infer_instance
instance : Emit.Twins Γ (isCell r) (isCell r') := by unfold isCell; infer_instance
instance : Emit.Twins Γ (isBoolean r) (isBoolean r') := by unfold isBoolean; infer_instance
instance : Emit.Twins Γ (isOther r) (isOther r') := by unfold isOther; infer_instance
instance : Emit.Twins Γ (isMisc r) (isMisc r') := by unfold isMisc; infer_instance
instance : Emit.Twins Γ (negated r) (negated r') := by unfold negated; infer_instance
instance : Emit.Twins Γ (boxInt32 r) (boxInt32 r') := by unfold boxInt32; infer_instance
instance : Emit.Twins Γ (boxBoolean r) (boxBoolean r') := by unfold boxBoolean; infer_instance
instance : Emit.Twins Γ (unboxDouble r) (unboxDouble r') := by unfold unboxDouble; infer_instance

set_option synthInstance.maxSize 4000 in
instance : Emit.Twins Γ (isNotInt52 r) (isNotInt52 r') := by unfold isNotInt52; infer_instance
instance (impure : Bool) : Emit.Twins Γ (boxDouble r impure) (boxDouble r' impure) := by
  unfold boxDouble
  infer_instance

instance : Twins E Γ (cellTag r) (cellTag r') := by unfold cellTag; infer_instance
instance : Twins E Γ (isObjectTag r) (isObjectTag r') := by unfold isObjectTag; infer_instance
instance : Twins E Γ (isNotObjectTag r) (isNotObjectTag r') := by
  unfold isNotObjectTag
  infer_instance
instance (t : CellType) : Twins E Γ (hasCellType r t) (hasCellType r' t) := by
  unfold hasCellType
  infer_instance

set_option synthInstance.maxSize 4000 in
instance : Twins E Γ (isNotIdentString r) (isNotIdentString r') := by
  unfold isNotIdentString
  infer_instance
instance : Twins E Γ (isStringVar r) (isStringVar r') := by unfold isStringVar; infer_instance

end Boxing

/-! ## Checks -/

/-- The facts are narrowed to what a check proves. -/
theorem inStep_narrow (id : NodeId) (mask : SpecType) : Alike E Γ (do
      let s ← get
      let facts ← s.facts.filter (← read).graph id mask
      set { s with facts } : Lower Unit) (do
      let s ← get
      let facts ← s.facts.filter (← read).graph id mask
      set { s with facts }) where
  steps π s s' u u' s₁ s₁' hs _ hx hy := by
    rw [get_bind, read_bind] at hx hy
    obtain ⟨facts, hfacts, hx⟩ := check_bind_ok hx
    obtain ⟨facts', hfacts', hy⟩ := check_bind_ok hy
    rw [← hs.data.facts, hfacts] at hfacts'
    cases hfacts'
    cases hx
    cases hy
    exact ⟨π, (), .refl π, hs.setFacts facts, rfl, rfl, .nil⟩

instance (id : NodeId) (mask : SpecType) (kind : ExitKind) (profile profile' : Option Reg)
    (failing failing' : Lower Reg) [GivesOption Γ profile profile']
    [hf : Twins E Γ failing failing'] :
    Alike E Γ (typeCheck id mask kind profile failing)
      (typeCheck id mask kind profile' failing') := by
  refine .bind inferInstance fun known => inStep_get fun s s' hs => ?_
  rw [hs.armDepth]
  dsimp only
  split
  · infer_instance
  · split
    · infer_instance
    · refine .bind hf fun failed => .bind inferInstance fun _ => ?_
      split
      · exact inStep_narrow id mask
      · infer_instance

instance (id : NodeId) (value value' : Reg) (mask : SpecType) (failing failing' : Lower Reg)
    [Gives Γ (.reg value value')] [Twins E Γ failing failing'] :
    Alike E Γ (typeCheckValue id value mask failing) (typeCheckValue id value' mask failing') :=
  inferInstanceAs (Alike E Γ (typeCheck _ _ _ _ _) (typeCheck _ _ _ _ _))

section Checks

variable (id : NodeId) (value value' : Reg) [Gives Γ (.reg value value')]

instance : Alike E Γ (checkInt32 id value) (checkInt32 id value') := by
  unfold checkInt32
  infer_instance
instance : Alike E Γ (checkCell id value) (checkCell id value') := by
  unfold checkCell
  infer_instance
instance : Alike E Γ (checkBoolean id value) (checkBoolean id value') := by
  unfold checkBoolean
  infer_instance

instance (mask : SpecType) (cellType : CellType) :
    Alike E Γ (checkCellType id value mask cellType) (checkCellType id value' mask cellType) := by
  unfold checkCellType
  infer_instance

instance : Twins E Γ (isNotRealNumber value) (isNotRealNumber value') := by
  unfold isNotRealNumber
  infer_instance
instance : Twins E Γ (isNotObjectOrOther value) (isNotObjectOrOther value') := by
  unfold isNotObjectOrOther
  infer_instance

instance (e : Edge) : Alike E Γ (checkUse e value) (checkUse e value') := by
  unfold checkUse
  dsimp only
  split <;> infer_instance

end Checks

/-! ## Machine forms -/

theorem inStep_missingForm {ι : Type} {l r : ι → α} {P : ι → List Link} {e : Edge} {form : Form} :
    InStep E Γ (missingForm e form : Lower α) (missingForm e form) l r P := inStep_crash

instance (e : Edge) (form : Form) : Alike E Γ (missingForm e form : Lower α) (missingForm e form) :=
  inStep_crash

section

variable {ι : Type} {l r : ι → α} {P : ι → List Link} (x x' y y' : Lower α)

instance (priority := high) (q q' : Reg) [h : InStep E Γ y y' l r P] :
    InStep E Γ (if (some q).isNone then x else y) (if (some q').isNone then x' else y') l r P := h

instance (priority := high) [h : InStep E Γ x x' l r P] :
    InStep E Γ (if (none : Option Reg).isNone then x else y) (if (none : Option Reg).isNone then x'
      else y') l r P := h

instance (priority := high) (q q' : Reg) [h : InStep E Γ x x' l r P] :
    InStep E Γ (if (some q).isSome then x else y) (if (some q').isSome then x' else y') l r P := h

end

instance (id : NodeId) (strict strict' : Reg) [Gives Γ (.reg strict strict')] :
    Twins E Γ (boxStrictInt52 id strict) (boxStrictInt52 id strict') := by
  unfold boxStrictInt52
  infer_instance

instance (e : Edge) : Twins E Γ (asStrictInt52 e) (asStrictInt52 e) := by
  refine inStep_held (fun q q' => inferInstance) (inStep_held (fun q q' => inferInstance)
    (.bind inferInstance fun node => ?_))
  split
  · infer_instance
  · infer_instance
  · exact inStep_held (fun q q' => inferInstance) inStep_missingForm

instance (e : Edge) : Twins E Γ (asInt52 e) (asInt52 e) := by unfold asInt52; infer_instance

instance (id : NodeId) : Twins E Γ (boxHeld id) (boxHeld id) := by
  refine inStep_held (fun q q' => inferInstance) (inStep_held (fun q q' => inferInstance)
    (inStep_held (fun q q' => inferInstance) ?_))
  have hbox (Γ : List Link) : Twins E Γ (do boxStrictInt52 id (← asStrictInt52 { node := id })) (do
      boxStrictInt52 id (← asStrictInt52 { node := id })) := inferInstance
  have hnone (Γ : List Link) : Twins E Γ (crash (.nothingToBox id)) (crash (.nothingToBox id)) :=
    inStep_crash
  refine inStep_held (fun q q' => inStep_held (fun p p' => hbox _) (hbox _))
    (inStep_held (fun p p' => hbox _) (hnone _))

instance (id : NodeId) : Twins E Γ (boxedNode id) (boxedNode id) := by
  refine inStep_held (fun q q' => inferInstance) (.bind inferInstance fun node => ?_)
  split <;> infer_instance

instance (e : Edge) : Twins E Γ (asValue e) (asValue e) := by unfold asValue; infer_instance

instance (e : Edge) : Twins E Γ (asCell e) (asCell e) := by unfold asCell; infer_instance

instance : Twins E Γ badConstant badConstant := by unfold badConstant; infer_instance

set_option synthInstance.maxSize 4000 in
instance (e : Edge) : Twins E Γ (asInt32 e) (asInt32 e) := by
  refine inStep_held (fun q q' => inferInstance) (.bind inferInstance fun node => ?_)
  split <;> infer_instance

set_option synthInstance.maxSize 4000 in
instance (e : Edge) : Twins E Γ (asBoolean e) (asBoolean e) := by
  refine inStep_held (fun q q' => inferInstance) (.bind inferInstance fun node => ?_)
  split <;> infer_instance

instance (e : Edge) : Twins E Γ (doubleOf e) (doubleOf e) := by
  refine inStep_held (fun q q' => inferInstance) (.bind inferInstance fun node => ?_)
  split
  · infer_instance
  · infer_instance
  · split
    · infer_instance
    · exact inStep_missingForm
  · exact inStep_held (fun q q' => inferInstance) inStep_missingForm

instance (e : Edge) : Twins E Γ (asDouble e) (asDouble e) := by
  refine .bind inferInstance fun value => ?_
  split <;> infer_instance

instance (e : Edge) : Twins E Γ (asStorage e) (asStorage e) :=
  inStep_held (fun _ _ => inferInstance) inStep_missingForm

instance (e : Edge) : Twins E Γ (asStorageOrCell e) (asStorageOrCell e) := by
  unfold asStorageOrCell
  infer_instance

instance (id : NodeId) (boxed boxed' : Reg) [Gives Γ (.reg boxed boxed')] :
    Twins E Γ (unboxNumber id boxed) (unboxNumber id boxed') := by
  unfold unboxNumber
  infer_instance

end SpecJit.Lowering
