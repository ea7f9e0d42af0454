import SpecJit.Lowering.Node
import SpecJit.Proofs.Lowering.InStep.Forms

/-!
# Operations of two lowerings in step

One instance for each routine that emits the code of an operation, in the order of the operations.
-/

namespace SpecJit.Lowering

open Lir

variable {α : Type} {E : Setting} {Γ Δ : List Link}

section Operations

variable (id : NodeId) (node : Node)

/-! ## Conversions -/

instance : Alike E Γ (lowerIdentity id node) (lowerIdentity id node) := by
  refine .bind inferInstance fun e => ?_
  split <;> infer_instance

instance (e : Edge) : Alike E Γ (dischargeUse e) (dischargeUse e) := by
  unfold dischargeUse
  split
  · infer_instance
  refine .bind inferInstance fun recorded => .bind inferInstance fun node => ?_
  split
  · infer_instance
  · split <;> infer_instance

instance : Alike E Γ (dischargeUses node) (dischargeUses node) := by
  unfold dischargeUses
  infer_instance

section

variable (r r' : Reg) [Gives Γ (.reg r r')]

set_option synthInstance.maxSize 50000 in
instance : Twins E Γ (notCellToDouble id r) (notCellToDouble id r') := by
  unfold notCellToDouble
  infer_instance

set_option synthInstance.maxSize 50000 in
instance : Twins E Γ (boxedToInt52 id r) (boxedToInt52 id r') := by
  unfold boxedToInt52
  infer_instance

set_option synthInstance.maxSize 50000 in
instance (checkNegativeZero : Bool) :
    Twins E Γ (doubleToInt32Exact r checkNegativeZero)
      (doubleToInt32Exact r' checkNegativeZero) := by
  unfold doubleToInt32Exact
  infer_instance

instance : Twins E Γ (doubleToInt32Wrapping r) (doubleToInt32Wrapping r') := by
  unfold doubleToInt32Wrapping
  infer_instance
instance : Twins E Γ (notCellToInt32 id r) (notCellToInt32 id r') := by
  unfold notCellToInt32
  infer_instance

end

instance : Alike E Γ (lowerDoubleRep id node) (lowerDoubleRep id node) := by
  refine .bind inferInstance fun _ => ?_
  split <;> infer_instance

instance : Alike E Γ (lowerValueRep id node) (lowerValueRep id node) := by
  refine .bind inferInstance fun _ => ?_
  split <;> infer_instance

instance : Alike E Γ (lowerInt52Rep id node) (lowerInt52Rep id node) := by
  refine .bind inferInstance fun _ => ?_
  split <;> infer_instance

instance : Alike E Γ (lowerBooleanToNumber id node) (lowerBooleanToNumber id node) := by
  refine .bind inferInstance fun e => ?_
  split <;> infer_instance

instance (mode : ArithMode) :
    Alike E Γ (lowerDoubleAsInt32 id node mode) (lowerDoubleAsInt32 id node mode) := by
  unfold lowerDoubleAsInt32
  infer_instance

instance : Alike E Γ (lowerValueToInt32 id node) (lowerValueToInt32 id node) := by
  refine .bind inferInstance fun _ => ?_
  split <;> infer_instance

instance (mode : ArithMode) :
    Alike E Γ (lowerUInt32ToNumber id node mode) (lowerUInt32ToNumber id node mode) := by
  unfold lowerUInt32ToNumber
  cases node.result <;> infer_instance

/-! ## Arithmetic -/

instance : Alike E Γ (unexpectedResult node : Lower α) (unexpectedResult node) := inStep_crash

/-- Steps that give two registers each, which go together. -/
abbrev TwinPairs (E : Setting) (Γ : List Link) (x y : Lower (Reg × Reg)) : Prop :=
  InStep E Γ x y (fun i : (Reg × Reg) × (Reg × Reg) => (i.1.1, i.2.1)) (fun i => (i.1.2, i.2.2))
    fun i => [.reg i.1.1 i.1.2, .reg i.2.1 i.2.2]

instance (r r' q q' : Reg) [hr : Gives Γ (.reg r r')] [hq : Gives Γ (.reg q q')] :
    TwinPairs E Γ (pure (r, q) : Lower (Reg × Reg)) (pure (r', q')) :=
  inStep_pure ((r, r'), (q, q')) rfl rfl fun hΓ => .cons (hr.holds hΓ) (.one (hq.holds hΓ))

instance (form : Edge → Lower Reg) [∀ Γ e, Twins E Γ (form e) (form e)] :
    TwinPairs E Γ (asBoth form node) (asBoth form node) := by
  unfold asBoth
  infer_instance

instance (op : FBinaryOp) :
    Alike E Γ (lowerDoubleArith id node op) (lowerDoubleArith id node op) := by
  unfold lowerDoubleArith
  infer_instance

section

variable (mode : ArithMode) (kind : ExitKind) (lhs rhs lhs' rhs' : Reg) [Gives Γ (.reg lhs lhs')]

instance : Alike E Γ (checkNegatedZero mode lhs) (checkNegatedZero mode lhs') := by
  unfold checkNegatedZero
  infer_instance

variable [Gives Γ (.reg rhs rhs')]

instance (op : OverflowOp) :
    Alike E Γ (checkOverflow mode kind op lhs rhs) (checkOverflow mode kind op lhs' rhs') := by
  unfold checkOverflow
  infer_instance

instance : Emit.Twins Γ (eitherNegative lhs rhs) (eitherNegative lhs' rhs') := by
  unfold eitherNegative
  infer_instance

end

instance (mode : ArithMode) (x y x' y' : Emit Reg) [Emit.Twins Γ x x']
    [hy : ∀ Δ, Emit.Twins (Δ ++ Γ) y y'] :
    Alike E Γ (checkNegativeZero mode x y) (checkNegativeZero mode x' y') := by
  unfold checkNegativeZero
  infer_instance

section

variable (mode : ArithMode) (kind : ExitKind) (lhs rhs lhs' rhs' : Reg) [Gives Γ (.reg lhs lhs')]
  [Gives Γ (.reg rhs rhs')]

instance : Twins E Γ (multiply mode kind lhs rhs) (multiply mode kind lhs' rhs') := by
  unfold multiply
  infer_instance
instance : Alike E Γ (checkDivision mode lhs rhs) (checkDivision mode lhs' rhs') := by
  unfold checkDivision
  infer_instance

end

instance (helper : Helper) (args args' : List Reg) [hargs : Gives Γ (.regs args args')] :
    Twins E Γ (callOnDoubles helper args) (callOnDoubles helper args') := by
  have : TwinLists E Γ (args.mapM fun r => liftM (Emit.bitcastToInt r))
    (args'.mapM fun r => liftM (Emit.bitcastToInt r)) :=
    inStep_mapM_regs hargs fun _ _ _ _ => inferInstance
  unfold callOnDoubles
  infer_instance

section

variable (mode : ArithMode)

instance (op : BinaryOp) (overflow : OverflowOp) (double : FBinaryOp) :
    Alike E Γ (lowerAddSub id node mode op overflow double) (lowerAddSub id node mode op overflow
      double) := by
  unfold lowerAddSub
  split <;> infer_instance

instance : Alike E Γ (lowerMul id node mode) (lowerMul id node mode) := by
  unfold lowerMul
  split <;> infer_instance

set_option synthInstance.maxSize 50000 in
instance : Alike E Γ (lowerDiv id node mode) (lowerDiv id node mode) := by
  unfold lowerDiv
  split <;> infer_instance

instance : Alike E Γ (lowerMod id node mode) (lowerMod id node mode) := by
  unfold lowerMod
  split <;> infer_instance

set_option synthInstance.maxSize 50000 in
instance : Alike E Γ (lowerNegate id node mode) (lowerNegate id node mode) := by
  unfold lowerNegate
  split <;> infer_instance

set_option synthInstance.maxSize 50000 in
instance : Alike E Γ (lowerAbs id node mode) (lowerAbs id node mode) := by
  unfold lowerAbs
  split <;> infer_instance

instance (op : ArithOp) : Alike E Γ (lowerArith id node op mode) (lowerArith id node op mode) := by
  unfold lowerArith
  split <;> infer_instance

end

instance (pickLeft : IntCC) (double : FBinaryOp) :
    Alike E Γ (lowerMinMax id node pickLeft double) (lowerMinMax id node pickLeft double) := by
  unfold lowerMinMax
  split <;> infer_instance

instance (op : FUnaryOp) :
    Alike E Γ (lowerDoubleUnary id node op) (lowerDoubleUnary id node op) := by
  unfold lowerDoubleUnary
  infer_instance

instance (helper : Helper) :
    Alike E Γ (lowerMathCall id node helper) (lowerMathCall id node helper) := by
  unfold lowerMathCall
  infer_instance

instance : Alike E Γ (lowerPow id node) (lowerPow id node) := by unfold lowerPow; infer_instance

set_option synthInstance.maxSize 50000 in
instance (mode : RoundingMode) : Alike E Γ (lowerRound id node mode) (lowerRound id node mode) := by
  unfold lowerRound
  cases mode <;> infer_instance

instance : Alike E Γ (lowerClz32 id node) (lowerClz32 id node) := by
  unfold lowerClz32
  infer_instance
instance (op : BitOp) : Alike E Γ (lowerBit id node op) (lowerBit id node op) := by
  unfold lowerBit
  infer_instance
instance (helper : Helper) : Twins E Γ (callOnBoth helper node) (callOnBoth helper node) := by
  unfold callOnBoth
  infer_instance
instance : Alike E Γ (lowerValueAdd id node) (lowerValueAdd id node) := by
  unfold lowerValueAdd
  infer_instance

/-! ## Allocation -/

section Allocation

variable (cell value cell' value' : Reg) [Gives Γ (.reg cell cell')]

instance (field : CellField) : Twins E Γ (loadField64 cell field) (loadField64 cell' field) := by
  unfold loadField64
  infer_instance
instance (field : CellField) : Twins E Γ (loadField32 cell field) (loadField32 cell' field) := by
  unfold loadField32
  infer_instance
instance (field : CellField) : Twins E Γ (loadField8 cell field) (loadField8 cell' field) := by
  unfold loadField8
  infer_instance

instance (width : MemWidth) (field : CellField) [Gives Γ (.reg value value')] :
    Alike E Γ (storeField width value cell field) (storeField width value' cell' field) := by
  unfold storeField
  infer_instance

instance (id : StructureId) : Alike E Γ (storeStructureId cell id) (storeStructureId cell' id) := by
  unfold storeStructureId
  infer_instance

set_option synthInstance.maxSize 50000 in
instance (s : Structure) : Alike E Γ (initializeHeader cell s) (initializeHeader cell' s) := by
  unfold initializeHeader
  infer_instance

instance (capacity : Nat) [Gives Γ (.reg value value')] :
    Alike E Γ (fillInlineSlots cell value capacity) (fillInlineSlots cell' value' capacity) := by
  unfold fillInlineSlots
  infer_instance

end Allocation

instance (bytes : Nat) : Twins E Γ (allocateCell bytes) (allocateCell bytes) := by
  unfold allocateCell
  split <;> infer_instance

set_option synthInstance.maxSize 50000 in
instance (bytes bytes' : Reg) [Gives Γ (.reg bytes bytes')] :
    Twins E Γ (allocateStorage bytes) (allocateStorage bytes') := by
  unfold allocateStorage
  infer_instance

set_option synthInstance.maxSize 50000 in
instance (outOfLine : Nat) (n n' m m' : Reg) [Gives Γ (.reg n n')] [Gives Γ (.reg m m')] :
    Twins E Γ (allocateButterfly outOfLine n m) (allocateButterfly outOfLine n' m') := by
  unfold allocateButterfly
  infer_instance

instance (object object' : Reg) (outOfLine : Nat) [Gives Γ (.reg object object')] :
    Twins E Γ (attachButterfly object outOfLine) (attachButterfly object' outOfLine) := by
  unfold attachButterfly
  infer_instance

set_option synthInstance.maxSize 50000 in
instance (s : Structure) : Twins E Γ (allocateObject s) (allocateObject s) := by
  unfold allocateObject
  infer_instance

set_option synthInstance.maxSize 50000 in
instance (s : Structure) (scope scope' : Reg) [Gives Γ (.reg scope scope')] :
    Twins E Γ (allocateActivation s scope) (allocateActivation s scope') := by
  unfold allocateActivation
  infer_instance

/-! ## Calls -/

instance (kind : InlineCacheKind) (identifier : Option IdentifierIndex) (count : Nat) :
    Alike E Γ (newSite kind identifier count) (newSite kind identifier count) where
  steps π s s' a a' s₁ s₁' hs _ hx hy := by
    cases hx
    cases hy
    refine ⟨π, _, .refl π, hs.keep (.refl hs.builder) ?_ ⟨rfl, rfl⟩ ⟨rfl, rfl⟩ ⟨rfl, rfl⟩ rfl
      hs.fits, rfl, ?_, .nil⟩
    · exact { hs.data with caches := by rw [hs.data.caches, hs.data.origin] }
    · rw [hs.data.caches]

instance (value value' : Reg) [Gives Γ (.reg value value')] :
    Alike E Γ (setSiteResult id value) (setSiteResult id value') := by
  unfold setSiteResult
  infer_instance

instance (identifier : IdentifierIndex) :
    Alike E Γ (lowerGetById id node identifier) (lowerGetById id node identifier) := by
  unfold lowerGetById
  infer_instance

set_option synthInstance.maxSize 50000 in
instance (kind : InlineCacheKind) (identifier : IdentifierIndex) :
    Alike E Γ (lowerPutById node kind identifier) (lowerPutById node kind identifier) := by
  unfold lowerPutById
  infer_instance

set_option synthInstance.maxSize 50000 in
instance : Alike E Γ (lowerHasProperty id node) (lowerHasProperty id node) := by
  unfold lowerHasProperty
  infer_instance

instance (kind : InlineCacheKind) :
    Alike E Γ (lowerCall id node kind) (lowerCall id node kind) := by
  refine .bind inferInstance fun args => inStep_of_has fun hΓ => ?_
  rw [(List.Forall₂.length_eq (hΓ (.regs args.1 args.2) (by simp)) :)]
  infer_instance

section Spread

variable (length dest length' dest' : Reg) [Gives Γ (.reg length length')]

instance (limit : Nat) :
    Alike E Γ (checkSpreadLimit length limit) (checkSpreadLimit length' limit) := by
  unfold checkSpreadLimit
  infer_instance

instance : Alike E Γ (checkStackRoom length) (checkStackRoom length') := by
  unfold checkStackRoom
  infer_instance
instance (slot : Operand) : Alike E Γ (storeCount slot length) (storeCount slot length') := by
  unfold storeCount
  infer_instance

variable [Gives Γ (.reg dest dest')]

set_option synthInstance.maxSize 50000 in
instance (first : Int) (minimum i : Nat) :
    Alike E Γ (copyFrameArgument dest length first minimum i) (copyFrameArgument dest' length' first
      minimum i) := by
  unfold copyFrameArgument
  infer_instance

instance (offset slots minimum : Nat) :
    Alike E Γ (copyFrameArguments dest offset length slots minimum)
      (copyFrameArguments dest' offset length' slots minimum) := by
  unfold copyFrameArguments
  infer_instance

instance (minimum : Nat) :
    Alike E Γ (fillUndefined dest length minimum) (fillUndefined dest' length' minimum) := by
  unfold fillUndefined
  infer_instance

end Spread

instance (v : Operand) : Twins E Γ (frameAddress v) (frameAddress v) := by
  unfold frameAddress
  infer_instance
instance : Twins E Γ outgoingArea outgoingArea := by unfold outgoingArea; infer_instance

instance (start : Operand) : Twins E Γ (spreadDestination start) (spreadDestination start) := by
  unfold spreadDestination
  split
  · infer_instance
  · exact inStep_crash

instance (offset : Nat) : Twins E Γ (forwardedLength offset) (forwardedLength offset) := by
  unfold forwardedLength
  infer_instance

instance (source offset source' offset' : Reg) [Gives Γ (.reg source source')]
    [Gives Γ (.reg offset offset')] :
    Twins E Γ (spreadLength source offset) (spreadLength source' offset') := by
  unfold spreadLength
  infer_instance

set_option synthInstance.maxSize 50000 in
instance (kind : InlineCacheKind) (data : VarargsData) :
    Alike E Γ (lowerCallVarargs id node kind data) (lowerCallVarargs id node kind data) := by
  unfold lowerCallVarargs
  infer_instance

set_option synthInstance.maxSize 50000 in
instance (data : VarargsData) :
    Alike E Γ (lowerCallForwardVarargs id node data) (lowerCallForwardVarargs id node data) := by
  unfold lowerCallForwardVarargs
  infer_instance

set_option synthInstance.maxSize 50000 in
instance (data : LoadVarargsData) :
    Alike E Γ (lowerLoadVarargs node data) (lowerLoadVarargs node data) := by
  unfold lowerLoadVarargs
  infer_instance

instance (data : LoadVarargsData) :
    Alike E Γ (lowerForwardVarargs data) (lowerForwardVarargs data) := by
  unfold lowerForwardVarargs
  infer_instance

/-! ## Comparisons -/

/-- Steps that may give registers, which go together then. -/
abbrev TwinOptions (E : Setting) (Γ : List Link) (x y : Lower (Option Reg)) : Prop :=
  InStep E Γ x y (fun i : Option (Reg × Reg) => i.map Prod.fst) (fun i => i.map Prod.snd)
    fun i => i.toList.map fun p => .reg p.1 p.2

instance (r r' : Reg) [hr : Gives Γ (.reg r r')] :
    TwinOptions E Γ (pure (some r) : Lower (Option Reg)) (pure (some r')) :=
  inStep_pure (some (r, r')) rfl rfl fun hΓ => .one (hr.holds hΓ)

instance : TwinOptions E Γ (pure none : Lower (Option Reg)) (pure none) :=
  inStep_pure none rfl rfl fun _ => .nil

instance (left right : Edge) (intCC : IntCC) (floatCC : FloatCC) :
    TwinOptions E Γ (compareNumbers? node left right intCC floatCC)
      (compareNumbers? node left right intCC floatCC) := by
  unfold compareNumbers?
  infer_instance

instance : Twins E Γ (compareStrings node) (compareStrings node) := by
  unfold compareStrings
  infer_instance
instance : Twins E Γ (compareIdents node) (compareIdents node) := by
  unfold compareIdents
  infer_instance
instance : Twins E Γ (compareWords node) (compareWords node) := by
  unfold compareWords
  infer_instance

instance (left right : Edge) (op : Comparison) (helper : Helper) :
    Twins E Γ (compareOtherwise node left right op helper) (compareOtherwise node left right op
      helper) := by
  unfold compareOtherwise
  infer_instance

instance (op : Comparison) : Alike E Γ (lowerCompare id node op) (lowerCompare id node op) := by
  refine .bind inferInstance fun left => .bind inferInstance fun right => .bind inferInstance
    fun found => ?_
  cases found with
  | none =>
    exact inferInstanceAs (Alike E Γ (compareOtherwise node left right op op.tests.2.2 >>=
      setResult id)
      (compareOtherwise node left right op op.tests.2.2 >>= setResult id))
  | some q =>
    exact inferInstanceAs (Alike E (.reg q.1 q.2 :: Γ) (setResult id q.1) (setResult id q.2))

section

variable (r r' : Reg) [Gives Γ (.reg r r')]

instance : Twins E Γ (masquerades r) (masquerades r') := by unfold masquerades; infer_instance

instance (plain plain' : Emit Reg) [hplain : ∀ Δ, Emit.Twins (Δ ++ Γ) plain plain'] :
    Twins E Γ (undefinedLike id r plain) (undefinedLike id r' plain') := by
  have (Δ Δ' : List Link) : Emit.Twins (Δ ++ (Δ' ++ Γ)) plain plain' := by
    rw [← List.append_assoc]
    exact hplain _
  unfold undefinedLike
  infer_instance

instance : Emit.Twins Γ (doubleTruth r) (doubleTruth r') := by unfold doubleTruth; infer_instance
instance : Twins E Γ (stringTruth r) (stringTruth r') := by unfold stringTruth; infer_instance

set_option synthInstance.maxSize 50000 in
instance : Twins E Γ (valueTruth id r) (valueTruth id r') := by unfold valueTruth; infer_instance

instance (query query' : Lower Reg) [∀ Δ, Twins E (Δ ++ Γ) query query'] :
    Twins E Γ (cellQuery r query) (cellQuery r' query') := by
  unfold cellQuery
  infer_instance

instance : Twins E Γ (isPlainObject r) (isPlainObject r') := by unfold isPlainObject; infer_instance

end

instance (e : Edge) : Twins E Γ (truth e) (truth e) := by
  unfold truth
  split <;> infer_instance

instance : Alike E Γ (lowerEqNull id node) (lowerEqNull id node) := by
  unfold lowerEqNull
  infer_instance
instance : Alike E Γ (lowerLogicalNot id node) (lowerLogicalNot id node) := by
  unfold lowerLogicalNot
  infer_instance

instance (query : TypeQuery) :
    Alike E Γ (lowerTypeQuery id node query) (lowerTypeQuery id node query) := by
  refine .bind inferInstance fun e => .bind inferInstance fun value => ?_
  split <;> infer_instance

instance : Alike E Γ (lowerTypeOf id node) (lowerTypeOf id node) := by
  unfold lowerTypeOf
  infer_instance

/-! ## Properties -/

section

variable (cell cell' : Reg) [Gives Γ (.reg cell cell')]

instance : Twins E Γ (loadStructureId cell) (loadStructureId cell') := by
  unfold loadStructureId
  infer_instance

/-- One more structure after the other. -/
theorem inStep_foldlM_or (ids : List StructureId) (found found' : Reg) [Gives Γ (.reg found found')]
    :
    Emit.Twins Γ
      (ids.foldlM (fun found s => do Emit.binary .or found (← Emit.icmpImm .eq cell s.index)) found)
      (ids.foldlM (fun found s => do Emit.binary .or found (← Emit.icmpImm .eq cell' s.index))
        found') := by
  induction ids generalizing found found' Γ with
  | nil => exact inferInstanceAs (Emit.Twins Γ (pure found) (pure found'))
  | cons s ids ih =>
    rw [List.foldlM_cons, List.foldlM_cons]
    have (q q' : Reg) := ih (Γ := [.reg q q'] ++ Γ) q q'
    infer_instance

instance (set : StructureSet) : Emit.Twins Γ (structureIn cell set) (structureIn cell' set) := by
  unfold structureIn
  split
  · infer_instance
  · rename_i first rest _
    have (q q' : Reg) := inStep_foldlM_or (Γ := [.reg q q'] ++ Γ) cell cell' rest q q'
    infer_instance

end

set_option synthInstance.maxSize 50000 in
instance (set : StructureSet) :
    Alike E Γ (lowerCheckStructure node set) (lowerCheckStructure node set) := by
  unfold lowerCheckStructure
  infer_instance

instance (expected : FrozenValue) :
    Alike E Γ (lowerCheckCell node expected) (lowerCheckCell node expected) := by
  unfold lowerCheckCell
  infer_instance

instance : Alike E Γ (lowerCheckNotEmpty node) (lowerCheckNotEmpty node) := by
  unfold lowerCheckNotEmpty
  infer_instance

set_option synthInstance.maxSize 50000 in
instance : Alike E Γ (lowerCheckHasInstance node) (lowerCheckHasInstance node) := by
  unfold lowerCheckHasInstance
  infer_instance
instance : Alike E Γ (lowerGetButterfly id node) (lowerGetButterfly id node) := by
  unfold lowerGetButterfly
  infer_instance

instance (t : Transition) :
    Alike E Γ (lowerAllocatePropertyStorage id node t) (lowerAllocatePropertyStorage id node
      t) := by
  unfold lowerAllocatePropertyStorage
  infer_instance

section

variable (base value base' value' : Reg) (offset : PropertyOffset) [Gives Γ (.reg base base')]

instance (slots : Nat) :
    Twins E Γ (reallocateStorage base slots) (reallocateStorage base' slots) := by
  unfold reallocateStorage
  infer_instance

instance : Twins E Γ (slotBase base offset) (slotBase base' offset) := by
  unfold slotBase
  infer_instance

instance (storage : Edge) :
    Twins E Γ (slotBaseOf storage base offset) (slotBaseOf storage base' offset) := by
  unfold slotBaseOf
  infer_instance

instance : Twins E Γ (loadProperty base offset) (loadProperty base' offset) := by
  unfold loadProperty
  infer_instance

instance [Gives Γ (.reg value value')] :
    Alike E Γ (storeProperty value base offset) (storeProperty value' base' offset) := by
  unfold storeProperty
  infer_instance

instance : Alike E Γ (barrierFor id base) (barrierFor id base') := by
  unfold barrierFor
  infer_instance

end

instance (t : Transition) :
    Alike E Γ (lowerReallocatePropertyStorage id node t) (lowerReallocatePropertyStorage id node
      t) := by
  unfold lowerReallocatePropertyStorage
  infer_instance

instance (offset : PropertyOffset) :
    Alike E Γ (lowerGetByOffset id node offset) (lowerGetByOffset id node offset) := by
  unfold lowerGetByOffset
  infer_instance

instance (offset : PropertyOffset) :
    Alike E Γ (lowerPutByOffset node offset) (lowerPutByOffset node offset) := by
  unfold lowerPutByOffset
  infer_instance

/-! ## Dispatch -/

set_option synthInstance.maxSize 50000 in
instance (join join' : BlockId) (exhaustive : Bool) (test test' : α → Lower Reg)
    (body body' : α → Lower (List Reg)) (miss miss' : Lower Unit) (cases : List α)
    [Gives Γ (.block join join')] [htest : ∀ c, Twins E Γ (test c) (test' c)]
    [hbody : ∀ c, TwinLists E Γ (body c) (body' c)] [hmiss : Alike E Γ miss miss'] :
    Alike E Γ (dispatch join exhaustive test body miss cases) (dispatch join' exhaustive test' body'
      miss' cases) := by
  have (c : α) (Δ : List Link) [Within Γ Δ] : TwinLists E Δ (body c) (body' c) := (hbody c).under
  induction cases with
  | nil => exact hmiss
  | cons c rest ih =>
    have (Δ : List Link) [Within Γ Δ] := ih.under (Δ := Δ)
    unfold dispatch
    infer_instance

instance (base base' : Reg) (method : ReadMethod) [Gives Γ (.reg base base')] :
    Twins E Γ (readCase base method) (readCase base' method) := by
  unfold readCase
  split <;> infer_instance

set_option synthInstance.maxSize 50000 in
instance (cases : List ReadCase) :
    Alike E Γ (lowerMultiGetByOffset id node cases) (lowerMultiGetByOffset id node cases) := by
  unfold lowerMultiGetByOffset
  infer_instance

instance (f : α → Lower Bool) (l : List α) [∀ Γ a, Alike E Γ (f a) (f a)] :
    Alike E Γ (l.anyM f) (l.anyM f) := by
  induction l generalizing Γ with
  | nil => exact inferInstanceAs (Alike E Γ (pure false) (pure false))
  | cons a l ih =>
    refine .bind inferInstance fun found => ?_
    split <;> infer_instance

instance (c : WriteCase) : Alike E Γ (needsGrowth c) (needsGrowth c) := by
  unfold needsGrowth
  infer_instance

section

variable (base value base' value' : Reg) (c : WriteCase) [Gives Γ (.reg base base')]

instance : Twins E Γ (writeBase base c) (writeBase base' c) := by
  unfold writeBase
  split <;> infer_instance

instance [Gives Γ (.reg value value')] :
    Alike E Γ (writeCase base value c) (writeCase base' value' c) := by
  unfold writeCase
  split <;> infer_instance

end

set_option synthInstance.maxSize 50000 in
instance (cases : List WriteCase) :
    Alike E Γ (lowerMultiPutByOffset node cases) (lowerMultiPutByOffset node cases) := by
  unfold lowerMultiPutByOffset
  infer_instance

instance (t : Transition) : Alike E Γ (lowerPutStructure node t) (lowerPutStructure node t) := by
  unfold lowerPutStructure
  infer_instance

/-! ## Scopes and objects -/

instance (address : Word) :
    Alike E Γ (lowerPutGlobalVar node address) (lowerPutGlobalVar node address) := by
  unfold lowerPutGlobalVar
  infer_instance

set_option synthInstance.maxSize 50000 in
instance (offset : Except Fault Int) :
    Alike E Γ (lowerPutSlot node offset) (lowerPutSlot node offset) := by
  unfold lowerPutSlot
  infer_instance

instance (index : Nat) :
    Alike E Γ (lowerPutClosureVar node index) (lowerPutClosureVar node index) := by
  unfold lowerPutClosureVar
  infer_instance

instance (index : Nat) :
    Alike E Γ (lowerPutToArguments node index) (lowerPutToArguments node index) := by
  unfold lowerPutToArguments
  infer_instance

instance (address : Word) :
    Alike E Γ (lowerGetGlobalVar id address) (lowerGetGlobalVar id address) := by
  unfold lowerGetGlobalVar
  infer_instance

instance (field : CellField) :
    Alike E Γ (lowerLoadLink id node field) (lowerLoadLink id node field) := by
  unfold lowerLoadLink
  infer_instance

instance (offset : Except Fault Int) :
    Alike E Γ (lowerGetSlot id node offset) (lowerGetSlot id node offset) := by
  unfold lowerGetSlot
  infer_instance

instance (index : Nat) :
    Alike E Γ (lowerGetClosureVar id node index) (lowerGetClosureVar id node index) := by
  unfold lowerGetClosureVar
  infer_instance

instance (index : Nat) :
    Alike E Γ (lowerGetFromArguments id node index) (lowerGetFromArguments id node index) := by
  unfold lowerGetFromArguments
  infer_instance

instance (structureId : StructureId) :
    Alike E Γ (lowerNewObject id structureId) (lowerNewObject id structureId) := by
  unfold lowerNewObject
  infer_instance

set_option synthInstance.maxSize 50000 in
instance : Alike E Γ (lowerNewFunction id node) (lowerNewFunction id node) := by
  unfold lowerNewFunction
  infer_instance

instance (structureId : StructureId) :
    Alike E Γ (lowerCreateActivation id node structureId)
      (lowerCreateActivation id node structureId) := by
  unfold lowerCreateActivation
  infer_instance

instance (helper : Helper) :
    Alike E Γ (lowerCreateArguments id helper) (lowerCreateArguments id helper) := by
  unfold lowerCreateArguments
  infer_instance

instance : Alike E Γ (lowerCreateScopedArguments id node) (lowerCreateScopedArguments id node) := by
  unfold lowerCreateScopedArguments
  infer_instance

instance : TwinLists E Γ (fieldValues node) (fieldValues node) := by
  unfold fieldValues
  split
  · exact inStep_of_error fun _ => ⟨_, rfl⟩
  · infer_instance

section

variable (s : Structure) (locations : List PromotedLocation) (values values' : List Reg)
  [Gives Γ (.regs values values')]

instance (object object' : Reg) [Gives Γ (.reg object object')] :
    Alike E Γ (storeNamedFields object s locations values) (storeNamedFields object' s locations
      values') := by
  unfold storeNamedFields
  dsimp only
  split
  all_goals
    refine .bind inferInstance fun butterfly => inStep_forM_regs inferInstance
      fun location r r' hr => ?_
    dsimp only
    split
    · split <;> infer_instance
    · infer_instance

instance : Twins E Γ (materializeAs s locations values) (materializeAs s locations values') := by
  unfold materializeAs
  infer_instance

end

set_option synthInstance.maxSize 50000 in
instance (data : MaterializeData) :
    Alike E Γ (lowerMaterializeNewObject id node data) (lowerMaterializeNewObject id node
      data) := by
  refine .bind inferInstance fun values => .bind inferInstance fun structures => ?_
  split <;> infer_instance

instance (data : MaterializeData) :
    Alike E Γ (lowerMaterializeActivation id node data) (lowerMaterializeActivation id node
      data) := by
  unfold lowerMaterializeActivation
  split
  · infer_instance
  · refine .bind inferInstance fun _ => .bind inferInstance fun scope => .bind inferInstance
      fun values =>
      .bind inferInstance fun s => .bind inferInstance fun activation =>
        inStep_then ?_ fun _ => inferInstance
    refine inStep_forM_regs inferInstance fun location r r' hr => ?_
    dsimp only
    split <;> infer_instance

/-! ## Objects and strings -/

set_option synthInstance.maxSize 50000 in
instance : Alike E Γ (lowerToThis id node) (lowerToThis id node) := by
  unfold lowerToThis
  infer_instance

set_option synthInstance.maxSize 50000 in
instance : Alike E Γ (lowerToPrimitive id node) (lowerToPrimitive id node) := by
  unfold lowerToPrimitive
  infer_instance

set_option synthInstance.maxSize 50000 in
instance : Alike E Γ (lowerToString id node) (lowerToString id node) := by
  unfold lowerToString
  infer_instance

instance : Alike E Γ (lowerMakeRope id node) (lowerMakeRope id node) := by
  unfold lowerMakeRope
  split <;> infer_instance

set_option synthInstance.maxSize 50000 in
instance : Alike E Γ (lowerInstanceOf id node) (lowerInstanceOf id node) := by
  unfold lowerInstanceOf
  infer_instance

end Operations

end SpecJit.Lowering
