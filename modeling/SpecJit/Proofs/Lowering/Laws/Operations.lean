import SpecJit.Lowering.Coercion
import SpecJit.Lowering.Scope
import SpecJit.Lowering.Call
import SpecJit.Proofs.Lowering.Laws.Forms

/-!
# What holds of operations

The routines that emit the code of operations are made of the steps that a relation has to hold of
to hold of them (`Law.Lowers`): first the ones that do not check uses, in the order of the
operations, then those that read and check them, which may obey one law up to there and another one
from then on (`Staged`). The routines that dispatch over structures make blocks of their own, and
leave nothing pending.
-/

namespace SpecJit.Lowering

open Lir

variable {α β : Type} {R : Law}

/-- The law holds of all that operations do, apart from what they learn about facts. -/
class Law.Lowers (R : Law) : Prop extends R.Codes, R.Records, R.Leaves where
  enters : ∀ target, Obeys R (successorBlock target)
  sites : ∀ env s caches, R.rel env s { s with caches }
  upsilons : ∀ env s phi r, R.rel env s { s with upsilons := (phi, r) :: s.upsilons }

-- shortcuts, which keep the search for instances short
instance (priority := high) [R.Lowers] : Emit.Building R.emitted := inferInstance
instance (priority := high) [R.Lowers] : R.Computes := inferInstance
instance (priority := high) [R.Codes] : Emit.Computing R.emitted := inferInstance

instance [hR : R.Lowers] (target : BlockIndex) : Obeys R (successorBlock target) := hR.enters target

instance [hR : R.Lowers] (kind : InlineCacheKind) (identifier : Option IdentifierIndex)
    (count : Nat) : Obeys R (newSite kind identifier count) where
  obeys env s _ _ h := by
    cases h
    exact hR.sites env s _

instance [R.Codes] (target : BlockIndex) [Obeys R (successorBlock target)] :
    Obeys R (jumpTo target) := by
  unfold jumpTo
  infer_instance

instance [R.Records] (id : NodeId) (r : Reg) : Obeys R (setResult id r) := by
  refine .bind inferInstance fun node => ?_
  split <;> infer_instance

instance {Q : Builder.Law} [(onBuilders Q).Codes] [(onBuilders Q).Leaves]
    [∀ target, Obeys (onBuilders Q) (successorBlock target)] : (onBuilders Q).Lowers where
  enters _ := inferInstance
  sites _ _ _ := Q.refl _
  upsilons _ _ _ _ := Q.refl _

instance {R' : Law} [hR : R.Lowers] [hR' : R'.Lowers] : (R.and R').Lowers where
  records _ _ _ := inferInstance
  leaves _ := inferInstance
  enters _ := inferInstance
  sites env s caches := ⟨hR.sites env s caches, hR'.sites env s caches⟩
  upsilons env s phi r := ⟨hR.upsilons env s phi r, hR'.upsilons env s phi r⟩

instance (priority := high) : Emit.Computing (onBuilders Builder.settling).emitted := inferInstance
instance (priority := high) : Emit.Building (onBuilders Builder.settling).emitted := inferInstance
instance (priority := high) : (onBuilders Builder.settling).Computes := inferInstance

/-! ## Building steps -/

section

variable {Q : Builder.Law} [Emit.Computing Q]

instance (lhs rhs : Reg) : (eitherNegative lhs rhs).Obeys Q := by
  unfold eitherNegative
  infer_instance

instance (value : Reg) : (doubleTruth value).Obeys Q := by unfold doubleTruth; infer_instance

instance (id : Reg) (set : StructureSet) : (structureIn id set).Obeys Q := by
  unfold structureIn
  split <;> infer_instance

end

section

variable [R.Codes]

/-! ## Conversions -/

set_option synthInstance.maxSize 1000 in
instance (id : NodeId) (boxed : Reg) : Obeys R (notCellToDouble id boxed) := by
  unfold notCellToDouble
  infer_instance

set_option synthInstance.maxSize 1000 in
instance (id : NodeId) (boxed : Reg) : Obeys R (boxedToInt52 id boxed) := by
  unfold boxedToInt52
  infer_instance

set_option synthInstance.maxSize 400 in
instance (double : Reg) (checkNegativeZero : Bool) :
    Obeys R (doubleToInt32Exact double checkNegativeZero) := by
  unfold doubleToInt32Exact
  infer_instance

set_option synthInstance.maxSize 1000 in
instance (double : Reg) : Obeys R (doubleToInt32Wrapping double) := by
  unfold doubleToInt32Wrapping
  infer_instance

instance (id : NodeId) (boxed : Reg) : Obeys R (notCellToInt32 id boxed) := by
  unfold notCellToInt32
  infer_instance

/-! ## Arithmetic -/

instance {α : Type} (node : Node) : Obeys R (unexpectedResult node : Lower α) := by
  unfold unexpectedResult
  infer_instance

instance (mode : ArithMode) (kind : ExitKind) (op : OverflowOp) (lhs rhs : Reg) :
    Obeys R (checkOverflow mode kind op lhs rhs) := by
  unfold checkOverflow
  infer_instance

instance (mode : ArithMode) (x y : Emit Reg) [x.Obeys R.emitted] [y.Obeys R.emitted] :
    Obeys R (checkNegativeZero mode x y) := by
  unfold checkNegativeZero
  infer_instance

instance (mode : ArithMode) (kind : ExitKind) (lhs rhs : Reg) :
    Obeys R (multiply mode kind lhs rhs) := by
  unfold multiply
  infer_instance

instance (mode : ArithMode) (numerator denominator : Reg) :
    Obeys R (checkDivision mode numerator denominator) := by
  unfold checkDivision
  infer_instance

instance (helper : Helper) (args : List Reg) : Obeys R (callOnDoubles helper args) := by
  unfold callOnDoubles
  infer_instance

instance (mode : ArithMode) (value : Reg) : Obeys R (checkNegatedZero mode value) := by
  unfold checkNegatedZero
  infer_instance

/-! ## Allocation -/

instance (cell : Reg) (field : CellField) : Obeys R (loadField64 cell field) := by
  unfold loadField64
  infer_instance

instance (cell : Reg) (field : CellField) : Obeys R (loadField32 cell field) := by
  unfold loadField32
  infer_instance

instance (cell : Reg) (field : CellField) : Obeys R (loadField8 cell field) := by
  unfold loadField8
  infer_instance

instance (width : MemWidth) (value cell : Reg) (field : CellField) :
    Obeys R (storeField width value cell field) := by
  unfold storeField
  infer_instance

instance (cell : Reg) (id : StructureId) : Obeys R (storeStructureId cell id) := by
  unfold storeStructureId
  infer_instance

set_option synthInstance.maxSize 400 in
instance (bytes : Nat) : Obeys R (allocateCell bytes) := by
  unfold allocateCell
  split <;> infer_instance

set_option synthInstance.maxSize 400 in
instance (bytes : Reg) : Obeys R (allocateStorage bytes) := by
  unfold allocateStorage
  infer_instance

set_option synthInstance.maxSize 400 in
instance (cell : Reg) (s : Structure) : Obeys R (initializeHeader cell s) := by
  unfold initializeHeader
  infer_instance

set_option synthInstance.maxSize 400 in
instance (outOfLine : Nat) (publicLength vectorLength : Reg) :
    Obeys R (allocateButterfly outOfLine publicLength vectorLength) := by
  unfold allocateButterfly
  infer_instance

instance (object : Reg) (outOfLine : Nat) : Obeys R (attachButterfly object outOfLine) := by
  unfold attachButterfly
  infer_instance

instance (cell value : Reg) (capacity : Nat) : Obeys R (fillInlineSlots cell value capacity) := by
  unfold fillInlineSlots
  infer_instance

set_option synthInstance.maxSize 400 in
instance (s : Structure) : Obeys R (allocateObject s) := by unfold allocateObject; infer_instance

set_option synthInstance.maxSize 1000 in
instance (s : Structure) (scope : Reg) : Obeys R (allocateActivation s scope) := by
  unfold allocateActivation
  infer_instance

/-! ## Calls -/

instance [R.Records] (id : NodeId) (value : Reg) : Obeys R (setSiteResult id value) := by
  unfold setSiteResult
  infer_instance

instance (length : Reg) (limit : Nat) : Obeys R (checkSpreadLimit length limit) := by
  unfold checkSpreadLimit
  infer_instance

instance (length : Reg) : Obeys R (checkStackRoom length) := by
  unfold checkStackRoom
  infer_instance

instance (v : Operand) : Obeys R (frameAddress v) := by unfold frameAddress; infer_instance

instance : Obeys R (outgoingArea) := by unfold outgoingArea; infer_instance

instance (start : Operand) : Obeys R (spreadDestination start) := by
  unfold spreadDestination
  split <;> infer_instance

set_option synthInstance.maxSize 400 in
instance (offset : Nat) : Obeys R (forwardedLength offset) := by
  unfold forwardedLength
  infer_instance

instance (source offset : Reg) : Obeys R (spreadLength source offset) := by
  unfold spreadLength
  infer_instance

instance (slot : Operand) (length : Reg) : Obeys R (storeCount slot length) := by
  unfold storeCount
  infer_instance

set_option synthInstance.maxSize 400 in
instance (dest length : Reg) (first : Int) (minimum i : Nat) :
    Obeys R (copyFrameArgument dest length first minimum i) := by
  unfold copyFrameArgument
  infer_instance

instance (dest : Reg) (offset : Nat) (length : Reg) (slots minimum : Nat) :
    Obeys R (copyFrameArguments dest offset length slots minimum) := by
  unfold copyFrameArguments
  infer_instance

instance (dest length : Reg) (minimum : Nat) : Obeys R (fillUndefined dest length minimum) := by
  unfold fillUndefined
  infer_instance

/-! ## Comparisons -/

instance (cell : Reg) : Obeys R (masquerades cell) := by unfold masquerades; infer_instance

set_option synthInstance.maxSize 1000 in
instance (id : NodeId) (value : Reg) (plain : Emit Reg) [plain.Tidy]
    [plain.Obeys R.emitted] :
    Obeys R (undefinedLike id value plain) := by
  unfold undefinedLike
  infer_instance

set_option synthInstance.maxSize 400 in
instance (string : Reg) : Obeys R (stringTruth string) := by unfold stringTruth; infer_instance

set_option synthInstance.maxSize 1000 in
instance (id : NodeId) (value : Reg) : Obeys R (valueTruth id value) := by
  unfold valueTruth
  infer_instance

instance (value : Reg) (query : Lower Reg) [Tidy query] [Obeys R query] :
    Obeys R (cellQuery value query) := by
  unfold cellQuery
  infer_instance

set_option synthInstance.maxSize 400 in
instance (cell : Reg) : Obeys R (isPlainObject cell) := by unfold isPlainObject; infer_instance

/-! ## Properties -/

instance (cell : Reg) : Obeys R (loadStructureId cell) := by unfold loadStructureId; infer_instance

instance (object : Reg) (slots : Nat) : Obeys R (reallocateStorage object slots) := by
  unfold reallocateStorage
  infer_instance

instance (cell : Reg) (offset : PropertyOffset) : Obeys R (slotBase cell offset) := by
  unfold slotBase
  infer_instance

instance (base : Reg) (offset : PropertyOffset) : Obeys R (loadProperty base offset) := by
  unfold loadProperty
  infer_instance

instance (value base : Reg) (offset : PropertyOffset) :
    Obeys R (storeProperty value base offset) := by
  unfold storeProperty
  infer_instance

instance (value : NodeId) (cell : Reg) : Obeys R (barrierFor value cell) := by
  unfold barrierFor
  infer_instance

instance (base : Reg) (method : ReadMethod) : Obeys R (readCase base method) := by
  unfold readCase
  split <;> infer_instance

instance (c : WriteCase) : Obeys R (needsGrowth c) := by unfold needsGrowth; infer_instance

instance (base : Reg) (c : WriteCase) : Obeys R (writeBase base c) := by
  unfold writeBase
  split <;> infer_instance

instance (base value : Reg) (c : WriteCase) : Obeys R (writeCase base value c) := by
  unfold writeCase
  split <;> infer_instance

/-! ## Scopes and objects -/

instance (object : Reg) (s : Structure) (locations : List PromotedLocation) (values : List Reg) :
    Obeys R (storeNamedFields object s locations values) := by
  have (butterfly : Reg) (field : PromotedLocation × Reg) : Obeys R (match field with
      | (location, value) => match location with
        | .namedProperty identifier => do
          match s.offsetOf? identifier with
          | none => crash (.noSlotFor s.id ((← read).graph.identifier identifier))
          | some offset =>
            storeProperty value (if offset.isInline then object else butterfly) offset
        | _ => return () : Lower Unit) := by
    dsimp only
    split
    · split <;> infer_instance
    · infer_instance
  unfold storeNamedFields
  infer_instance

instance (s : Structure) (locations : List PromotedLocation) (values : List Reg) :
    Obeys R (materializeAs s locations values) := by
  unfold materializeAs
  infer_instance

end

/-! # Steps that read uses -/

section

variable {R' : Law} {node : Node} [R.Speculates] [R.ReadsUses node] [R'.Lowers]

instance (form : Edge → Lower Reg) [hf : ∀ e : {e // e ∈ node.children}, Obeys R (form e.1)] :
    Obeys R (asBoth form node) :=
  obeys_child fun e he => .bind (hf ⟨e, he⟩) fun _ => obeys_child fun e he =>
    .bind (hf ⟨e, he⟩) fun _ => inferInstance

/-! ## Conversions -/

instance (id : NodeId) : Staged R R' (lowerIdentity id node) := by
  unfold lowerIdentity
  split <;> infer_instance

instance (e : Edge) [R.Reads e] : Obeys R (dischargeUse e) := by
  unfold dischargeUse
  split
  · infer_instance
  refine .bind inferInstance fun recorded => .bind inferInstance fun node => ?_
  split
  · infer_instance
  · split <;> infer_instance

instance : Obeys R (dischargeUses node) := by
  refine .forM fun e he => ?_
  have : R.Reads e := Law.ReadsUses.reads e he
  infer_instance

set_option synthInstance.maxSize 400 in
instance (id : NodeId) : Staged R R' (lowerDoubleRep id node) := by
  refine staged_child fun e he => ?_
  have : R.Reads e := Law.ReadsUses.reads e he
  split <;> infer_instance

instance (id : NodeId) : Staged R R' (lowerValueRep id node) := by
  refine staged_child fun e he => ?_
  have : R.Reads e := Law.ReadsUses.reads e he
  split <;> infer_instance

instance (id : NodeId) : Staged R R' (lowerInt52Rep id node) := by
  refine staged_child fun e he => ?_
  have : R.Reads e := Law.ReadsUses.reads e he
  split <;> infer_instance

instance (id : NodeId) : Staged R R' (lowerBooleanToNumber id node) := by
  refine staged_child fun e he => ?_
  have : R.Reads e := Law.ReadsUses.reads e he
  split <;> infer_instance

instance (id : NodeId) (mode : ArithMode) :
    Staged R R' (lowerDoubleAsInt32 id node mode) := by
  unfold lowerDoubleAsInt32
  infer_instance

instance (id : NodeId) : Staged R R' (lowerValueToInt32 id node) := by
  refine staged_child fun e he => ?_
  have : R.Reads e := Law.ReadsUses.reads e he
  split <;> infer_instance

instance (id : NodeId) (mode : ArithMode) :
    Staged R R' (lowerUInt32ToNumber id node mode) := by
  unfold lowerUInt32ToNumber
  split <;> infer_instance

/-! ## Arithmetic -/

instance (id : NodeId) (op : FBinaryOp) : Staged R R' (lowerDoubleArith id node op) := by
  unfold lowerDoubleArith
  infer_instance

instance (id : NodeId) (mode : ArithMode) (op : BinaryOp) (overflow : OverflowOp)
    (double : FBinaryOp) :
    Staged R R' (lowerAddSub id node mode op overflow double) := by
  unfold lowerAddSub
  split <;> infer_instance

set_option synthInstance.maxSize 400 in
instance (id : NodeId) (mode : ArithMode) : Staged R R' (lowerMul id node mode) := by
  unfold lowerMul
  split <;> infer_instance

set_option synthInstance.maxSize 400 in
instance (id : NodeId) (mode : ArithMode) : Staged R R' (lowerDiv id node mode) := by
  unfold lowerDiv
  split <;> infer_instance

instance (id : NodeId) (mode : ArithMode) : Staged R R' (lowerMod id node mode) := by
  unfold lowerMod
  split <;> infer_instance

set_option synthInstance.maxSize 1000 in
instance (id : NodeId) (mode : ArithMode) : Staged R R' (lowerNegate id node mode) := by
  unfold lowerNegate
  split <;> infer_instance

set_option synthInstance.maxSize 400 in
instance (id : NodeId) (mode : ArithMode) : Staged R R' (lowerAbs id node mode) := by
  unfold lowerAbs
  split <;> infer_instance

instance (id : NodeId) (op : ArithOp) (mode : ArithMode) :
    Staged R R' (lowerArith id node op mode) := by
  unfold lowerArith
  split <;> infer_instance

instance (id : NodeId) (pickLeft : IntCC) (double : FBinaryOp) :
    Staged R R' (lowerMinMax id node pickLeft double) := by
  unfold lowerMinMax
  split <;> infer_instance

instance (id : NodeId) (op : FUnaryOp) : Staged R R' (lowerDoubleUnary id node op) := by
  unfold lowerDoubleUnary
  infer_instance

instance (id : NodeId) (helper : Helper) :
    Staged R R' (lowerMathCall id node helper) := by
  unfold lowerMathCall
  infer_instance

instance (id : NodeId) : Staged R R' (lowerPow id node) := by
  unfold lowerPow
  infer_instance

set_option synthInstance.maxSize 1000 in
instance (id : NodeId) (mode : RoundingMode) : Staged R R' (lowerRound id node mode) := by
  unfold lowerRound
  split <;> infer_instance

instance (id : NodeId) : Staged R R' (lowerClz32 id node) := by
  unfold lowerClz32
  infer_instance

instance (id : NodeId) (op : BitOp) : Staged R R' (lowerBit id node op) := by
  unfold lowerBit
  infer_instance

instance (helper : Helper) : Staged R R' (callOnBoth helper node) := by
  unfold callOnBoth
  infer_instance

instance (id : NodeId) : Staged R R' (lowerValueAdd id node) := by
  unfold lowerValueAdd
  infer_instance

/-! ## Calls -/

instance (id : NodeId) (identifier : IdentifierIndex) :
    Staged R R' (lowerGetById id node identifier) := by
  unfold lowerGetById
  infer_instance

set_option synthInstance.maxSize 400 in
instance (kind : InlineCacheKind) (identifier : IdentifierIndex) :
    Staged R R' (lowerPutById node kind identifier) := by
  unfold lowerPutById
  infer_instance

set_option synthInstance.maxSize 400 in
instance (id : NodeId) : Staged R R' (lowerHasProperty id node) := by
  unfold lowerHasProperty
  infer_instance

instance (id : NodeId) (kind : InlineCacheKind) :
    Staged R R' (lowerCall id node kind) := by
  refine .bind (.mapM fun e he => ?_) fun args => inferInstance
  have : R.Reads e := Law.ReadsUses.reads e he
  infer_instance

set_option synthInstance.maxSize 10000 in
instance (id : NodeId) (kind : InlineCacheKind) (data : VarargsData) :
    Staged R R' (lowerCallVarargs id node kind data) := by
  unfold lowerCallVarargs
  infer_instance

set_option synthInstance.maxSize 4000 in
instance (id : NodeId) (data : VarargsData) :
    Staged R R' (lowerCallForwardVarargs id node data) := by
  unfold lowerCallForwardVarargs
  infer_instance

set_option synthInstance.maxSize 400 in
instance (data : LoadVarargsData) : Staged R R' (lowerLoadVarargs node data) := by
  unfold lowerLoadVarargs
  infer_instance

instance (data : LoadVarargsData) : Obeys R' (lowerForwardVarargs data) := by
  unfold lowerForwardVarargs
  infer_instance

/-! ## Comparisons -/

instance (left right : Edge) (intCC : IntCC) (floatCC : FloatCC) :
    Obeys R (compareNumbers? node left right intCC floatCC) := by
  unfold compareNumbers?
  infer_instance

instance : Staged R R' (compareStrings node) := by unfold compareStrings; infer_instance

instance : Staged R R' (compareIdents node) := by unfold compareIdents; infer_instance

instance : Staged R R' (compareWords node) := by unfold compareWords; infer_instance

instance (left right : Edge) (op : Comparison) (helper : Helper) :
    Staged R R' (compareOtherwise node left right op helper) := by
  unfold compareOtherwise
  infer_instance

instance (id : NodeId) (op : Comparison) : Staged R R' (lowerCompare id node op) := by
  refine .bind inferInstance fun left => .bind inferInstance fun right => .bind inferInstance
    fun found => ?_
  split <;> infer_instance

instance (id : NodeId) : Staged R R' (lowerEqNull id node) := by
  unfold lowerEqNull
  infer_instance

instance (e : Edge) [R.Reads e] : Staged R R' (truth e) := by
  unfold truth
  split <;> infer_instance

instance (id : NodeId) : Staged R R' (lowerLogicalNot id node) := by
  unfold lowerLogicalNot
  infer_instance

instance (id : NodeId) (query : TypeQuery) :
    Staged R R' (lowerTypeQuery id node query) := by
  refine staged_child fun e he => ?_
  have : R.Reads e := Law.ReadsUses.reads e he
  refine .bind inferInstance fun value => ?_
  split <;> infer_instance

instance (id : NodeId) : Staged R R' (lowerTypeOf id node) := by
  unfold lowerTypeOf
  infer_instance

/-! ## Properties -/

set_option synthInstance.maxSize 400 in
instance (set : StructureSet) : Staged R R' (lowerCheckStructure node set) := by
  unfold lowerCheckStructure
  infer_instance

instance (expected : FrozenValue) : Staged R R' (lowerCheckCell node expected) := by
  unfold lowerCheckCell
  infer_instance

set_option synthInstance.maxSize 400 in
instance : Staged R R' (lowerCheckNotEmpty node) := by
  unfold lowerCheckNotEmpty
  infer_instance

set_option synthInstance.maxSize 400 in
instance : Staged R R' (lowerCheckHasInstance node) := by
  unfold lowerCheckHasInstance
  infer_instance

instance (id : NodeId) : Staged R R' (lowerGetButterfly id node) := by
  unfold lowerGetButterfly
  infer_instance

instance (id : NodeId) (t : Transition) :
    Staged R R' (lowerAllocatePropertyStorage id node t) := by
  unfold lowerAllocatePropertyStorage
  infer_instance

instance (id : NodeId) (t : Transition) :
    Staged R R' (lowerReallocatePropertyStorage id node t) := by
  unfold lowerReallocatePropertyStorage
  infer_instance

instance (storage : Edge) (r : Reg) (offset : PropertyOffset) :
    Obeys R' (slotBaseOf storage r offset) := by
  unfold slotBaseOf
  infer_instance

instance (id : NodeId) (offset : PropertyOffset) :
    Staged R R' (lowerGetByOffset id node offset) := by
  unfold lowerGetByOffset
  infer_instance

theorem mem_of_writeUses {storageUse baseUse valueUse : Edge}
    (h : writeUses node = .ok (storageUse, baseUse, valueUse)) :
    storageUse ∈ node.children ∧ baseUse ∈ node.children ∧ valueUse ∈ node.children := by
  unfold writeUses at h
  split at h <;>
  · obtain ⟨_, hstorage, h⟩ := bind_eq_ok_iff.1 h
    obtain ⟨_, hbase, h⟩ := bind_eq_ok_iff.1 h
    obtain ⟨_, hvalue, h⟩ := bind_eq_ok_iff.1 h
    cases h
    exact ⟨Node.mem_of_child hstorage, Node.mem_of_child hbase, Node.mem_of_child hvalue⟩

set_option synthInstance.maxSize 400 in
instance (offset : PropertyOffset) : Staged R R' (lowerPutByOffset node offset) where
  staged env s a s' h := by
    obtain ⟨⟨storageUse, baseUse, valueUse⟩, huses, h⟩ := check_bind_ok h
    obtain ⟨hstorage, hbase, hvalue⟩ := mem_of_writeUses huses
    have : R.Reads storageUse := Law.ReadsUses.reads storageUse hstorage
    have : R.Reads baseUse := Law.ReadsUses.reads baseUse hbase
    have : R.Reads valueUse := Law.ReadsUses.reads valueUse hvalue
    dsimp only at h
    exact Staged.staged env s a s' h

instance (t : Transition) : Staged R R' (lowerPutStructure node t) := by
  unfold lowerPutStructure
  infer_instance

/-! ## Scopes and objects -/

instance (id : NodeId) (address : Word) : Obeys R' (lowerGetGlobalVar id address) := by
  unfold lowerGetGlobalVar
  infer_instance

instance (address : Word) : Staged R R' (lowerPutGlobalVar node address) := by
  unfold lowerPutGlobalVar
  infer_instance

instance (id : NodeId) (field : CellField) :
    Staged R R' (lowerLoadLink id node field) := by
  unfold lowerLoadLink
  infer_instance

instance (id : NodeId) (offset : Except Fault Int) :
    Staged R R' (lowerGetSlot id node offset) := by
  unfold lowerGetSlot
  infer_instance

set_option synthInstance.maxSize 400 in
instance (offset : Except Fault Int) : Staged R R' (lowerPutSlot node offset) := by
  unfold lowerPutSlot
  infer_instance

instance (id : NodeId) (index : Nat) :
    Staged R R' (lowerGetClosureVar id node index) := by
  unfold lowerGetClosureVar
  infer_instance

instance (index : Nat) : Staged R R' (lowerPutClosureVar node index) := by
  unfold lowerPutClosureVar
  infer_instance

instance (id : NodeId) (index : Nat) :
    Staged R R' (lowerGetFromArguments id node index) := by
  unfold lowerGetFromArguments
  infer_instance

instance (index : Nat) : Staged R R' (lowerPutToArguments node index) := by
  unfold lowerPutToArguments
  infer_instance

instance (id : NodeId) (structureId : StructureId) : Obeys R' (lowerNewObject id structureId) := by
  unfold lowerNewObject
  infer_instance

set_option synthInstance.maxSize 400 in
instance (id : NodeId) : Staged R R' (lowerNewFunction id node) := by
  unfold lowerNewFunction
  infer_instance

instance (id : NodeId) (structureId : StructureId) :
    Staged R R' (lowerCreateActivation id node structureId) := by
  unfold lowerCreateActivation
  infer_instance

instance (id : NodeId) (helper : Helper) : Obeys R' (lowerCreateArguments id helper) := by
  unfold lowerCreateArguments
  infer_instance

instance (id : NodeId) : Staged R R' (lowerCreateScopedArguments id node) := by
  unfold lowerCreateScopedArguments
  infer_instance

instance : Obeys R (fieldValues node) := by
  unfold fieldValues
  split
  · infer_instance
  · rename_i first fields hchildren
    refine .mapM fun e he => ?_
    have hmem : e ∈ node.children := by simp [hchildren, he]
    have : R.Reads e := Law.ReadsUses.reads e hmem
    infer_instance

instance (id : NodeId) (data : MaterializeData) :
    Staged R R' (lowerMaterializeActivation id node data) := by
  have (activation : Reg) (field : PromotedLocation × Reg) : Obeys R' (match field with
      | (location, value) => match location with
        | .closureVar index =>
          do Emit.store64 value activation (← (← read).layout.closureVarOffset index)
        | .activationSymbolTable => storeField .w64 value activation .activationSymbolTable
        | _ => return () : Lower Unit) := by
    dsimp only
    split <;> infer_instance
  unfold lowerMaterializeActivation
  split <;> infer_instance

/-! ## Objects and strings -/

set_option synthInstance.maxSize 4000 in
instance (id : NodeId) : Staged R R' (lowerToThis id node) := by
  unfold lowerToThis
  infer_instance

set_option synthInstance.maxSize 400 in
instance (id : NodeId) : Staged R R' (lowerToPrimitive id node) := by
  unfold lowerToPrimitive
  infer_instance

set_option synthInstance.maxSize 400 in
instance (id : NodeId) : Staged R R' (lowerToString id node) := by
  unfold lowerToString
  infer_instance

instance (id : NodeId) : Staged R R' (lowerMakeRope id node) := by
  refine .bind inferInstance fun operands => ?_
  dsimp only
  split
  · rename_i e he
    have : R.Reads e := Law.ReadsUses.reads e (List.mem_of_getElem? he)
    infer_instance
  · infer_instance

set_option synthInstance.maxSize 400 in
instance (id : NodeId) : Staged R R' (lowerInstanceOf id node) := by
  unfold lowerInstanceOf
  infer_instance

end

/-! ## Dispatches -/

/-- Leaving ends the current block. -/
theorem exitHere_closed {env : Env} {s s' : State} {kind : ExitKind} {profile : Option Reg}
    {u : Unit} (hw : s.builder.WellFormed) (h : exitHere kind profile env s = .ok (u, s')) :
    s'.builder.IsClosed s'.builder.current.index := by
  obtain ⟨⟨exit, captured⟩, s₁, h₁, h⟩ := bind_ok h
  have e₁ := Tidy.after h₁ (.refl hw)
  obtain ⟨_, s₂, h₂, h⟩ := bind_ok h
  obtain ⟨-, c₂⟩ := terminate_after h₂ (by simp) e₁
  cases h
  exact c₂

/-- A dispatch ends the block it starts in, if its last case is not tested or what stands behind the
cases ends its block. -/
theorem dispatch_after {env : Env} {s₀ : State} {P : List BlockId} {join : BlockId}
    {exhaustive : Bool}
    {test : α → Lower Reg} {body : α → Lower (List Reg)} {miss : Lower Unit} [∀ c, Tidy (test c)]
    [∀ c, Tidy (body c)] [Tidy miss] {cases : List α} {s s' : State} {u : Unit}
    (h : dispatch join exhaustive test body miss cases env s = .ok (u, s'))
    (e : s₀.builder.Emits P s.builder)
    (hmiss : cases = [] ∨ exhaustive = false → ∀ s s' u, s.builder.WellFormed →
      miss env s = .ok (u, s') →
      s'.builder.IsClosed s'.builder.current.index) :
    s₀.builder.Emits P s'.builder ∧ s'.builder.IsClosed s'.builder.current.index := by
  induction cases generalizing s P with
  | nil =>
    rw [dispatch] at h
    exact ⟨Tidy.after h e, hmiss (.inl rfl) s s' u e.after h⟩
  | cons c rest ih =>
    rw [dispatch] at h
    split at h
    · obtain ⟨args, s₁, h₁, h⟩ := bind_ok h
      exact terminate_after h (by simp) (Tidy.after h₁ e)
    · rename_i hlast
      obtain ⟨found, s₁, h₁, h⟩ := bind_ok h
      have e₁ := Tidy.after h₁ e
      obtain ⟨hit, s₂, h₂, h⟩ := bind_ok h
      have e₂ := createBlock_after h₂ e₁
      obtain ⟨next, s₃, h₃, h⟩ := bind_ok h
      have e₃ := createBlock_after h₃ e₂
      obtain ⟨_, s₄, h₄, h⟩ := bind_ok h
      obtain ⟨e₄, c₄⟩ := terminate_after h₄ (by simp) e₃
      obtain ⟨_, s₅, h₅, h⟩ := bind_ok h
      have e₅ := switchTo_after h₅ e₄ c₄ (by simp)
      obtain ⟨args, s₆, h₆, h⟩ := bind_ok h
      have e₆ := Tidy.after h₆ e₅
      obtain ⟨_, s₇, h₇, h⟩ := bind_ok h
      obtain ⟨e₇, c₇⟩ := terminate_after h₇ (by simp) e₆
      obtain ⟨_, s₈, h₈, h⟩ := bind_ok h
      have hnext : next ∈ ((P ++ [hit] ++ [next]).erase hit) := by
        have hne := (List.nodup_append.1 e₃.distinct).2.2 hit (by simp) next (by simp)
        exact (List.mem_erase_of_ne (Ne.symm hne)).2 (by simp)
      have e₈ := switchTo_after h₈ e₇ c₇ hnext
      have hP : (((P ++ [hit] ++ [next]).erase hit).erase next) = P := by
        have hhit : hit ∉ P := fun hm => (List.nodup_append.1 e₂.distinct).2.2 hit hm hit (by simp)
          rfl
        have hnot : next ∉ P := fun hm =>
          (List.nodup_append.1 e₃.distinct).2.2 next (by simp [hm]) next (by simp) rfl
        rw [List.append_assoc, List.erase_append_right _ hhit]
        simp [List.erase_append_right _ hnot]
      rw [hP] at e₈
      refine ih h e₈ fun hor => hmiss (hor.elim (fun hr => .inr ?_) .inr)
      subst hr
      simpa using hlast

/-- A dispatch and the block where its cases join. -/
theorem dispatch_join_after {env : Env} {s₀ : State} {join : BlockId} {exhaustive : Bool}
    {test : α → Lower Reg} {body : α → Lower (List Reg)} {miss : Lower Unit} [∀ c, Tidy (test c)]
    [∀ c, Tidy (body c)] [Tidy miss] {cases : List α} {f : Unit → Lower β} {s : State}
    {r : β × State}
    (h : (inArm (dispatch join exhaustive test body miss cases) >>= fun _ =>
      liftM (Emit.switchTo join) >>= f) env s = .ok r)
    (e : s₀.builder.Emits [join] s.builder)
    (hmiss : cases = [] ∨ exhaustive = false → ∀ s s' u, s.builder.WellFormed →
      miss env s = .ok (u, s') →
      s'.builder.IsClosed s'.builder.current.index) :
    ∃ s', s₀.builder.Emits [] s'.builder ∧ f () env s' = .ok r := by
  obtain ⟨_, s₁, h₁, h⟩ := bind_ok h
  obtain ⟨s₂, h₂, rfl⟩ := inArm_ok h₁
  obtain ⟨e₂, c₂⟩ := dispatch_after h₂ e hmiss
  obtain ⟨_, s₃, h₃, h⟩ := bind_ok h
  have e₃ := switchTo_after h₃ e₂ c₂ (by simp)
  exact ⟨s₃, by simpa using e₃, h⟩

/-- A polymorphic read after the cell was read. -/
def readByStructure (id : NodeId) (base : Reg) (known : StructureFact) (cases : List ReadCase) :
    Lower Unit := do
  let cases := possibleCases known ReadCase.structures cases
  if cases.isEmpty then terminate .badCache
  else
    let join ← Emit.createBlock false
    let result ← Emit.blockParam join .i64
    let current ← loadStructureId base
    inArm <| dispatch join (coveredBy known ReadCase.structures cases)
      (fun c => structureIn current c.structures)
      (fun c => return [← readCase base c.method])
      (exitHere .badCache (some base)) cases
    Emit.switchTo join
    setResult id result

/-- A polymorphic write after the cell and the value were read. -/
def writeByStructure (base value : Reg) (written : NodeId) (known : StructureFact)
    (cases : List WriteCase) : Lower Unit := do
  let cases := possibleCases known WriteCase.oldStructures cases
  if cases.isEmpty then terminate .badCache
  else
    let join ← Emit.createBlock false
    let current ← loadStructureId base
    inArm <| dispatch join (coveredBy known WriteCase.oldStructures cases)
      (fun c => structureIn current c.oldStructures)
      (fun c => do writeCase base value c; return [])
      (exitHere .badCache (some base)) cases
    Emit.switchTo join
    barrierFor written base

/-- A new object of one of several structures, after the number of the structure was read. -/
def materializeAmong (id : NodeId) (current : Reg) (structures : List Structure)
    (locations : List PromotedLocation) (values : List Reg) : Lower Unit := do
  let join ← Emit.createBlock false
  let result ← Emit.blockParam join .i64
  inArm <| dispatch join true
    (fun s => Emit.icmpImm .eq current s.id.index)
    (fun s => return [← materializeAs s locations values])
    (pure ()) structures
  Emit.switchTo join
  setResult id result

instance (id : NodeId) (base : Reg) (known : StructureFact) (cases : List ReadCase) :
    Tidy (readByStructure id base known cases) := by
  unfold readByStructure
  dsimp only
  split
  · infer_instance
  refine ⟨fun env s a s' h hw => ?_⟩
  obtain ⟨join, s₁, h₁, h⟩ := bind_ok h
  have e₁ := createBlock_after h₁ (.refl hw)
  obtain ⟨result, s₂, h₂, h⟩ := bind_ok h
  have e₂ := blockParam_after h₂ e₁ (by simp)
  obtain ⟨current, s₃, h₃, h⟩ := bind_ok h
  have e₃ := Tidy.after h₃ e₂
  obtain ⟨s₄, e₄, h⟩ := dispatch_join_after h e₃ fun _ _ _ _ => exitHere_closed
  exact Tidy.after h e₄

instance (base value : Reg) (written : NodeId) (known : StructureFact) (cases : List WriteCase) :
    Tidy (writeByStructure base value written known cases) := by
  unfold writeByStructure
  dsimp only
  split
  · infer_instance
  refine ⟨fun env s a s' h hw => ?_⟩
  obtain ⟨join, s₁, h₁, h⟩ := bind_ok h
  have e₁ := createBlock_after h₁ (.refl hw)
  obtain ⟨current, s₂, h₂, h⟩ := bind_ok h
  have e₂ := Tidy.after h₂ e₁
  obtain ⟨s₃, e₃, h⟩ := dispatch_join_after h e₂ fun _ _ _ _ => exitHere_closed
  exact Tidy.after h e₃

theorem tidy_materializeAmong (id : NodeId) (current : Reg) {structures : List Structure}
    (hne : structures ≠ []) (locations : List PromotedLocation) (values : List Reg) :
    Tidy (materializeAmong id current structures locations values) where
  obeys env s a s' h hw := by
    obtain ⟨join, s₁, h₁, h⟩ := bind_ok h
    have e₁ := createBlock_after h₁ (.refl hw)
    obtain ⟨result, s₂, h₂, h⟩ := bind_ok h
    have e₂ := blockParam_after h₂ e₁ (by simp)
    obtain ⟨s₃, e₃, h⟩ := dispatch_join_after h e₂ fun hor => by simp_all
    exact Tidy.after h e₃

set_option synthInstance.maxSize 400 in
instance [R.Rebuilds] {join : BlockId} {exhaustive : Bool} {test : α → Lower Reg}
    {body : α → Lower (List Reg)} {miss : Lower Unit} [∀ c, Obeys R (test c)]
    [∀ c, Obeys R (body c)] [Obeys R miss] (cases : List α) :
    Obeys R (dispatch join exhaustive test body miss cases) := by
  induction cases with
  | nil => exact inferInstanceAs (Obeys R miss)
  | cons c rest ih =>
    rw [dispatch]
    infer_instance

/-- The law holds of the dispatches over structures. -/
class Law.Dispatches (R : Law) : Prop where
  reads : ∀ id base known cases, Obeys R (readByStructure id base known cases)
  writes : ∀ base value written known cases,
    Obeys R (writeByStructure base value written known cases)
  materializes : ∀ id current {structures} locations values, structures ≠ [] →
    Obeys R (materializeAmong id current structures locations values)

instance : (onBuilders Builder.settling).Dispatches where
  reads _ _ _ _ := inferInstance
  writes _ _ _ _ _ := inferInstance
  materializes id current _ locations values hne := tidy_materializeAmong id current hne locations
    values

set_option synthInstance.maxSize 400 in
instance {R' : Law} [hR : R.Dispatches] [hR' : R'.Dispatches] : (R.and R').Dispatches where
  reads id base known cases := by
    have := hR.reads id base known cases
    have := hR'.reads id base known cases
    infer_instance
  writes base value written known cases := by
    have := hR.writes base value written known cases
    have := hR'.writes base value written known cases
    infer_instance
  materializes id current _ locations values hne := by
    have := hR.materializes id current locations values hne
    have := hR'.materializes id current locations values hne
    infer_instance

set_option synthInstance.maxSize 400 in
instance [R.Rebuilds] [R.Lowers] : R.Dispatches where
  reads _ _ _ _ := by
    unfold readByStructure
    infer_instance
  writes _ _ _ _ _ := by
    unfold writeByStructure
    infer_instance
  materializes _ _ _ _ _ _ := by
    unfold materializeAmong
    infer_instance

section

variable {R' : Law} {node : Node} [R.Speculates] [R.ReadsUses node] [R'.Lowers]
  [hR : R'.Dispatches]

instance (id : NodeId) (cases : List ReadCase) :
    Staged R R' (lowerMultiGetByOffset id node cases) := by
  refine staged_child fun e he => ?_
  have : R.Reads e := Law.ReadsUses.reads e he
  refine .bind inferInstance fun base => .bind inferInstance fun known => ?_
  have := hR.reads id base known.structures cases
  exact inferInstanceAs (Staged R R' (readByStructure id base known.structures cases))

instance (cases : List WriteCase) : Staged R R' (lowerMultiPutByOffset node cases) := by
  refine staged_child fun baseUse hbase => staged_child fun valueUse hvalue => ?_
  have : R.Reads baseUse := Law.ReadsUses.reads baseUse hbase
  have : R.Reads valueUse := Law.ReadsUses.reads valueUse hvalue
  refine .bind inferInstance fun base => .bind inferInstance fun value => .bind inferInstance
    fun known => ?_
  have := hR.writes base value valueUse.node known.structures cases
  exact inferInstanceAs
    (Staged R R' (writeByStructure base value valueUse.node known.structures cases))

instance (id : NodeId) (data : MaterializeData) :
    Staged R R' (lowerMaterializeNewObject id node data) := by
  refine .bind inferInstance fun values => .bind inferInstance fun structures => ?_
  split
  · infer_instance
  · infer_instance
  · rename_i hne _
    refine staged_child fun e he => ?_
    have : R.Reads e := Law.ReadsUses.reads e he
    refine .bind inferInstance fun current => ?_
    have := hR.materializes id current data.locations values hne
    exact inferInstanceAs
      (Staged R R' (materializeAmong id current structures data.locations values))

end

end SpecJit.Lowering
