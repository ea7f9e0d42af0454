import SpecJit.Proofs.Lowering.Scoped.Forms
import SpecJit.Proofs.Lowering.Laws.Switch

/-!
# Operations keep to the scoping

One instance for each routine that emits the code of an operation, in the order of the operations. A
routine that records the result of the node in the form that the node declares asks that a register
of its type fits that form (`Fits`).
-/

namespace SpecJit.Lowering

open Lir

variable {α β : Type} {strict : Bool} {env : Env} {Γ Δ : List Fact}

section Operations

variable (id : NodeId) (node : Node)

/-! ## Conversions -/

instance [hn : Named env id node] : Scoped strict env Γ (lowerIdentity id node) fun _ => [] := by
  refine .bind inferInstance fun e => ?_
  split
  · have : Fits strict env id .i32 := .of_result ‹_›
    infer_instance
  · have : Fits strict env id .i64 := .of_result ‹_›
    infer_instance
  · have : Fits strict env id .f64 := .of_result ‹_›
    infer_instance
  · have : Fits strict env id .i32 := .of_result ‹_›
    infer_instance
  · have : Fits strict env id .i64 := .of_result ‹_›
    infer_instance
  · have : Fits strict env id .i64 := .of_result ‹_›
    infer_instance
  · have : Fits strict env id .i64 := .of_result ‹_›
    infer_instance
  · infer_instance

instance (e : Edge) : Scoped strict env Γ (dischargeUse e) fun _ => [] := by
  unfold dischargeUse
  split
  · infer_instance
  refine .bind inferInstance fun recorded => .bind inferInstance fun node => ?_
  split
  · infer_instance
  · split <;> infer_instance

instance : Scoped strict env Γ (dischargeUses node) fun _ => [] := by
  unfold dischargeUses
  infer_instance

set_option synthInstance.maxSize 50000 in
instance (boxed : Reg) [Known Γ boxed .i64] :
    Scoped strict env Γ (notCellToDouble id boxed) fun r => [.reg r .f64] := by
  unfold notCellToDouble
  infer_instance

instance [Fits strict env id .f64] : Scoped strict env Γ (lowerDoubleRep id node) fun _ => [] := by
  refine .bind inferInstance fun _ => ?_
  split <;> infer_instance

instance [Fits strict env id .i64] : Scoped strict env Γ (lowerValueRep id node) fun _ => [] := by
  refine .bind inferInstance fun _ => ?_
  split <;> infer_instance

set_option synthInstance.maxSize 50000 in
instance (boxed : Reg) [Known Γ boxed .i64] :
    Scoped strict env Γ (boxedToInt52 id boxed) fun r => [.reg r .i64] := by
  unfold boxedToInt52
  infer_instance

instance [Fits strict env id .i64] : Scoped strict env Γ (lowerInt52Rep id node) fun _ => [] := by
  refine .bind inferInstance fun _ => ?_
  split <;> infer_instance

set_option synthInstance.maxSize 50000 in
instance (double : Reg) (checkNegativeZero : Bool) [Known Γ double .f64] :
    Scoped strict env Γ (doubleToInt32Exact double checkNegativeZero) fun r => [.reg r .i32] := by
  unfold doubleToInt32Exact
  infer_instance

instance (mode : ArithMode) [Fits strict env id .i32] :
    Scoped strict env Γ (lowerDoubleAsInt32 id node mode) fun _ => [] := by
  unfold lowerDoubleAsInt32
  infer_instance

instance (double : Reg) [Known Γ double .f64] :
    Scoped strict env Γ (doubleToInt32Wrapping double) fun r => [.reg r .i32] := by
  unfold doubleToInt32Wrapping
  infer_instance

instance (boxed : Reg) [Known Γ boxed .i64] :
    Scoped strict env Γ (notCellToInt32 id boxed) fun r => [.reg r .i32] := by
  unfold notCellToInt32
  infer_instance

instance [Fits strict env id .i32] :
    Scoped strict env Γ (lowerValueToInt32 id node) fun _ => [] := by
  refine .bind inferInstance fun _ => ?_
  split <;> infer_instance

/-- The type of a number that is declared to have a result. -/
@[reducible] def numberType : NodeResult → Ty
  | .int32 => .i32
  | .double => .f64
  | _ => .i64

instance (mode : ArithMode) [Fits strict env id (numberType node.result)] :
    Scoped strict env Γ (lowerUInt32ToNumber id node mode) fun _ => [] := by
  unfold lowerUInt32ToNumber
  generalize node.result = result at *
  cases result <;> infer_instance

/-- A boolean that is known to be one gives an int32 if that is asked for, and a boxed number
otherwise. -/
def booleanNumberType (node : Node) : Ty :=
  if node.result == .int32 && (node.children.head?.any fun e => e.useKind.isBoolean) then .i32
    else .i64

instance [hf : Fits strict env id (booleanNumberType node)] :
    Scoped strict env Γ (lowerBooleanToNumber id node) fun _ => [] := by
  refine scoped_child fun e he => ?_
  have hhead : node.children.head? = some e := by rw [List.head?_eq_getElem?]; exact he
  rw [booleanNumberType, hhead] at hf
  have hknown (h : e.useKind.isBoolean = true) (flag : Reg) (Γ : List Fact) [Known Γ flag .i32] :
    Scoped strict env Γ (do
      setResult id (← if node.result == .int32 then pure flag else liftM (boxInt32 flag)) :
        Lower Unit) fun _ => [] := by
    by_cases hr : (node.result == .int32) = true
    · have : Fits strict env id .i32 := by simpa [hr, h] using hf
      simp only [hr, if_true]
      infer_instance
    · have : Fits strict env id .i64 := by simpa [hr] using hf
      simp only [hr, if_false, Bool.false_eq_true]
      infer_instance
  split
  · have := hknown (by simp [UseKind.isBoolean, *])
    infer_instance
  · have := hknown (by simp [UseKind.isBoolean, *])
    infer_instance
  · rename_i hb hk
    have hboolean : e.useKind.isBoolean = false := by
      cases hu : e.useKind <;> simp_all [UseKind.isBoolean]
    have : Fits strict env id .i64 := by simpa [hboolean] using hf
    infer_instance

/-! ## Arithmetic -/

theorem scoped_unexpectedResult {P : α → List Fact} {node : Node} :
    Scoped strict env Γ (unexpectedResult node : Lower α) P :=
  scoped_crash

instance (form : Edge → Lower Reg) {ty : Ty}
    [∀ Γ e, Scoped strict env Γ (form e) fun r => [.reg r ty]] :
    Scoped strict env Γ (asBoth form node) fun p => [.reg p.1 ty, .reg p.2 ty] := by
  unfold asBoth
  infer_instance

instance (op : FBinaryOp) [Fits strict env id .f64] :
    Scoped strict env Γ (lowerDoubleArith id node op) fun _ => [] := by
  unfold lowerDoubleArith
  infer_instance

instance (mode : ArithMode) (kind : ExitKind) (op : OverflowOp) (lhs rhs : Reg) {ty : Ty}
    [Known Γ lhs ty] [Known Γ rhs ty] [IntTy ty] :
    Scoped strict env Γ (checkOverflow mode kind op lhs rhs) fun _ => [] := by
  unfold checkOverflow
  infer_instance

instance (mode : ArithMode) (x y : Emit Reg) [x.Scoped strict Γ fun r => [.reg r .i32]]
    [hy : ∀ Δ, y.Scoped strict (Δ ++ Γ) fun r => [.reg r .i32]] :
    Scoped strict env Γ (checkNegativeZero mode x y) fun _ => [] := by
  unfold checkNegativeZero
  infer_instance

instance (lhs rhs : Reg) {ty : Ty} [Known Γ lhs ty] [Known Γ rhs ty] [IntTy ty] :
    (eitherNegative lhs rhs).Scoped strict Γ fun r => [.reg r .i32] := by
  unfold eitherNegative
  infer_instance

instance (mode : ArithMode) (op : BinaryOp) (overflow : OverflowOp) (double : FBinaryOp)
    [Named env id node] :
    Scoped strict env Γ (lowerAddSub id node mode op overflow double) fun _ => [] := by
  unfold lowerAddSub
  split
  · have : Fits strict env id .i32 := .of_result ‹_›
    infer_instance
  · infer_instance
  · have : Fits strict env id .f64 := .of_result ‹_›
    infer_instance
  · exact scoped_unexpectedResult

instance (mode : ArithMode) (kind : ExitKind) (lhs rhs : Reg) {ty : Ty} [Known Γ lhs ty]
    [Known Γ rhs ty] [IntTy ty] :
    Scoped strict env Γ (multiply mode kind lhs rhs) fun r => [.reg r ty] := by
  unfold multiply
  infer_instance

instance (mode : ArithMode) [Named env id node] :
    Scoped strict env Γ (lowerMul id node mode) fun _ => [] := by
  unfold lowerMul
  split
  · have : Fits strict env id .i32 := .of_result ‹_›
    infer_instance
  · infer_instance
  · have : Fits strict env id .f64 := .of_result ‹_›
    infer_instance
  · exact scoped_unexpectedResult

instance (mode : ArithMode) (numerator denominator : Reg) [Known Γ numerator .i32]
    [Known Γ denominator .i32] :
    Scoped strict env Γ (checkDivision mode numerator denominator) fun _ => [] := by
  unfold checkDivision
  infer_instance

set_option synthInstance.maxSize 50000 in
instance (mode : ArithMode) [Named env id node] :
    Scoped strict env Γ (lowerDiv id node mode) fun _ => [] := by
  unfold lowerDiv
  split
  · have : Fits strict env id .i32 := .of_result ‹_›
    infer_instance
  · have : Fits strict env id .f64 := .of_result ‹_›
    infer_instance
  · exact scoped_unexpectedResult

instance (helper : Helper) (args : List Reg) [hargs : KnownAll Γ args .f64] :
    Scoped strict env Γ (callOnDoubles helper args) fun r => [.reg r .f64] := by
  have : Scoped strict env Γ (args.mapM fun r => liftM (Emit.bitcastToInt r) : Lower (List Reg))
    fun rs => [.all rs .i64] :=
    scoped_mapM fun r hr Δ => by
      have : Known (Δ ++ Γ) r .f64 := ⟨fun h => hargs.holds h.right r hr⟩
      infer_instance
  unfold callOnDoubles
  infer_instance

instance (mode : ArithMode) [Named env id node] :
    Scoped strict env Γ (lowerMod id node mode) fun _ => [] := by
  unfold lowerMod
  split
  · have : Fits strict env id .i32 := .of_result ‹_›
    infer_instance
  · have : Fits strict env id .f64 := .of_result ‹_›
    infer_instance
  · exact scoped_unexpectedResult

instance (mode : ArithMode) (value : Reg) {ty : Ty} [Known Γ value ty] [IntTy ty] :
    Scoped strict env Γ (checkNegatedZero mode value) fun _ => [] := by
  unfold checkNegatedZero
  infer_instance

set_option synthInstance.maxSize 50000 in
instance (mode : ArithMode) [Named env id node] :
    Scoped strict env Γ (lowerNegate id node mode) fun _ => [] := by
  unfold lowerNegate
  split
  · have : Fits strict env id .i32 := .of_result ‹_›
    infer_instance
  · infer_instance
  · have : Fits strict env id .f64 := .of_result ‹_›
    infer_instance
  · exact scoped_unexpectedResult

set_option synthInstance.maxSize 50000 in
instance (mode : ArithMode) [Named env id node] :
    Scoped strict env Γ (lowerAbs id node mode) fun _ => [] := by
  unfold lowerAbs
  split
  · have : Fits strict env id .i32 := .of_result ‹_›
    infer_instance
  · have : Fits strict env id .f64 := .of_result ‹_›
    infer_instance
  · exact scoped_unexpectedResult

instance (op : ArithOp) (mode : ArithMode) [Named env id node] :
    Scoped strict env Γ (lowerArith id node op mode) fun _ => [] := by
  unfold lowerArith
  split <;> infer_instance

instance (pickLeft : IntCC) (double : FBinaryOp) [Named env id node] :
    Scoped strict env Γ (lowerMinMax id node pickLeft double) fun _ => [] := by
  unfold lowerMinMax
  split
  · have : Fits strict env id .i32 := .of_result ‹_›
    infer_instance
  · have : Fits strict env id .f64 := .of_result ‹_›
    infer_instance
  · exact scoped_unexpectedResult

instance (op : FUnaryOp) [Fits strict env id .f64] :
    Scoped strict env Γ (lowerDoubleUnary id node op) fun _ => [] := by
  unfold lowerDoubleUnary
  infer_instance

instance (helper : Helper) [Fits strict env id .f64] :
    Scoped strict env Γ (lowerMathCall id node helper) fun _ => [] := by
  unfold lowerMathCall
  infer_instance

instance [Fits strict env id .f64] : Scoped strict env Γ (lowerPow id node) fun _ => [] := by
  unfold lowerPow
  infer_instance

/-- The type of a rounded number. -/
@[reducible] def roundedType : RoundingMode → Ty
  | .double => .f64
  | .int32 | .int32WithNegativeZeroCheck => .i32

set_option synthInstance.maxSize 50000 in
instance (mode : RoundingMode) [Fits strict env id (roundedType mode)] :
    Scoped strict env Γ (lowerRound id node mode) fun _ => [] := by
  unfold lowerRound
  cases mode <;> infer_instance

instance [Fits strict env id .i32] : Scoped strict env Γ (lowerClz32 id node) fun _ => [] := by
  unfold lowerClz32
  infer_instance

instance (op : BitOp) [Fits strict env id .i32] :
    Scoped strict env Γ (lowerBit id node op) fun _ => [] := by
  unfold lowerBit
  infer_instance

instance (helper : Helper) :
    Scoped strict env Γ (callOnBoth helper node) fun r => [.reg r .i64] := by
  unfold callOnBoth
  infer_instance

instance [Fits strict env id .i64] : Scoped strict env Γ (lowerValueAdd id node) fun _ => [] := by
  unfold lowerValueAdd
  infer_instance

/-! ## Allocation -/

section Allocation

variable (cell value : Reg) [Known Γ cell .i64]

instance (field : CellField) :
    Scoped strict env Γ (loadField64 cell field) fun r => [.reg r .i64] := by
  unfold loadField64
  infer_instance

instance (field : CellField) :
    Scoped strict env Γ (loadField32 cell field) fun r => [.reg r .i32] := by
  unfold loadField32
  infer_instance

instance (field : CellField) :
    Scoped strict env Γ (loadField8 cell field) fun r => [.reg r .i32] := by
  unfold loadField8
  infer_instance

instance (field : CellField) [Known Γ value .i64] :
    Scoped strict env Γ (storeField .w64 value cell field) fun _ => [] := by
  unfold storeField
  infer_instance

instance (field : CellField) [Known Γ value .i32] :
    Scoped strict env Γ (storeField .w32 value cell field) fun _ => [] := by
  unfold storeField
  infer_instance

instance (field : CellField) [Known Γ value .i32] :
    Scoped strict env Γ (storeField .w8 value cell field) fun _ => [] := by
  unfold storeField
  infer_instance

instance (id : StructureId) : Scoped strict env Γ (storeStructureId cell id) fun _ => [] := by
  unfold storeStructureId
  infer_instance

set_option synthInstance.maxSize 50000 in
instance (s : Structure) : Scoped strict env Γ (initializeHeader cell s) fun _ => [] := by
  unfold initializeHeader
  infer_instance

instance (capacity : Nat) [Known Γ value .i64] :
    Scoped strict env Γ (fillInlineSlots cell value capacity) fun _ => [] := by
  unfold fillInlineSlots
  infer_instance

end Allocation

instance (bytes : Nat) : Scoped strict env Γ (allocateCell bytes) fun r => [.reg r .i64] := by
  unfold allocateCell
  split <;> infer_instance

set_option synthInstance.maxSize 50000 in
instance (bytes : Reg) [Known Γ bytes .i64] :
    Scoped strict env Γ (allocateStorage bytes) fun r => [.reg r .i64] := by
  unfold allocateStorage
  infer_instance

set_option synthInstance.maxSize 50000 in
instance (outOfLine : Nat) (publicLength vectorLength : Reg) [Known Γ publicLength .i32]
    [Known Γ vectorLength .i32] :
    Scoped strict env Γ (allocateButterfly outOfLine publicLength vectorLength) fun r =>
      [.reg r .i64] := by
  unfold allocateButterfly
  infer_instance

instance (object : Reg) (outOfLine : Nat) [Known Γ object .i64] :
    Scoped strict env Γ (attachButterfly object outOfLine) fun r => [.reg r .i64] := by
  unfold attachButterfly
  infer_instance

set_option synthInstance.maxSize 50000 in
instance (s : Structure) : Scoped strict env Γ (allocateObject s) fun r => [.reg r .i64] := by
  unfold allocateObject
  infer_instance

set_option synthInstance.maxSize 50000 in
instance (s : Structure) (scope : Reg) [Known Γ scope .i64] :
    Scoped strict env Γ (allocateActivation s scope) fun r => [.reg r .i64] := by
  unfold allocateActivation
  infer_instance

/-! ## Calls -/

instance (kind : InlineCacheKind) (identifier : Option IdentifierIndex) (count : Nat) :
    Scoped strict env Γ (newSite kind identifier count) fun _ => [] :=
  scoped_still fun _ _ _ h => by cases h; exact ⟨rfl, rfl, rfl, rfl, rfl⟩

/-- The type of what a site returns: a boolean is unboxed. -/
def siteType (result : NodeResult) : Ty := if result == .boolean then .i32 else .i64

instance (value : Reg) [Known Γ value .i64] [hn : Named env id node]
    [hf : Fits strict env id (siteType node.result)] :
    Scoped strict env Γ (setSiteResult id value) fun _ => [] := by
  refine scoped_getNode fun node' hn' => ?_
  rw [hn.unique hn']
  rw [siteType] at hf
  split
  · rw [if_pos ‹_›] at hf
    infer_instance
  · rw [if_neg ‹_›] at hf
    infer_instance

section Calls

variable [Named env id node] [Fits strict env id (siteType node.result)]

instance (identifier : IdentifierIndex) :
    Scoped strict env Γ (lowerGetById id node identifier) fun _ => [] := by
  unfold lowerGetById
  infer_instance

set_option synthInstance.maxSize 50000 in
instance : Scoped strict env Γ (lowerHasProperty id node) fun _ => [] := by
  unfold lowerHasProperty
  infer_instance

instance (kind : InlineCacheKind) : Scoped strict env Γ (lowerCall id node kind) fun _ => [] := by
  unfold lowerCall
  infer_instance

end Calls

set_option synthInstance.maxSize 50000 in
instance (kind : InlineCacheKind) (identifier : IdentifierIndex) :
    Scoped strict env Γ (lowerPutById node kind identifier) fun _ => [] := by
  unfold lowerPutById
  infer_instance

section Spread

variable (length dest : Reg) [Known Γ length .i64]

instance (limit : Nat) : Scoped strict env Γ (checkSpreadLimit length limit) fun _ => [] := by
  unfold checkSpreadLimit
  infer_instance

instance : Scoped strict env Γ (checkStackRoom length) fun _ => [] := by
  unfold checkStackRoom
  infer_instance

instance (slot : Operand) : Scoped strict env Γ (storeCount slot length) fun _ => [] := by
  unfold storeCount
  infer_instance

set_option synthInstance.maxSize 50000 in
instance (first : Int) (minimum i : Nat) [Known Γ dest .i64] :
    Scoped strict env Γ (copyFrameArgument dest length first minimum i) fun _ => [] := by
  unfold copyFrameArgument
  infer_instance

instance (offset slots minimum : Nat) [Known Γ dest .i64] :
    Scoped strict env Γ (copyFrameArguments dest offset length slots minimum) fun _ => [] := by
  unfold copyFrameArguments
  infer_instance

instance (minimum : Nat) [Known Γ dest .i64] :
    Scoped strict env Γ (fillUndefined dest length minimum) fun _ => [] := by
  unfold fillUndefined
  infer_instance

end Spread

instance (v : Operand) : Scoped strict env Γ (frameAddress v) fun r => [.reg r .i64] := by
  unfold frameAddress
  infer_instance
instance : Scoped strict env Γ outgoingArea fun r => [.reg r .i64] := by
  unfold outgoingArea
  infer_instance

instance (start : Operand) :
    Scoped strict env Γ (spreadDestination start) fun r => [.reg r .i64] := by
  unfold spreadDestination
  split
  · infer_instance
  · exact scoped_crash

instance (offset : Nat) : Scoped strict env Γ (forwardedLength offset) fun r => [.reg r .i64] := by
  unfold forwardedLength
  infer_instance

instance (source offset : Reg) [Known Γ source .i64] [Known Γ offset .i64] :
    Scoped strict env Γ (spreadLength source offset) fun r => [.reg r .i64] := by
  unfold spreadLength
  infer_instance

section SpreadCalls

variable [Named env id node] [Fits strict env id (siteType node.result)]

set_option synthInstance.maxSize 50000 in
instance (kind : InlineCacheKind) (data : VarargsData) :
    Scoped strict env Γ (lowerCallVarargs id node kind data) fun _ => [] := by
  unfold lowerCallVarargs
  infer_instance

set_option synthInstance.maxSize 50000 in
instance (data : VarargsData) :
    Scoped strict env Γ (lowerCallForwardVarargs id node data) fun _ => [] := by
  unfold lowerCallForwardVarargs
  infer_instance

end SpreadCalls

set_option synthInstance.maxSize 50000 in
instance (data : LoadVarargsData) :
    Scoped strict env Γ (lowerLoadVarargs node data) fun _ => [] := by
  unfold lowerLoadVarargs
  infer_instance

instance (data : LoadVarargsData) : Scoped strict env Γ (lowerForwardVarargs data) fun _ => [] := by
  unfold lowerForwardVarargs
  infer_instance

/-! ## Comparisons -/

instance (left right : Edge) (intCC : IntCC) (floatCC : FloatCC) :
    Scoped strict env Γ (compareNumbers? node left right intCC floatCC) fun o =>
      [.all o.toList .i32] := by
  have (r : Reg) (Γ : List Fact) [hr : Known Γ r .i32] :
      Scoped strict env Γ (pure (some r) : Lower (Option Reg)) fun o => [.all o.toList .i32] :=
    scoped_pure fun hΓ => .cons (fun q hq => by
      cases List.mem_singleton.1 hq
      exact hr.holds hΓ) .nil
  have (Γ : List Fact) : Scoped strict env Γ (pure none : Lower (Option Reg)) fun o =>
    [.all o.toList .i32] :=
    scoped_pure fun _ => .cons nofun .nil
  unfold compareNumbers?
  infer_instance

instance : Scoped strict env Γ (compareStrings node) fun r => [.reg r .i32] := by
  unfold compareStrings
  infer_instance
instance : Scoped strict env Γ (compareIdents node) fun r => [.reg r .i32] := by
  unfold compareIdents
  infer_instance
instance : Scoped strict env Γ (compareWords node) fun r => [.reg r .i32] := by
  unfold compareWords
  infer_instance

instance (left right : Edge) (op : Comparison) (helper : Helper) :
    Scoped strict env Γ (compareOtherwise node left right op helper) fun r => [.reg r .i32] := by
  unfold compareOtherwise
  infer_instance

instance (op : Comparison) [Fits strict env id .i32] :
    Scoped strict env Γ (lowerCompare id node op) fun _ => [] := by
  refine .bind inferInstance fun left => .bind inferInstance fun right => .bind inferInstance
    fun found => ?_
  split
  · rename_i r
    have (Δ : List Fact) : Known ([.all (some r).toList .i32] ++ Δ) r .i32 :=
      ⟨fun h => h (.all (some r).toList .i32) (by simp) r (by simp)⟩
    infer_instance
  · infer_instance

instance (cell : Reg) [Known Γ cell .i64] :
    Scoped strict env Γ (masquerades cell) fun r => [.reg r .i32] := by
  unfold masquerades
  infer_instance

instance (value : Reg) (plain : Emit Reg) [Known Γ value .i64]
    [hplain : ∀ Δ, plain.Scoped strict (Δ ++ Γ) fun r => [.reg r .i32]] :
    Scoped strict env Γ (undefinedLike id value plain) fun r => [.reg r .i32] := by
  have (Δ Δ' : List Fact) : plain.Scoped strict (Δ ++ (Δ' ++ Γ)) fun r => [.reg r .i32] := by
    rw [← List.append_assoc]
    exact hplain _
  unfold undefinedLike
  infer_instance

instance [Fits strict env id .i32] : Scoped strict env Γ (lowerEqNull id node) fun _ => [] := by
  unfold lowerEqNull
  infer_instance

instance (value : Reg) [Known Γ value .f64] :
    (doubleTruth value).Scoped strict Γ fun r => [.reg r .i32] := by
  unfold doubleTruth
  infer_instance

set_option synthInstance.maxSize 50000 in
instance (string : Reg) [Known Γ string .i64] :
    Scoped strict env Γ (stringTruth string) fun r => [.reg r .i32] := by
  unfold stringTruth
  infer_instance

set_option synthInstance.maxSize 50000 in
instance (value : Reg) [Known Γ value .i64] :
    Scoped strict env Γ (valueTruth id value) fun r => [.reg r .i32] := by
  unfold valueTruth
  infer_instance

instance (e : Edge) : Scoped strict env Γ (truth e) fun r => [.reg r .i32] := by
  unfold truth
  split <;> infer_instance

instance [Fits strict env id .i32] : Scoped strict env Γ (lowerLogicalNot id node) fun _ => [] := by
  unfold lowerLogicalNot
  infer_instance

instance (value : Reg) (query : Lower Reg) [Known Γ value .i64]
    [∀ Δ, Scoped strict env (Δ ++ Γ) query fun r => [.reg r .i32]] :
    Scoped strict env Γ (cellQuery value query) fun r => [.reg r .i32] := by
  unfold cellQuery
  infer_instance

instance (cell : Reg) [Known Γ cell .i64] :
    Scoped strict env Γ (isPlainObject cell) fun r => [.reg r .i32] := by
  unfold isPlainObject
  infer_instance

instance (query : TypeQuery) [Fits strict env id .i32] :
    Scoped strict env Γ (lowerTypeQuery id node query) fun _ => [] := by
  refine .bind inferInstance fun e => .bind inferInstance fun value => ?_
  split <;> infer_instance

instance [Fits strict env id .i64] : Scoped strict env Γ (lowerTypeOf id node) fun _ => [] := by
  unfold lowerTypeOf
  infer_instance

/-! ## Properties -/

instance (cell : Reg) [Known Γ cell .i64] :
    Scoped strict env Γ (loadStructureId cell) fun r => [.reg r .i32] := by
  unfold loadStructureId
  infer_instance

/-- One more structure after the other. -/
theorem scoped_foldlM_or (current : Reg) [Known Γ current .i32] (ids : List StructureId)
    (found : Reg) [Known Γ found .i32] :
    Emit.Scoped strict Γ
      (ids.foldlM (fun found s => do Emit.binary .or found (← Emit.icmpImm .eq current s.index))
        found)
      fun r => [.reg r .i32] := by
  induction ids generalizing found Γ with
  | nil => exact inferInstanceAs (Emit.Scoped strict Γ (pure found) _)
  | cons s ids ih =>
    rw [List.foldlM_cons]
    have (r : Reg) := ih (Γ := [.reg r .i32] ++ Γ) r
    infer_instance

instance (current : Reg) (set : StructureSet) [Known Γ current .i32] :
    (structureIn current set).Scoped strict Γ fun r => [.reg r .i32] := by
  unfold structureIn
  split
  · infer_instance
  · rename_i first rest _
    have (r : Reg) := @scoped_foldlM_or strict ([.reg r .i32] ++ Γ) current _ rest r _
    infer_instance

set_option synthInstance.maxSize 50000 in
instance (set : StructureSet) : Scoped strict env Γ (lowerCheckStructure node set) fun _ => [] := by
  unfold lowerCheckStructure
  infer_instance

instance (expected : FrozenValue) :
    Scoped strict env Γ (lowerCheckCell node expected) fun _ => [] := by
  unfold lowerCheckCell
  infer_instance

instance : Scoped strict env Γ (lowerCheckNotEmpty node) fun _ => [] := by
  unfold lowerCheckNotEmpty
  infer_instance

set_option synthInstance.maxSize 50000 in
instance : Scoped strict env Γ (lowerCheckHasInstance node) fun _ => [] := by
  unfold lowerCheckHasInstance
  infer_instance

instance [Fits strict env id .i64] :
    Scoped strict env Γ (lowerGetButterfly id node) fun _ => [] := by
  unfold lowerGetButterfly
  infer_instance

instance (t : Transition) [Fits strict env id .i64] :
    Scoped strict env Γ (lowerAllocatePropertyStorage id node t) fun _ => [] := by
  unfold lowerAllocatePropertyStorage
  infer_instance

instance (object : Reg) (slots : Nat) [Known Γ object .i64] :
    Scoped strict env Γ (reallocateStorage object slots) fun r => [.reg r .i64] := by
  unfold reallocateStorage
  infer_instance

instance (t : Transition) [Fits strict env id .i64] :
    Scoped strict env Γ (lowerReallocatePropertyStorage id node t) fun _ => [] := by
  unfold lowerReallocatePropertyStorage
  infer_instance

section Slots

variable (base value : Reg) (offset : PropertyOffset) [Known Γ base .i64]

instance : Scoped strict env Γ (slotBase base offset) fun r => [.reg r .i64] := by
  unfold slotBase
  infer_instance

instance (storage : Edge) :
    Scoped strict env Γ (slotBaseOf storage base offset) fun r => [.reg r .i64] := by
  unfold slotBaseOf
  infer_instance

instance : Scoped strict env Γ (loadProperty base offset) fun r => [.reg r .i64] := by
  unfold loadProperty
  infer_instance

instance [Known Γ value .i64] :
    Scoped strict env Γ (storeProperty value base offset) fun _ => [] := by
  unfold storeProperty
  infer_instance

instance (id : NodeId) : Scoped strict env Γ (barrierFor id base) fun _ => [] := by
  unfold barrierFor
  infer_instance

end Slots

instance (offset : PropertyOffset) [Fits strict env id .i64] :
    Scoped strict env Γ (lowerGetByOffset id node offset) fun _ => [] := by
  unfold lowerGetByOffset
  infer_instance

instance (offset : PropertyOffset) :
    Scoped strict env Γ (lowerPutByOffset node offset) fun _ => [] := by
  unfold lowerPutByOffset
  infer_instance

/-! ## Dispatch -/

section Dispatch

variable {join : BlockId} {exhaustive : Bool} {test : α → Lower Reg} {body : α → Lower (List Reg)}
  {miss : Lower Unit} {tys : List Ty} {S : Scoping} {s s' : State} {u : Unit}

/-- A dispatch inside of an arm. -/
theorem dispatch_follows [Leads Γ [join] tys]
    [htest : ∀ c, Scoped strict env Γ (test c) fun r => [.reg r .i32]]
    [hbody : ∀ c Δ, Scoped strict env (Δ ++ Γ) (body c) fun rs => [.list rs tys]]
    [hmiss : Scoped strict env Γ miss fun _ => []] (cases : List α) (hs : Consistent strict env S s)
    (hΓ : Hold strict S s.builder (s.builder.Here S) Γ) (ha : s.armDepth ≠ 0)
    (h : dispatch join exhaustive test body miss cases env s = .ok (u, s')) :
    ∃ S', Follows strict S s S' s' ∧ Consistent strict env S' s' := by
  induction cases generalizing S s with
  | nil =>
    rw [dispatch] at h
    obtain ⟨S', hF, hC, -⟩ := hmiss.follows S s u s' hs hΓ h
    exact ⟨S', hF, hC⟩
  | cons c rest ih =>
    rw [dispatch] at h
    split at h
    · have hlast : Scoped strict env Γ (do Emit.jump join (← body c) : Lower Unit) fun _ => [] :=
        .bind (hbody c []) fun args => inferInstance
      obtain ⟨S', hF, hC, -⟩ := hlast.follows S s u s' hs hΓ h
      exact ⟨S', hF, hC⟩
    · obtain ⟨found, s₁, h₁, h⟩ := bind_ok h
      obtain ⟨S₁, hF₁, hs₁, hfound⟩ := (htest c).follows S s found s₁ hs hΓ h₁
      have hΓ₁ := hfound.append (hΓ.grow hF₁.grown hF₁.here)
      have ha₁ : s₁.armDepth + 0 ≠ 0 := by rw [hF₁.armDepth]; exact ha
      obtain ⟨hit, s₂, h₂, h⟩ := bind_ok h
      obtain ⟨S₂, d₂, hΓ₂⟩ := (Detour.start hs₁).createBlock hΓ₁ h₂
      obtain ⟨next, s₃, h₃, h⟩ := bind_ok h
      obtain ⟨S₃, d₃, hΓ₃⟩ := d₂.createBlock hΓ₂ h₃
      obtain ⟨_, s₄, h₄, h⟩ := bind_ok h
      obtain ⟨S₄, d₄, -⟩ := d₃.quiet (Γ := .leads [hit] [] :: .leads [next] [] :: _) hs₁
        (.cons (d₃.leads (p := ⟨hit, []⟩) (by simp)) (.cons (d₃.leads (p := ⟨next, []⟩) (by simp))
          hΓ₃)) h₄
      obtain ⟨_, s₅, h₅, h⟩ := bind_ok h
      obtain ⟨d₅, -⟩ := d₄.switchTo (p := ⟨hit, []⟩) (by simp) h₅
      obtain ⟨args, s₆, h₆, h⟩ := bind_ok h
      obtain ⟨S₆, d₆, hΓ₆⟩ := d₅.step (Γ := [.reg found .i32] ++ Γ) hs₁ (d₅.hold hΓ₁) h₆ ha₁
      obtain ⟨_, s₇, h₇, h⟩ := bind_ok h
      obtain ⟨S₇, d₇, -⟩ := d₆.step hs₁ hΓ₆ h₇ ha₁
      obtain ⟨_, s₈, h₈, h⟩ := bind_ok h
      obtain ⟨d₈, -⟩ := d₇.switchTo (p := ⟨next, []⟩) (by simp) h₈
      have hF₈ := hF₁.trans d₈.follows
      obtain ⟨S', hF, hC⟩ := ih (d₈.consistent hs₁) (hΓ.grow hF₈.grown hF₈.here)
        (by rw [hF₈.armDepth]; exact ha) h
      exact ⟨S', hF₈.trans hF, hC⟩

/-- A dispatch and the block where its cases join. -/
theorem Detour.dispatch {S₀ : Scoping} {s₀ : State} {P : List Pending} {p : Pending}
    {f : Unit → Lower β} {r : β × State}
    {cases : List α} [Leads Γ [join] tys]
    [htest : ∀ c, Scoped strict env Γ (test c) fun r => [.reg r .i32]]
    [hbody : ∀ c Δ, Scoped strict env (Δ ++ Γ) (body c) fun rs => [.list rs tys]]
    [hmiss : Scoped strict env Γ miss fun _ => []] (d : Detour strict S₀ s₀ P 0 S s)
    (hs : Consistent strict env S₀ s₀)
    (hΓ : Hold strict S s.builder (s.builder.Here S) Γ) (hp : p ∈ P) (hjoin : p.block = join)
    (h : (inArm (dispatch join exhaustive test body miss cases) >>=
      fun _ => liftM (Emit.switchTo join) >>= f) env s = .ok r) :
    ∃ S' s', Detour strict S₀ s₀ P 0 S' s' ∧ Hold strict S' s'.builder (s'.builder.Here S')
      p.values ∧ f () env s' = .ok r := by
  subst hjoin
  obtain ⟨_, s₂, h₂, h⟩ := bind_ok h
  obtain ⟨s₁, h₁, rfl⟩ := inArm_ok h₂
  obtain ⟨S₁, hF, -⟩ := dispatch_follows cases (d.enter.consistent hs) hΓ (by simp) h₁
  have d₁ := (d.enter.follow hF (by omega)).leave
  obtain ⟨_, s₃, h₃, h⟩ := bind_ok h
  obtain ⟨d₃, hvalues⟩ := d₁.switchTo hp h₃
  exact ⟨S₁, s₃, d₃, hvalues, h⟩

end Dispatch

instance (base : Reg) (method : ReadMethod) [Known Γ base .i64] :
    Scoped strict env Γ (readCase base method) fun r => [.reg r .i64] := by
  unfold readCase
  split <;> infer_instance

instance (cases : List ReadCase) [Fits strict env id .i64] :
    Scoped strict env Γ (lowerMultiGetByOffset id node cases) fun _ => [] := by
  refine .bind inferInstance fun e => .bind inferInstance fun base => .bind inferInstance
    fun known => ?_
  dsimp only
  split
  · infer_instance
  refine ⟨fun S s a s' hs hΓ h => ?_⟩
  obtain ⟨join, s₁, h₁, h⟩ := bind_ok h
  obtain ⟨result, s₂, h₂, h⟩ := bind_ok h
  obtain ⟨S₂, d₂, hΓ₂⟩ := (Detour.start hs).createJoin hΓ h₁ h₂
  obtain ⟨current, s₃, h₃, h⟩ := bind_ok h
  obtain ⟨S₃, d₃, hΓ₃⟩ := d₂.quiet hs hΓ₂ h₃
  obtain ⟨S₄, s₄, d₄, hresult, h⟩ := d₃.dispatch (Γ := .leads [join] [.i64] :: _) (p :=
    ⟨join, [(result, .i64)]⟩) hs
    (.cons (d₃.leads (p := ⟨join, [(result, .i64)]⟩) (by simp)) hΓ₃) (by simp) rfl h
  obtain ⟨S', hF, hC, -⟩ :=
    (inferInstance : Scoped strict env [.reg result .i64] (setResult id result) _).follows
    S₄ s₄ a s' (d₄.consistent hs) hresult h
  exact ⟨S', d₄.follows.trans hF, hC, .nil⟩

instance (f : α → Lower Bool) (l : List α) [∀ Γ a, Scoped strict env Γ (f a) fun _ => []] :
    Scoped strict env Γ (l.anyM f) fun _ => [] := by
  induction l generalizing Γ with
  | nil => exact inferInstanceAs (Scoped strict env Γ (pure false) _)
  | cons a l ih =>
    refine .bind inferInstance fun found => ?_
    split <;> infer_instance

instance (c : WriteCase) : Scoped strict env Γ (needsGrowth c) fun _ => [] := by
  unfold needsGrowth
  infer_instance

instance (base : Reg) (c : WriteCase) [Known Γ base .i64] :
    Scoped strict env Γ (writeBase base c) fun r => [.reg r .i64] := by
  unfold writeBase
  split <;> infer_instance

instance (base value : Reg) (c : WriteCase) [Known Γ base .i64] [Known Γ value .i64] :
    Scoped strict env Γ (writeCase base value c) fun _ => [] := by
  unfold writeCase
  split <;> infer_instance

instance (cases : List WriteCase) :
    Scoped strict env Γ (lowerMultiPutByOffset node cases) fun _ => [] := by
  refine .bind inferInstance fun baseUse => .bind inferInstance fun valueUse => .bind inferInstance
    fun base =>
    .bind inferInstance fun value => .bind inferInstance fun known => ?_
  dsimp only
  split
  · infer_instance
  refine ⟨fun S s a s' hs hΓ h => ?_⟩
  obtain ⟨join, s₁, h₁, h⟩ := bind_ok h
  obtain ⟨S₁, d₁, hΓ₁⟩ := (Detour.start hs).createBlock hΓ h₁
  obtain ⟨current, s₂, h₂, h⟩ := bind_ok h
  obtain ⟨S₂, d₂, hΓ₂⟩ := d₁.quiet hs hΓ₁ h₂
  obtain ⟨S₃, s₃, d₃, -, h⟩ := d₂.dispatch (Γ := .leads [join] [] :: _) (p := ⟨join, []⟩) hs
    (.cons (d₂.leads (p := ⟨join, []⟩) (by simp)) hΓ₂) (by simp) rfl h
  have hbarrier : Scoped strict env
    ([] ++ ([.reg value .i64] ++ ([.reg base .i64] ++ ([] ++ ([] ++ Γ)))))
    (barrierFor valueUse.node base) fun _ => [] := inferInstance
  obtain ⟨S', hF, hC, -⟩ := hbarrier.follows S₃ s₃ a s' (d₃.consistent hs) (d₃.hold hΓ) h
  exact ⟨S', d₃.follows.trans hF, hC, .nil⟩

instance (t : Transition) : Scoped strict env Γ (lowerPutStructure node t) fun _ => [] := by
  unfold lowerPutStructure
  infer_instance

/-! ## Scopes and objects -/

instance (address : Word) : Scoped strict env Γ (lowerPutGlobalVar node address) fun _ => [] := by
  unfold lowerPutGlobalVar
  infer_instance

set_option synthInstance.maxSize 50000 in
instance (offset : Except Fault Int) :
    Scoped strict env Γ (lowerPutSlot node offset) fun _ => [] := by
  unfold lowerPutSlot
  infer_instance

instance (index : Nat) : Scoped strict env Γ (lowerPutClosureVar node index) fun _ => [] := by
  unfold lowerPutClosureVar
  infer_instance

instance (index : Nat) : Scoped strict env Γ (lowerPutToArguments node index) fun _ => [] := by
  unfold lowerPutToArguments
  infer_instance

section Scopes

variable [Fits strict env id .i64]

instance (address : Word) : Scoped strict env Γ (lowerGetGlobalVar id address) fun _ => [] := by
  unfold lowerGetGlobalVar
  infer_instance

instance (field : CellField) : Scoped strict env Γ (lowerLoadLink id node field) fun _ => [] := by
  unfold lowerLoadLink
  infer_instance

instance (offset : Except Fault Int) :
    Scoped strict env Γ (lowerGetSlot id node offset) fun _ => [] := by
  unfold lowerGetSlot
  infer_instance

instance (index : Nat) : Scoped strict env Γ (lowerGetClosureVar id node index) fun _ => [] := by
  unfold lowerGetClosureVar
  infer_instance

instance (index : Nat) : Scoped strict env Γ (lowerGetFromArguments id node index) fun _ => [] := by
  unfold lowerGetFromArguments
  infer_instance

instance (structureId : StructureId) :
    Scoped strict env Γ (lowerNewObject id structureId) fun _ => [] := by
  unfold lowerNewObject
  infer_instance

instance : Scoped strict env Γ (lowerNewFunction id node) fun _ => [] := by
  unfold lowerNewFunction
  infer_instance

instance (structureId : StructureId) :
    Scoped strict env Γ (lowerCreateActivation id node structureId) fun _ => [] := by
  unfold lowerCreateActivation
  infer_instance

instance (helper : Helper) : Scoped strict env Γ (lowerCreateArguments id helper) fun _ => [] := by
  unfold lowerCreateArguments
  infer_instance

instance : Scoped strict env Γ (lowerCreateScopedArguments id node) fun _ => [] := by
  unfold lowerCreateScopedArguments
  infer_instance

end Scopes

instance : Scoped strict env Γ (fieldValues node) fun rs => [.all rs .i64] := by
  unfold fieldValues
  split
  · exact scoped_of_error fun _ => ⟨_, rfl⟩
  · infer_instance

/-- Fields that are gone through with their values. -/
theorem scoped_forM_zip {f : α × Reg → Lower Unit} {l : List α} {values : List Reg}
    [hv : KnownAll Γ values .i64]
    (hf : ∀ a r, Known Γ r .i64 → Scoped strict env Γ (f (a, r)) fun _ => []) :
    Scoped strict env Γ ((l.zip values).forM f) fun _ => [] :=
  scoped_forM fun p hp => hf p.1 p.2 ⟨fun hΓ => hv.holds hΓ p.2 (List.of_mem_zip hp).2⟩

instance (object : Reg) (s : Structure) (locations : List PromotedLocation) (values : List Reg)
    [Known Γ object .i64] [KnownAll Γ values .i64] :
    Scoped strict env Γ (storeNamedFields object s locations values) fun _ => [] := by
  have (butterfly : Reg) (Γ : List Fact) [Known Γ object .i64] [Known Γ butterfly .i64]
    [KnownAll Γ values .i64] :
      Scoped strict env Γ ((locations.zip values).forM fun (location, value) => match location with
        | .namedProperty identifier => do
          match s.offsetOf? identifier with
          | none => crash (.noSlotFor s.id ((← read).graph.identifier identifier))
          | some offset =>
            storeProperty value (if offset.isInline then object else butterfly) offset
        | _ => return () : Lower Unit) fun _ => [] := by
    refine scoped_forM_zip fun location value hvalue => ?_
    dsimp only
    split
    · split
      · infer_instance
      · rename_i offset _
        by_cases hi : offset.isInline = true
        · rw [if_pos hi]
          infer_instance
        · rw [if_neg hi]
          infer_instance
    · infer_instance
  unfold storeNamedFields
  infer_instance

instance (s : Structure) (locations : List PromotedLocation) (values : List Reg)
    [KnownAll Γ values .i64] :
    Scoped strict env Γ (materializeAs s locations values) fun r => [.reg r .i64] := by
  unfold materializeAs
  infer_instance

instance (data : MaterializeData) [Fits strict env id .i64] :
    Scoped strict env Γ (lowerMaterializeNewObject id node data) fun _ => [] := by
  refine .bind inferInstance fun values => .bind inferInstance fun structures => ?_
  split
  · infer_instance
  · infer_instance
  · refine .bind inferInstance fun e => .bind inferInstance fun current =>
      ⟨fun S s a s' hs hΓ h => ?_⟩
    obtain ⟨join, s₁, h₁, h⟩ := bind_ok h
    obtain ⟨result, s₂, h₂, h⟩ := bind_ok h
    obtain ⟨S₂, d₂, hΓ₂⟩ := (Detour.start hs).createJoin hΓ h₁ h₂
    obtain ⟨S₄, s₄, d₄, hresult, h⟩ := d₂.dispatch (Γ := .leads [join] [.i64] :: _) (p :=
      ⟨join, [(result, .i64)]⟩) hs
      (.cons (d₂.leads (p := ⟨join, [(result, .i64)]⟩) (by simp)) hΓ₂) (by simp) rfl h
    obtain ⟨S', hF, hC, -⟩ :=
      (inferInstance : Scoped strict env [.reg result .i64] (setResult id result) _).follows
      S₄ s₄ a s' (d₄.consistent hs) hresult h
    exact ⟨S', d₄.follows.trans hF, hC, .nil⟩

set_option synthInstance.maxSize 50000 in
instance (data : MaterializeData) [Fits strict env id .i64] :
    Scoped strict env Γ (lowerMaterializeActivation id node data) fun _ => [] := by
  have (activation : Reg) (values : List Reg) (Γ : List Fact) [Known Γ activation .i64]
    [KnownAll Γ values .i64] :
      Scoped strict env Γ ((data.locations.zip values).forM fun (location, value) => match location
        with
        | .closureVar index =>
          do Emit.store64 value activation (← (← read).layout.closureVarOffset index)
        | .activationSymbolTable => storeField .w64 value activation .activationSymbolTable
        | _ => return () : Lower Unit) fun _ => [] := by
    refine scoped_forM_zip fun location value hvalue => ?_
    dsimp only
    split <;> infer_instance
  unfold lowerMaterializeActivation
  split <;> infer_instance

/-! ## Objects and strings -/

set_option synthInstance.maxSize 50000 in
instance [Fits strict env id .i64] : Scoped strict env Γ (lowerToThis id node) fun _ => [] := by
  unfold lowerToThis
  infer_instance

set_option synthInstance.maxSize 50000 in
instance [Fits strict env id .i64] :
    Scoped strict env Γ (lowerToPrimitive id node) fun _ => [] := by
  unfold lowerToPrimitive
  infer_instance

set_option synthInstance.maxSize 50000 in
instance [Fits strict env id .i64] : Scoped strict env Γ (lowerToString id node) fun _ => [] := by
  unfold lowerToString
  infer_instance

instance [Fits strict env id .i64] : Scoped strict env Γ (lowerMakeRope id node) fun _ => [] := by
  unfold lowerMakeRope
  split <;> infer_instance

set_option synthInstance.maxSize 50000 in
instance [Fits strict env id .i32] : Scoped strict env Γ (lowerInstanceOf id node) fun _ => [] := by
  unfold lowerInstanceOf
  infer_instance

end Operations

end SpecJit.Lowering
