import SpecJit.Lowering
import SpecJit.Proofs.KnownStructures
import SpecJit.Proofs.Lowering.Laws.Switch

/-!
# Code that the analysis takes no notice of

Some helpers of the runtime may run any code of the program (`Helper.runsCode`), and that code can
change the structure of any cell. The analysis forgets the structures at the operations of
`Op.clobbersWorld` only. `Node.CallsUnnoticed` lists the nodes that are none of them and whose code
calls such a helper all the same: after these the analysis goes on knowing what may no longer be
true (`structures_known_after_code`).
-/

namespace SpecJit

open Lir

/-- The helper may run any code of the program. -/
def Helper.runsCode : Helper → Bool
  | .toInt32 | .valueAdd | .compareEq | .compareLess | .compareLessEq | .compareGreater
  | .compareGreaterEq | .toPrimitive | .convertToString | .toThis | .instanceOf | .getByValGeneric
  | .putByValGeneric => true
  | _ => false

/-- A value of this kind is converted to an int32 by the runtime. -/
def UseKind.isConvertedByRuntime : UseKind → Bool
  | .int32 | .knownInt32 | .int52Rep | .doubleRep | .doubleRepReal | .doubleRepMachineInt | .number
  | .notCell => false
  | _ => true

/-- The values are compared by the machine. -/
def Comparison.inPlace (op : Comparison) (left right : UseKind) : Bool :=
  let both (accept : UseKind → Bool) : Bool := accept left && accept right
  both UseKind.isInt32 || both (· == .int52Rep) || both UseKind.isDoubleRep ||
    (op == .eq || op == .strictEq) &&
      (both UseKind.isBoolean || both (· == .stringIdent) || both UseKind.isString ||
        both UseKind.isObject) ||
    op == .strictEq && (left.comparesByWord || right.comparesByWord)

/-- The node is not one of those at which the structures are forgotten, but its code calls `helper`.
-/
inductive Node.CallsUnnoticed (n : Node) : Helper → Prop
  | convert {e : Edge} : n.op = .valueToInt32 → n.child 0 = .ok e →
    e.useKind.isConvertedByRuntime = true →
      CallsUnnoticed n .toInt32
  | compare {op : Comparison} {left right : Edge} : n.op = .compare op → op ≠ .strictEq →
    n.child 0 = .ok left →
      n.child 1 = .ok right → op.inPlace left.useKind right.useKind = false →
      CallsUnnoticed n op.tests.2.2
  | read {mode : ArrayMode} : n.op = .getByVal mode → mode.arrayType = .scopedArguments →
      mode.speculation ≠ .outOfBounds → CallsUnnoticed n .getByValGeneric
  | write {mode : ArrayMode} : n.op = .putByVal mode → mode.arrayType = .string ∨
    mode.arrayType = .scopedArguments →
      mode.speculation ≠ .outOfBounds → CallsUnnoticed n .putByValGeneric
  | append {mode : ArrayMode} : n.op = .putByVal mode →
      mode.arrayType = .int32 ∨ mode.arrayType = .double ∨ mode.arrayType = .contiguous →
      mode.speculation = .saneChain →
      CallsUnnoticed n .putByValGeneric

namespace Node.CallsUnnoticed

variable {n : Node} {helper : Helper}

theorem not_clobbers (h : n.CallsUnnoticed helper) : n.op.clobbersWorld = false := by
  cases h with
  | convert hop | compare hop => rw [hop]; rfl
  | read hop ht hs =>
    rw [hop]
    simp [Op.clobbersWorld, ht, hs]
  | write hop ht hs =>
    rw [hop]
    rcases ht with ht | ht <;> simp [Op.clobbersWorld, ht, hs]
  | append hop ht hs =>
    rw [hop]
    rcases ht with ht | ht | ht <;> simp [Op.clobbersWorld, ht, hs]

theorem runsCode (h : n.CallsUnnoticed helper) : helper.runsCode = true := by
  cases h with
  | @compare op _ _ _ hstrict =>
    cases op with
    | strictEq => exact absurd rfl hstrict
    | _ => rfl
  | _ => rfl

end Node.CallsUnnoticed

/-! ## Calls in the code -/

/-- The instruction calls the helper. -/
def Lir.Inst.calls (helper : Helper) : Inst → Bool
  | .call h _ => h == helper
  | _ => false

/-- Some instruction of the function calls the helper. -/
def Lir.Function.Calls (f : Function) (helper : Helper) : Prop :=
  ∃ (i : Nat) (blk : Block) (k : Nat) (d : InstData), f.blocks[i]? = some blk ∧
    blk.insts[k]? = some d ∧ d.inst.calls helper = true

namespace Lir.Builder

variable {b b' : Builder} {helper : Helper} {P : List BlockId}

theorem Extends.calls (h : b.Extends b') (hc : b.func.Calls helper) : b'.func.Calls helper := by
  obtain ⟨i, blk, k, d, hblk, hd, hcall⟩ := hc
  obtain ⟨blk', hblk', -, hinsts⟩ := h.grown i blk hblk
  exact ⟨i, blk', k, d, hblk', hinsts k d hd, hcall⟩

theorem addBlock_calls (cold : Bool) (hc : b.func.Calls helper) :
    (b.addBlock cold).func.Calls helper := by
  obtain ⟨i, blk, k, d, hblk, hd, hcall⟩ := hc
  refine ⟨i, blk, k, d, ?_, hd, hcall⟩
  have hlt := (Array.getElem?_eq_some_iff.1 hblk).1
  simpa [addBlock, Array.getElem?_push, Nat.ne_of_lt hlt] using hblk

theorem close_calls (t : Terminator) (hc : b.func.Calls helper) :
    (b.close t).func.Calls helper := by
  obtain ⟨i, blk, k, d, hblk, hd, hcall⟩ := hc
  by_cases hi : b.current.index = i
  · exact ⟨i, { blk with terminator := t }, k, d,
      by simp [close, Array.getElem?_modify, hi, hblk], hd, hcall⟩
  · exact ⟨i, blk, k, d, by simp [close, Array.getElem?_modify, hi, hblk], hd, hcall⟩

end Lir.Builder

namespace Lir.Emit

variable {b b' : Builder} {helper : Helper} {u : Unit}

theorem push_calls {args : List Reg} {r : Option Reg}
    (h : push (.call helper args) r b = .ok (u, b')) :
    b'.func.Calls helper := by
  obtain ⟨hlt, rfl⟩ := modifyBlock_ok h
  obtain ⟨blk, hblk⟩ : ∃ blk, b.func.blocks[b.current.index]? = some blk :=
    ⟨_, Array.getElem?_eq_getElem hlt⟩
  exact ⟨b.current.index, { blk with insts := blk.insts.push ⟨.call helper args, r⟩ },
    blk.insts.size,
    ⟨.call helper args, r⟩, by simp [Array.getElem?_modify, hblk], by simp, by simp [Inst.calls]⟩

theorem call_calls {args : List Reg} {r : Reg} (h : call helper args b = .ok (r, b')) :
    b'.func.Calls helper := by
  obtain ⟨_, b₁, -, h⟩ := bind_ok h
  obtain ⟨r₁, b₂, -, h⟩ := bind_ok h
  obtain ⟨_, b₃, hpush, h⟩ := bind_ok h
  obtain ⟨-, rfl⟩ := pure_ok h
  exact push_calls hpush

theorem terminate_calls {t : Terminator} (h : terminate t b = .ok (u, b'))
    (hc : b.func.Calls helper) :
    b'.func.Calls helper := by
  obtain ⟨b₁, h₁, rfl⟩ := terminate_ok h
  refine Builder.close_calls t ?_
  obtain ⟨-, rfl⟩ | ⟨-, rfl⟩ := ensureOpen_ok h₁
  · exact hc
  · exact Builder.addBlock_calls false hc

end Lir.Emit

namespace Lowering

variable {α β : Type} {env : Env} {s s' : State}

/-- A lowering step whose code calls the helper. -/
class CallsHelper (helper : Helper) (x : Lower α) : Prop where
  calls : ∀ env s a s', s.builder.WellFormed → x env s = .ok (a, s') → s'.builder.func.Calls helper

theorem callHelper_calls {helper : Helper} {args : List Reg} {r : Reg}
    (h : callHelper helper args env s = .ok (r, s')) :
    s'.builder.func.Calls helper := by
  unfold callHelper at h
  split at h
  · obtain ⟨b', hb, rfl⟩ := emit_ok h
    exact Emit.call_calls hb
  · cases h

instance (helper : Helper) (args : List Reg) : CallsHelper helper (callHelper helper args) where
  calls _ _ _ _ _ := callHelper_calls

instance (helper : Helper) (x : Lower α) (f : α → Lower β) [hx : Tidy x]
    [hf : ∀ a, CallsHelper helper (f a)] :
    CallsHelper helper (x >>= f) where
  calls env s c s' hw h := by
    obtain ⟨a, s₁, h₁, h₂⟩ := bind_ok h
    exact (hf a).calls env s₁ c s' (hx.emits env s a s₁ hw h₁).after h₂

theorem CallsHelper.check_bind {helper : Helper} {x : Except Fault α} {a : α} {f : α → Lower β}
    (hx : x = .ok a) (hf : CallsHelper helper (f a)) :
    CallsHelper helper ((liftM x : Lower α) >>= f) where
  calls env s c s' hw h := by
    obtain ⟨a', ha, h₂⟩ := check_bind_ok h
    cases hx.symm.trans ha
    exact hf.calls env s c s' hw h₂

instance (priority := low) (helper : Helper) (x : Lower α) (f : α → Lower β)
    [hx : CallsHelper helper x] [Tidy x] [hf : ∀ a, Tidy (f a)] : CallsHelper helper (x >>= f) where
  calls env s c s' hw h := by
    obtain ⟨a, s₁, h₁, h₂⟩ := bind_ok h
    have e₁ := Tidy.after h₁ (.refl hw)
    exact ((hf a).emits env s₁ c s' e₁.after h₂).calls (hx.calls env s a s₁ hw h₁)

instance (helper : Helper) (node : Node) : CallsHelper helper (callOnBoth helper node) := by
  unfold callOnBoth
  infer_instance

section Compare

variable {node : Node} {op : Comparison} {left right : Edge}

theorem compareNumbers?_of_not_inPlace (h : op.inPlace left.useKind right.useKind = false)
    (intCC : IntCC) (floatCC : FloatCC) :
    compareNumbers? node left right intCC floatCC = pure none := by
  simp only [Comparison.inPlace, Bool.or_eq_false_iff] at h
  simp only [compareNumbers?, bothUses, h.1.1.1.1, h.1.1.1.2, h.1.1.2, Bool.false_eq_true,
    ↓reduceIte]

theorem compareOtherwise_of_not_inPlace (h : op.inPlace left.useKind right.useKind = false)
    (helper : Helper) :
    compareOtherwise node left right op helper = (do Emit.truncate (← callOnBoth helper node)) := by
  simp only [Comparison.inPlace, Bool.or_eq_false_iff] at h
  obtain ⟨⟨-, hequal⟩, hword⟩ := h
  unfold compareOtherwise bothUses
  simp only [hword, Bool.false_eq_true, ↓reduceIte]
  cases heq : (op == .eq || op == .strictEq) with
  | false => simp only [Bool.false_and, Bool.false_eq_true, ↓reduceIte]
  | true =>
    rw [heq, Bool.true_and] at hequal
    simp only [Bool.or_eq_false_iff] at hequal
    simp only [hequal.1.1.1, hequal.1.1.2, hequal.1.2, hequal.2, Bool.and_false, Bool.false_eq_true,
      ↓reduceIte]

end Compare

/-- The last way to store an element asks the runtime. -/
instance (mode : ArrayMode) (base butterfly index length value : Reg) :
    CallsHelper .putByValGeneric (storeOrAppend mode base butterfly index length value) where
  calls env s a s' _ h := by
    obtain ⟨inBounds, _, -, h⟩ := bind_ok h
    obtain ⟨store, _, -, h⟩ := bind_ok h
    obtain ⟨beyond, _, -, h⟩ := bind_ok h
    obtain ⟨join, _, -, h⟩ := bind_ok h
    obtain ⟨_, _, -, h⟩ := bind_ok h
    obtain ⟨_, s₁, harm, h⟩ := bind_ok h
    obtain ⟨s₂, h₂, rfl⟩ := inArm_ok harm
    -- in bounds
    obtain ⟨_, _, -, h₂⟩ := bind_ok h₂
    obtain ⟨_, _, -, h₂⟩ := bind_ok h₂
    obtain ⟨_, _, -, h₂⟩ := bind_ok h₂
    -- beyond the length
    obtain ⟨_, _, -, h₂⟩ := bind_ok h₂
    obtain ⟨capacity, _, -, h₂⟩ := bind_ok h₂
    obtain ⟨fits, _, -, h₂⟩ := bind_ok h₂
    obtain ⟨append, _, -, h₂⟩ := bind_ok h₂
    obtain ⟨generic, _, -, h₂⟩ := bind_ok h₂
    obtain ⟨_, _, -, h₂⟩ := bind_ok h₂
    -- there is room
    obtain ⟨_, _, -, h₂⟩ := bind_ok h₂
    obtain ⟨_, _, -, h₂⟩ := bind_ok h₂
    obtain ⟨grown, _, -, h₂⟩ := bind_ok h₂
    obtain ⟨_, _, -, h₂⟩ := bind_ok h₂
    obtain ⟨_, _, -, h₂⟩ := bind_ok h₂
    -- there is none
    obtain ⟨_, _, -, h₂⟩ := bind_ok h₂
    obtain ⟨boxedIndex, _, -, h₂⟩ := bind_ok h₂
    obtain ⟨boxedValue, _, -, h₂⟩ := bind_ok h₂
    obtain ⟨r, s₃, h₃, h₂⟩ := bind_ok h₂
    have hcall : s₃.builder.func.Calls .putByValGeneric := callHelper_calls h₃
    obtain ⟨b₄, h₄, rfl⟩ := emit_ok h₂
    have hcall' : b₄.func.Calls .putByValGeneric := Emit.terminate_calls h₄ hcall
    obtain ⟨b₅, h₅, rfl⟩ := emit_ok h
    obtain rfl := Emit.switchTo_ok h₅
    exact hcall'

instance (helper : Helper) (node : Node) : Tidy (callOnBoth helper node) :=
  Staged.obeys inferInstance

set_option synthInstance.maxSize 1000 in
/-- The code of a node of the list calls its helper. -/
theorem callsHelper_lowerOp {node : Node} {helper : Helper} (id : NodeId)
    (h : node.CallsUnnoticed helper) :
    CallsHelper helper (lowerOp id node) := by
  unfold lowerOp
  cases h with
  | @convert e hop he hk =>
    rw [hop]
    refine .check_bind he ?_
    split <;> rename_i heq <;> first | (rw [heq] at hk; cases hk) | infer_instance
  | @compare op left right hop hstrict hl hr hin =>
    rw [hop]
    refine .check_bind hl (.check_bind hr ?_)
    obtain ⟨intCC, floatCC, helper⟩ := op.tests
    dsimp only
    rw [compareNumbers?_of_not_inPlace hin, pure_bind]
    dsimp only
    rw [compareOtherwise_of_not_inPlace hin]
    infer_instance
  | @read mode hop ht hs =>
    rw [hop]
    change CallsHelper _ (lowerGetByVal id node mode)
    rw [lowerGetByVal, ht]
    dsimp only
    infer_instance
  | @write mode hop ht hs =>
    rw [hop]
    change CallsHelper _ (lowerPutByVal node mode)
    rw [lowerPutByVal]
    rcases ht with ht | ht <;> rw [ht] <;> dsimp only <;> infer_instance
  | @append mode hop ht hs =>
    rw [hop]
    change CallsHelper _ (lowerPutByVal node mode)
    rw [lowerPutByVal]
    have helement : CallsHelper .putByValGeneric (lowerPutButterflyElement node mode) := by
      rw [lowerPutButterflyElement, hs]
      simp only [reduceCtorEq, ↓reduceIte]
      infer_instance
    rcases ht with ht | ht | ht <;> rw [ht] <;> exact helement

/-- After a node at which the structures are forgotten, the structures of `x` are known again only
if a later node reveals them. A node whose code runs other code unnoticed leaves them as known as
they were, and so do the nodes after it that neither concern `x` nor may run any code. A check that
a cell is a given one reveals its structure, though the code compares nothing but the identity of
the cell. -/
theorem structures_known_after_code {g : Graph} {a a' : AbstractState} {id x : NodeId} {node : Node}
    {rest : List NodeId} (hnode : g.node id = .ok node)
    (h : AbstractState.executeAll g (id :: rest) a = .ok a') (hvalid : a'.valid = true) :
    (node.op.clobbersWorld = true → a'.Knows x → ∃ i ∈ rest, g.Reveals i x) ∧
      (∀ helper, node.CallsUnnoticed helper → helper.runsCode = true ∧
        (∀ env s u s', s.builder.WellFormed → lowerOp id node env s = .ok (u, s') →
          s'.builder.func.Calls helper) ∧
        ((∀ i ∈ id :: rest, ¬ g.Concerns i x) → (∀ i ∈ rest, ¬ g.Clobbers i) →
          (a'.Knows x ↔ a.Knows x))) ∧
      ∀ c e, node.op = .checkCell (.cell c) → node.child 0 = .ok e →
      (∀ i ∈ rest, ¬ g.Concerns i e.node) →
        (∀ i ∈ rest, ¬ g.Clobbers i) → a'.Knows e.node := by
  refine ⟨fun hclobber hk => ?_, fun helper hcall => ⟨hcall.runsCode,
    (callsHelper_lowerOp id hcall).calls, ?_⟩,
    fun c e hop he hconcerns hrest => ?_⟩
  · obtain ⟨-, hnone⟩ | ⟨before, i, after, hids, hreveals, hnone⟩ :=
      AbstractState.executeAll_knows h hvalid hk
    · exact absurd ⟨node, hnode, hclobber⟩ (hnone id (by simp))
    · cases before with
      | nil =>
        cases hids
        exact absurd ⟨node, hnode, hclobber⟩ (hnone id (by simp))
      | cons j before =>
        cases hids
        exact ⟨i, by simp, hreveals⟩
  · intro hconcerns hrest
    refine AbstractState.executeAll_knows_iff h hvalid hconcerns fun i hi => ?_
    rcases List.mem_cons.1 hi with rfl | hi
    · rintro ⟨node', hnode', hclobber⟩
      cases hnode.symm.trans hnode'
      rw [hcall.not_clobbers] at hclobber
      cases hclobber
    · exact hrest i hi
  · obtain ⟨a₁, h₁, h⟩ := bind_eq_ok_iff.1 h
    split at h
    · rename_i hvalid₁
      have hknows := AbstractState.execute_checkCell_knows h₁ hvalid₁ hnode hop he
      exact (AbstractState.executeAll_knows_iff h hvalid hconcerns hrest).2 hknows
    · rename_i hinvalid
      cases h
      exact absurd hvalid hinvalid

/-! ## A conversion between a check and a use -/

/-- Checks the structure of the first argument, converts the second one to an int32, and returns the
first one. -/
def convertedBetween : Graph where
  name := "convertedBetween"
  nodes := #[
    { op := .getStack { operand := .arg 1, slot := .arg 1, format := .jsValue },
      result := .jsValue },
    { op := .getStack { operand := .arg 2, slot := .arg 2, format := .jsValue },
      result := .jsValue },
    { op := .checkStructure ⟨[⟨1⟩]⟩, children := [{ node := ⟨0⟩, useKind := .cell }] },
    { op := .valueToInt32, children := [{ node := ⟨1⟩ }], result := .int32 },
    { op := .ret, children := [{ node := ⟨0⟩ }] }]
  blocks := #[{ index := ⟨0⟩, nodes := #[⟨0⟩, ⟨1⟩, ⟨2⟩, ⟨3⟩, ⟨4⟩] }]
  numArguments := 3
  numLocals := 0

/-- The code of a graph calls the helper. -/
def codeCalls (g : Graph) (helper : Helper) : Bool :=
  match g.lower {} {} with
  | .ok f => f.lir.blocks.any fun blk => blk.insts.any fun d => d.inst.calls helper
  | .error _ => false

/-- What is known before the conversion. -/
def beforeConversion : AbstractState where
  blocks := #[]
  current := (Facts.empty convertedBetween).set ⟨0⟩ { ty := .cell, structures := .known ⟨[⟨1⟩]⟩ }
  valid := true

/-- What is known after the conversion. -/
def afterConversion : AbstractState :=
  match AbstractState.executeAll convertedBetween [⟨3⟩] beforeConversion with
  | .ok s => s
  | .error _ => default

/-- The conversion is a call of a helper that may run any code, and behind it the structure is still
known. -/
theorem convertedBetween_keeps_structure :
    convertedBetween.canCompile.isOk = true ∧ codeCalls convertedBetween .toInt32 = true ∧
    Helper.runsCode .toInt32 = true ∧
      afterConversion.valid = true ∧ (afterConversion.current.get? ⟨0⟩).map
        (·.structures) = some (.known ⟨[⟨1⟩]⟩) := by
  refine ⟨by decide +kernel, by decide +kernel, rfl, by decide +kernel, by decide +kernel⟩

/-- The conversion is not noticed, so what was known stays known. -/
theorem structures_known_after_conversion :
    beforeConversion.Knows ⟨0⟩ ∧ Helper.runsCode .toInt32 = true ∧ afterConversion.Knows ⟨0⟩ := by
  have hbefore : beforeConversion.Knows ⟨0⟩ := ⟨_, rfl, by decide +kernel, by decide⟩
  have hconcerns (i : NodeId) (hi : i ∈ [(⟨3⟩ : NodeId)]) : ¬ convertedBetween.Concerns i ⟨0⟩ := by
    rw [List.mem_singleton] at hi
    subst hi
    rintro (hx | ⟨node, hnode, hx⟩)
    · cases hx
    · cases hnode
      rcases hx with hx | ⟨e, he, hx⟩
      · cases hx
      · obtain rfl : e = { node := ⟨1⟩ } := List.mem_singleton.1 he
        cases hx
  have hnode : convertedBetween.node ⟨3⟩ = .ok { op := .valueToInt32, children := [{ node := ⟨1⟩ }],
                                                 result := .int32 } := rfl
  have hrun : AbstractState.executeAll convertedBetween [⟨3⟩]
    beforeConversion = .ok afterConversion := rfl
  have hcall : Node.CallsUnnoticed { op := .valueToInt32, children := [{ node := ⟨1⟩ }],
                                     result := .int32 } .toInt32 :=
    .convert (e := { node := ⟨1⟩ }) rfl rfl rfl
  obtain ⟨hruns, -, hiff⟩ :=
    (structures_known_after_code (x := ⟨0⟩) hnode hrun (by decide +kernel)).2.1 .toInt32 hcall
  exact ⟨hbefore, hruns, (hiff hconcerns (by simp)).2 hbefore⟩

end Lowering

end SpecJit
