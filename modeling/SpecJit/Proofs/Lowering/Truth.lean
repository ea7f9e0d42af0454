import SpecJit.Lowering.Comparison
import SpecJit.Proofs.Lowering.Conversion
import SpecJit.Proofs.Lowering.DeadEnds
import SpecJit.Proofs.Kind

/-!
# The code for conditions

A condition is lowered by the use kind its operand is read with. The lemmas here say what the flag
is that the code leaves in a register: for doubles, strings, the objects that claim to be
`undefined` and the words whose kinds are known only in part, and then for whole uses of objects and
for untyped ones.
-/

namespace SpecJit

open Lir

section Conditions

variable {σ : Type} {m : Machine σ} {env : Env} {b : Builder} {c : Config σ} {r value : Reg}
  {v w : Word} {d : Double}

/-! ## Comparisons with zero -/

namespace Lir.Emit

theorem ne_zero_int32 (h : c.Has b r .i32 v) :
    (icmpImm .ne r 0).Yields m b c .i32 (ofBool (v.toUInt32 != 0)) := by
  refine (icmpImm_yields h).congr (congrArg ofBool ?_)
  rw [Bool.eq_iff_iff, bne_iff_ne, Ne, ← UInt32.toNat_inj]
  exact bne_iff_ne

theorem eq_zero_int32 (h : c.Has b r .i32 v) :
    (icmpImm .eq r 0).Yields m b c .i32 (ofBool (v.toUInt32 == 0)) := by
  refine (icmpImm_yields h).congr (congrArg ofBool ?_)
  rw [Bool.eq_iff_iff, beq_iff_eq, ← UInt32.toNat_inj]
  exact beq_iff_eq

theorem ne_zero_int64 (h : c.Has b r .i64 v) :
    (icmpImm .ne r 0).Yields m b c .i32 (ofBool (v != 0)) := by
  refine (icmpImm_yields h).congr (congrArg ofBool ?_)
  exact IntCC.ne_eval v 0

end Lir.Emit

namespace Lowering

/-! ## Conditions on doubles and cells -/

theorem doubleTruth_yields {ty : Ty} (h : c.Has b value ty d.bits) :
    (doubleTruth value).Yields m b c .i32 (ofBool d.truthy) := by
  refine (Emit.fconst_yields _).bind fun hf₁ hzero => ?_
  refine (Emit.fcmp_yields (h.later hf₁) hzero).bind fun hf₂ hisZero => ?_
  refine (Emit.fcmp_yields (h.later (hf₁.trans hf₂)) (h.later (hf₁.trans hf₂))).bind
    fun hf₃ hordered => ?_
  refine (negated_yields (hisZero.later hf₃)).bind fun hf₄ hnonZero => ?_
  refine (Emit.binary_yields (hordered.later hf₄) hnonZero).congr ?_
  rw [BinaryOp.and_ofBool]
  simp [FloatCC.eval, Double.truthy, Double.numEq, Bool.and_comm]

theorem stringTruth_yields (h : c.Has b value .i64 w) :
    Yields m env b c (stringTruth value) .i32 (ofBool (Cell.hasText env.layout c.memory w)) := by
  refine .ofRead (.bind (.ofEmit (Emit.load_yields h)) fun hf himpl => ?_)
  refine .bind (.ofEmit (Emit.eq_zero_int64 himpl)) fun hf' hrope => ?_
  simp only [Ty.normalize_i64, MemWidth.bytes, MemWidth.decode] at himpl hrope
  refine test_yields hrope (fun hz => ?_) (fun hz => ?_)
  · refine .ofEmit (Emit.one_yields.congr ?_)
    rw [Cell.hasText, hz, Bool.true_or]
  · refine .ofRead (.bind (.ofEmit (Emit.load_yields (himpl.later hf'))) fun _ hlength => ?_)
    refine .ofEmit ((Emit.ne_zero_int32 hlength).congr ?_)
    rw [Cell.hasText, hz, Bool.false_or, hf'.memory, hf.memory]
    simp only [MemWidth.bytes, MemWidth.decode, Ty.normalize, UInt32.toUInt32_toUInt64]

/-- The flag by which an object masquerades, as it stands in the header. -/
theorem masquerades_yields (h : c.Has b value .i64 w) : Yields m env b c (masquerades value) .i32
    (c.memory.byte (Machine.address w (Int32.ofInt (env.layout.fieldOffset .typeInfoFlags))) &&&
      TypeInfoFlags.masqueradesAsUndefined).toUInt64 := by
  refine .ofRead (.bind (.ofEmit (Emit.load_yields h)) fun _ hflags => ?_)
  refine .ofEmit ((Emit.binaryImm_yields hflags).congr ?_)
  simp only [MemWidth.bytes, MemWidth.decode, read_one]
  generalize c.memory.byte _ = flags
  simp only [BinaryOp.eval, binary32, ofInt32, low32, Ty.normalize, UInt32.toUInt32_toUInt64]
  rw [← UInt64.toBitVec_inj]
  simp [TypeInfoFlags.masqueradesAsUndefined]

theorem toInt32_beq_zero (x : UInt32) : (x.toInt32 == 0) = (x == 0) := by
  rw [Bool.eq_iff_iff, beq_iff_eq, beq_iff_eq]
  exact ⟨fun h => congrArg Int32.toUInt32 h, fun h => congrArg UInt32.toInt32 h⟩

theorem byte_eq_zero (x : UInt8) : (x.toUInt64.toUInt32 == 0) = (x == 0) := by
  rw [Bool.eq_iff_iff, beq_iff_eq, beq_iff_eq, ← UInt32.toNat_inj, ← UInt8.toNat_inj,
    UInt8.toUInt32_toUInt64, UInt8.toNat_toUInt32]
  rfl

/-- A value passes the test, or is an object that claims to be `undefined`; the second part is left
out if no such object can come. -/
theorem undefinedLike_yields {id : NodeId} {plain : Emit Reg} [plain.Tidy] {t : Bool}
    (h : c.Has b value .i64 w)
    (hplain : ∀ {b' c'}, c.Follows b c' b' → plain.Yields m b' c' .i32 (ofBool t))
    (hsame : Value.isCell w = true → Cell.masquerades env.layout c.memory w = t) :
    Yields m env b c (undefinedLike id value plain) .i32 (ofBool t) := by
  intro s s' r c' hf hc h' hm
  obtain ⟨ty, s₁, h₁, h₂⟩ := bind_ok h'
  obtain rfl := typeOfNode_same h₁
  split at h₂
  · exact Yields.ofEmit (hplain hf) (.refl _ _) hc h₂ hm
  · refine Yields.bind (.ofEmit (isCell_yields (h.later hf))) (fun hf₁ hcell => ?_) (.refl _ _) hc
      h₂ hm
    refine test_yields hcell (fun hz => ?_) fun _ => .ofEmit (hplain (hf.trans hf₁))
    refine (masquerades_yields (h.later (hf.trans hf₁))).bind fun _ hmasq =>
      .ofEmit ((Emit.ne_zero_int32 hmasq).congr ?_)
    rw [bne, byte_eq_zero, (hf.trans hf₁).memory, ← hsame hz]
    rfl

theorem isObjectTag_yields {tag : Reg}
    (h : c.Has b tag .i32 (UInt64.ofNat (Cell.tag env.layout c.memory w))) :
    Yields m env b c (isObjectTag tag) .i32 (ofBool (Cell.hasObjectTag env.layout c.memory w)) := by
  refine .ofRead (.ofEmit ((Emit.icmpImm_yields h).congr ?_))
  simp only [IntCC.eval, IntCC.holds, low_ofInt, UInt64.toUInt32_ofNat', Cell.hasObjectTag,
    UInt32.le_iff_toNat_le]

set_option synthInstance.maxSize 400 in
theorem isPlainObject_yields (h : c.Has b value .i64 w) :
    Yields m env b c (isPlainObject value) .i32
    (ofBool (Cell.hasObjectTag env.layout c.memory w && Cell.tag env.layout c.memory w !=
      CellType.function.tag &&
      !Cell.masquerades env.layout c.memory w)) := by
  refine (cellTag_yields h).bind fun hf₁ htag => ?_
  rw [← hf₁.memory] at htag
  refine (isObjectTag_yields htag).bind fun hf₂ hobject => ?_
  refine .bind (.ofEmit (tagEq_yields (Cell.tag_lt ..) (htag.later hf₂))) fun hf₃ hcallable => ?_
  have hf := hf₁.trans (hf₂.trans hf₃)
  refine (masquerades_yields (h.later hf)).bind fun hf₄ hmasquerade => ?_
  refine .bind (.ofEmit (negated_yields (hcallable.later hf₄))) fun hf₅ hnotCallable => ?_
  refine .bind (.ofEmit (Emit.eq_zero_int32 (hmasquerade.later hf₅))) fun hf₆ hvisible => ?_
  refine .bind (.ofEmit (Emit.binary_yields (hobject.later (hf₃.trans (hf₄.trans (hf₅.trans hf₆))))
    (hnotCallable.later hf₆)))
    fun hf₇ hresult => ?_
  rw [BinaryOp.and_ofBool] at hresult
  refine .ofEmit ((Emit.binary_yields hresult (hvisible.later hf₇)).congr ?_)
  rw [BinaryOp.and_ofBool, byte_eq_zero, hf.memory, hf₁.memory]
  simp [Cell.masquerades, bne]

theorem cellQuery_yields {query : Lower Reg} [Tidy query] {t : Bool} (h : c.Has b value .i64 w)
    (hquery : ∀ {b' c'}, c.Follows b c' b' → Yields m env b' c' query .i32 (ofBool t)) :
    Yields m env b c (cellQuery value query) .i32 (ofBool (Value.isCell w && t)) := by
  refine .bind (.ofEmit (isCell_yields h)) fun hf hcell => ?_
  refine test_yields hcell (fun hz => ?_) fun hz => .ofEmit (Emit.zero_yields.congr ?_)
  · rw [hz]
    exact hquery hf
  · rw [hz]
    rfl

/-! ## Conditions on boxed values -/

section Boxed

variable {s s' : State} {id : NodeId} {known : AbstractValue}

theorem callHelper_yields {helper : Helper} {ty : Ty} (hp : helper.paramCount = 1)
    (h : c.Has b value ty v)
    (hcall : ∀ t, ∃ t', m.runtime.callHelper helper [v] t c.memory = (w, t', c.memory)) :
    Yields m env b c (callHelper helper [value]) .i64 w := by
  intro s s' r c' hf hc h' hm
  obtain ⟨b', hb, rfl⟩ := callHelper_one h' hp
  exact Emit.call_yields h hcall hf hc hb hm

theorem valueTruth_runs (h : valueTruth id value env s = .ok (r, s'))
    (hm : s'.builder.Completes m.func) (hc : m.At s.builder c) (hv : c.Has s.builder value .i64 w)
    (hknown : s.facts.factOf env.graph id = .ok known)
    (hjudged : Value.Judged env.layout c.memory known.ty w) (hne : w ≠ Value.empty)
    (hinv : Value.isInvalid w = false) (htruth : m.TellsTruth env.layout c.memory) :
    m.Runs s.builder c s'.builder fun c' =>
      c'.Has s'.builder r .i32 (ofBool (Value.truthy env.layout c.memory w)) := by
  have hboolean {b' : Builder} {c' : Config σ} (hf : c.Follows s.builder c' b') :
      (Emit.icmpImm .eq value (wordImm Value.trueWord)).Yields m b' c' .i32
        (ofBool (w == Value.trueWord)) := by
    refine (Emit.icmpImm_yields (hv.later hf)).congr ?_
    rw [Ty.normalize_i64, ofInt_wordImm, IntCC.eq_eval]
  have hint32 {b' : Builder} {c' : Config σ} (hf : c.Follows s.builder c' b') :
      (do Emit.icmpImm .ne (← Emit.truncate value) 0).Yields m b' c' .i32
        (ofBool (Value.unboxInt32 w != 0)) := by
    refine (Emit.truncate_yields (hv.later hf)).bind fun _ hlow => (Emit.ne_zero_int32 hlow).congr
      (congrArg ofBool ?_)
    rw [UInt32.toUInt32_toUInt64, bne, bne, Value.unboxInt32, toInt32_beq_zero]
  obtain ⟨ty, s₁, h₁, h₂⟩ := bind_ok h
  obtain ⟨rfl, rfl⟩ := typeOfNode_ok h₁ hknown
  split at h₂
  · rename_i hty
    rw [hjudged.boolean hty]
    exact Yields.ofEmit (hboolean (.refl _ _)) (.refl _ _) hc h₂ hm
  rename_i hty
  replace hty := Bool.eq_false_iff.2 hty
  split at h₂
  · rename_i hint
    rw [hjudged.int32 hty hint]
    exact Yields.ofEmit (hint32 (.refl _ _)) (.refl _ _) hc h₂ hm
  split at h₂
  · rename_i hother
    rw [hjudged.other hty hother]
    exact Yields.ofEmit Emit.zero_yields (.refl _ _) hc h₂ hm
  refine Yields.bind (.ofEmit (isBoolean_yields hv)) (fun hf₁ htest => ?_) (.refl _ _) hc h₂ hm
  refine test_yields htest (fun hz => ?_) fun _ => ?_
  · rw [Value.truthy_boolean hz]
    exact .ofEmit (hboolean hf₁)
  refine .bind (.ofEmit (isInt32_yields (hv.later hf₁))) fun hf₂ htest' => ?_
  refine test_yields htest' (fun hz => ?_) fun _ => ?_
  · rw [Value.truthy_int32 hz]
    exact .ofEmit (hint32 (hf₁.trans hf₂))
  have hcall {c' : Config σ} (hmem : c'.memory = c.memory) (t : σ) :
      ∃ t', m.runtime.callHelper .toBoolean [w] t
        c'.memory = (ofBool (Value.truthy env.layout c.memory w), t', c'.memory) := by
    rw [hmem]
    exact htruth w hne hinv t
  refine .bind (callHelper_yields rfl (hv.later (hf₁.trans hf₂)) (hcall (hf₁.trans hf₂).memory))
    fun _ hr => .ofEmit ((Emit.truncate_yields hr).congr ?_)
  cases Value.truthy env.layout c.memory w <;> rfl

end Boxed

/-! ## Uses of objects -/

section Uses

variable {s s₁ s' : State} {u : Unit} {id : NodeId} {e : Edge} {mask : SpecType} {kind : ExitKind}

open Value (kindOf passes overlooked)

/-- A node that is held boxed is read from the register that holds it. -/
theorem asValue_held (hheld : heldIn env s e.node .jsValue = some value)
    (h : asValue e env s = .ok (r, s')) :
    r = value ∧ checkUse e value env s = .ok ((), s') := by
  obtain ⟨r₁, s₁, h₁, h⟩ := bind_ok h
  rw [boxedNode, held?_bind, hheld] at h₁
  cases h₁
  obtain ⟨_, s₂, h₂, h⟩ := bind_ok h
  cases h
  exact ⟨rfl, h₂⟩

/-- Through a use of objects, a word that passes its tests is as true as it is a cell. -/
theorem truth_object (h : truth e env s = .ok (r, s')) (hm : s'.builder.Completes m.func)
    (hc : m.At s.builder c) (hheld : heldIn env s e.node .jsValue = some value)
    (hv : c.Has s.builder value .i64 w) (hi : Informed env c.memory s e.node w)
    (hk : (e.useKind.isObject || e.useKind == .objectOrOther) = true)
    (hpass : passes env.layout c.memory w e.useKind = true)
    (ho : overlooked env.layout c.memory w e.useKind = false) :
    m.Runs s.builder c s'.builder fun c' => c'.Has s'.builder r .i32 (ofBool (Value.isCell w)) := by
  -- the use is read, and then only what passed is looked at
  have hrest {f : Reg → Lower Reg} [∀ r, Tidy (f r)] (h : (asValue e >>= f) env s = .ok (r, s'))
      (hf : ∀ {b' : Builder} {c' : Config σ}, c.Follows s.builder c' b' →
        Yields m env b' c' (f value) .i32 (ofBool (Value.isCell w))) :
      m.Runs s.builder c s'.builder fun c' =>
        c'.Has s'.builder r .i32 (ofBool (Value.isCell w)) := by
    obtain ⟨r₁, s₁, h₁, h₂⟩ := bind_ok h
    have e₁ : s.builder.Emits [] s₁.builder := Tidy.after h₁ (.refl hc.wf)
    have e₂ : s₁.builder.Emits [] s'.builder := Tidy.after h₂ (.refl e₁.after)
    obtain ⟨rfl, hcheck⟩ := asValue_held hheld h₁
    obtain ⟨hruns, -⟩ := checkUse_passes hcheck (e₂.toExtends.completes hm) hc hv hi hpass ho
    exact hruns.bind e₁.toExtends e₂.toGrows fun c₁ hc₁ hkeeps _ =>
      hf ⟨e₁.toExtends, hkeeps⟩ (.refl _ _) hc₁ h₂ hm
  have hcell : e.useKind ≠ .objectOrOther → Value.isCell w = true := fun hne => by
    cases hu : e.useKind <;> rw [hu] at hk hpass hne <;> first
      | exact absurd hk (by decide)
      | exact absurd rfl hne
      | exact (Bool.and_eq_true_iff.1 hpass).1
  unfold truth at h
  cases hu : e.useKind with
  | object | function | finalObject =>
    rw [hu] at h
    refine hrest h fun _ => .ofEmit (Emit.one_yields.congr ?_)
    rw [hcell (by rw [hu]; decide)]
  | objectOrOther =>
    rw [hu] at h
    exact hrest h fun hf => .ofEmit (isCell_yields (hv.later hf))
  | _ =>
    rw [hu] at hk
    exact absurd hk (by decide)

/-- Through an untyped use, a word is as true as its value is. -/
theorem truth_untyped (h : truth e env s = .ok (r, s')) (hm : s'.builder.Completes m.func)
    (hc : m.At s.builder c) (hheld : heldIn env s e.node .jsValue = some value)
    (hv : c.Has s.builder value .i64 w) (hi : Informed env c.memory s e.node w)
    (hk : e.useKind = .untyped) (hne : w ≠ Value.empty) (hinv : Value.isInvalid w = false)
    (htruth : m.TellsTruth env.layout c.memory) :
    m.Runs s.builder c s'.builder fun c' =>
      c'.Has s'.builder r .i32 (ofBool (Value.truthy env.layout c.memory w)) := by
  unfold truth at h
  rw [hk] at h
  obtain ⟨r₁, s₁, h₁, h₂⟩ := bind_ok h
  obtain ⟨rfl, hcheck⟩ := asValue_held hheld h₁
  rw [checkUse, hk] at hcheck
  cases hcheck
  obtain ⟨known, hknown, hdesc⟩ := hi.fact
  exact valueTruth_runs h₂ hm hc hv hknown (Value.judged_of_subset hdesc.allowed) hne hinv htruth

/-- The flags that are computed for one object through a use of objects and through an untyped use
are the same unless the object masquerades as `undefined`: only the untyped use looks at that. -/
theorem object_truth_iff {m' : Machine σ} {c' : Config σ} {r' : Reg} {s'' : State} {e' : Edge}
    (h : truth e env s = .ok (r, s')) (h' : truth e' env s = .ok (r', s''))
    (hm : s'.builder.Completes m.func) (hm' : s''.builder.Completes m'.func) (hc : m.At s.builder c)
    (hc' : m'.At s.builder c') (hmem : c'.memory = c.memory) (hnode : e'.node = e.node)
    (hheld : heldIn env s e.node .jsValue = some value) (hv : c.Has s.builder value .i64 w)
    (hv' : c'.Has s.builder value .i64 w) (hi : Informed env c.memory s e.node w)
    (hk : (e.useKind.isObject || e.useKind == .objectOrOther) = true) (hk' : e'.useKind = .untyped)
    (hpass : passes env.layout c.memory w e.useKind = true)
    (ho : overlooked env.layout c.memory w e.useKind = false)
    (htruth : m'.TellsTruth env.layout c.memory) :
    ∃ flag flag' : Bool, (m.Runs s.builder c s'.builder fun c₁ => c₁.Has s'.builder r .i32
      (ofBool flag)) ∧
      (m'.Runs s.builder c' s''.builder fun c₁ => c₁.Has s''.builder r' .i32 (ofBool flag')) ∧
      (flag = flag' ↔ (Value.isCell w = true → Cell.masquerades env.layout c.memory w = false))
        := by
  have hproven : e.useKind.isProven = false := by
    cases hu : e.useKind <;> rw [hu] at hk <;> first | rfl | exact absurd hk (by decide)
  have hmask : (kindOf env.layout c.memory w).isSubsetOf (.union .object .other) = true := by
    refine SpecType.subset_trans (Value.subset_of_passes hproven hpass ho) ?_
    cases hu : e.useKind <;> rw [hu] at hk <;> first | rfl | exact absurd hk (by decide)
  have hshape : Value.isCell w = false → Value.isOther w = true := fun hcell => by
    cases hu : e.useKind <;> rw [hu] at hk hpass <;> first
      | exact absurd hk (by decide)
      | (simp [passes, hcell] at hpass; done)
      | simpa [passes, hcell] using hpass
  have hinv : Value.isInvalid w = false := by
    cases hcell : Value.isCell w with
    | true => exact Value.isInvalid_of_isCell hcell
    | false => exact Value.isInvalid_of_isOther (hshape hcell)
  have huntyped := truth_untyped h' hm' hc' (by rw [hnode]; exact hheld) hv'
    (by rw [hmem, hnode]; exact hi) hk'
    (Value.ne_empty_of_subset (by decide) hmask) hinv (by rw [hmem]; exact htruth)
  rw [hmem] at huntyped
  refine ⟨Value.isCell w, Value.truthy env.layout c.memory w, truth_object h hm hc hheld hv hi hk
    hpass ho, huntyped, ?_⟩
  cases hcell : Value.isCell w with
  | true =>
    rw [Value.truthy_object hcell hmask]
    cases Cell.masquerades env.layout c.memory w <;> simp
  | false =>
    rw [Value.truthy_other (hshape hcell)]
    simp

end Uses

end Lowering

end Conditions

/-! ## A masquerading object -/

namespace Lowering

/-- Returns whether an object is false as a condition. -/
def negatedObject : Graph where
  name := "negatedObject"
  nodes := #[
    { op := .getStack { operand := .arg 1, slot := .arg 1, format := .jsValue },
      result := .jsValue },
    { op := .logicalNot, result := .boolean, children := [{ node := ⟨0⟩, useKind := .object }] },
    { op := .ret, children := [{ node := ⟨1⟩ }] }]
  blocks := #[{ index := ⟨0⟩, nodes := #[⟨0⟩, ⟨1⟩, ⟨2⟩] }]
  numArguments := 2
  numLocals := 0

namespace Masquerading

/-- The address of an object that claims to be `undefined`. -/
def object : Word := 0x5000

def memory : Memory :=
  ((Simulation.FrameValues.memory { arguments := [object] }).write (object + 5) 1
    (UInt64.ofNat CellType.objectOther.tag)).write
    (object + 6) 1 TypeInfoFlags.masqueradesAsUndefined.toUInt64

def env : Env where
  graph := negatedObject
  options := {}
  layout := {}
  dominators := { parents := #[some ⟨0⟩], numbers := #[some 0] }
  availabilityHeads := #[]
  phiParams := []
  exitOnly := []
  context := ⟨0⟩
  frame := ⟨1⟩

/-- Before the condition: register 2 holds the object. -/
def before : State where
  builder := {
    func := { name := "negatedObject", blocks := #[{}], types := #[.i64, .i64, .i64] }
    terminated := #[false]
    current := ⟨0⟩ }
  facts := { blocks := #[], current := .empty negatedObject, valid := true }
  availability := .empty negatedObject
  values := [((⟨0⟩, .jsValue), ⟨2⟩, ⟨0⟩)]

def config (f : Function) : Config Unit where
  registers := (Array.replicate f.types.size none).setIfInBounds 2 (some object)
  memory := memory
  runtimeState := ()

theorem before_at (f : Function) : (Machine.truthful f).At before.builder (config f) where
  wf := ⟨rfl, Nat.zero_lt_one⟩
  isOpen := rfl
  block := rfl
  position blk hb := by cases hb; rfl
  registers := by simp [config, Machine.truthful]

theorem config_has {f : Function} (hf : 2 < f.types.size) :
    (config f).Has before.builder ⟨2⟩ .i64 object := by
  refine ⟨rfl, ?_⟩
  simp [config, hf]

theorem before_informed : Informed env memory before ⟨0⟩ object where
  valid := rfl
  depth := rfl
  fact := ⟨_, rfl, by decide, by decide, fun _ hc => by cases hc⟩

/-- The object is in its register and gets through the test of an object, and rightly so; it
masquerades. -/
theorem object_tested :
    heldIn env before ⟨0⟩ .jsValue = some ⟨2⟩ ∧ Value.passes env.layout memory object
      .object = true ∧
    Value.overlooked env.layout memory object .object = false ∧ Cell.masquerades env.layout memory
      object = true := by
  decide

end Masquerading

/-- The use of an object and the untyped use differ on an object that masquerades. -/
theorem object_truth_masquerading : ∃ r s' r' s'', ∃ flag flag' : Bool,
    truth { node := ⟨0⟩, useKind := .object } Masquerading.env Masquerading.before = .ok (r, s') ∧
      truth { node := ⟨0⟩ } Masquerading.env Masquerading.before = .ok (r', s'') ∧
      ((Machine.truthful s'.builder.func).Runs Masquerading.before.builder
        (Masquerading.config s'.builder.func) s'.builder
        fun c₁ => c₁.Has s'.builder r .i32 (ofBool flag)) ∧
      ((Machine.truthful s''.builder.func).Runs Masquerading.before.builder
        (Masquerading.config s''.builder.func) s''.builder
        fun c₁ => c₁.Has s''.builder r' .i32 (ofBool flag')) ∧ flag ≠ flag' := by
  have hcheck (k : UseKind) (hk : k = .object ∨ k = .untyped) :
      ∃ r s', truth { node := ⟨0⟩, useKind := k } Masquerading.env Masquerading.before = .ok (r,
        s') ∧ 2 < s'.builder.func.types.size := by
    have hsome :
      ((truth { node := ⟨0⟩, useKind := k } Masquerading.env Masquerading.before).toOption.any
        fun p => decide (2 < p.2.builder.func.types.size)) = true := by
      rcases hk with rfl | rfl <;> decide +kernel
    obtain ⟨⟨r, s'⟩, hp, hsize⟩ := (Option.any_eq_true _ _).1 hsome
    refine ⟨r, s', ?_, of_decide_eq_true hsize⟩
    cases hx : truth { node := ⟨0⟩, useKind := k } Masquerading.env Masquerading.before with
    | error f => rw [hx] at hp; cases hp
    | ok p => rw [hx] at hp; cases hp; rfl
  obtain ⟨r, s', h, hsize⟩ := hcheck .object (.inl rfl)
  obtain ⟨r', s'', h', hsize'⟩ := hcheck .untyped (.inr rfl)
  have hm : s'.builder.Completes (Machine.truthful s'.builder.func).func :=
    s'.builder.completes_self
  have hm' : s''.builder.Completes (Machine.truthful s''.builder.func).func :=
    s''.builder.completes_self
  obtain ⟨hheld, hpasses, hover, hmasquerades⟩ := Masquerading.object_tested
  obtain ⟨flag, flag', hruns, hruns', hiff⟩ := object_truth_iff h h' hm hm'
    (Masquerading.before_at _) (Masquerading.before_at _) rfl rfl hheld
      (Masquerading.config_has hsize)
    (Masquerading.config_has hsize') Masquerading.before_informed rfl rfl hpasses hover
      (Machine.truthful_tellsTruth _ _)
  refine ⟨r, s', r', s'', flag, flag', h, h', hruns, hruns', fun hsame => ?_⟩
  exact Bool.noConfusion (hmasquerades.symm.trans (hiff.1 hsame (by decide +kernel)))

/-- The code says that the object is true. It is not, as it masquerades. -/
theorem negatedObject_returns_false :
    simulated negatedObject Masquerading.memory = some (.returned Value.falseWord) ∧
    Value.truthy {} Masquerading.memory Masquerading.object = false := by
  refine ⟨by decide +kernel, by decide +kernel⟩

end Lowering

end SpecJit
