import SpecJit.Proofs.Lir.Yields
import SpecJit.Proofs.Lowering.DeadEnds
import SpecJit.Proofs.Lowering.Elements

/-!
# Elements of arrays of floats

An element of an array of floats is loaded as it stands in memory and boxed without a look at it.
The word that comes out is a double unless the element is a NaN that wraps around
(`float_element_isDouble_iff`): such an element turns into a value of another kind.
-/

namespace SpecJit

open Lir

namespace View

/-- An element of an array of floats. -/
def floatElement (layout : ObjectLayout) (memory : Memory) (kind : ElementKind) (view : Word)
    (index : Int32) : Double :=
  ⟨kind.width.decode false (memory.read (elementAddress layout memory kind view index) kind.size)⟩

end View

theorem Value.isDouble_add_doubleOffset (w : Word) :
    Value.isDouble (w + Value.doubleOffset) = !Value.isImpureNaN w := by
  have hw := w.toNat_lt
  rw [Bool.eq_iff_iff]
  simp only [Value.isDouble, Value.isImpureNaN, Bool.and_eq_true, Bool.not_eq_true',
    ← Bool.not_eq_true, Value.isInt32_iff, Value.isNumber_iff, decide_eq_true_eq,
    UInt64.le_iff_toNat_le, UInt64.toNat_add]
  simp only [Value.doubleOffset, Value.impureNaNThreshold, UInt64.reduceToNat]
  omega

namespace Lowering

section

variable {σ : Type} {m : Machine σ} {c c' : Config σ} {env : Env} {s s' : State} {id : NodeId}
  {node : Node} {e : Edge} {x : Datum} {r : Reg} {u : Unit} {w : Word} {n : Int32}

/-! ## Loading an element -/

section Element

variable {b : Builder} {value storage index : Reg} {v : Word}

/-- A check of an index goes on if the index is in bounds. -/
theorem checkInBounds_runs {length : Reg} {k : UInt32}
    (h : checkInBounds index length env s = .ok (u, s')) (hm : s'.builder.Completes m.func)
    (hc : m.At s.builder c) (hi : c.Has s.builder index .i32 (ofInt32 n))
    (hl : c.Has s.builder length .i32 k.toUInt64) :
    m.Leaves s'.builder c ∨ (n.toUInt32 < k ∧ m.Runs s.builder c s'.builder fun _ => True) := by
  obtain ⟨r, b₁, h₁, h⟩ := emit_bind_ok h
  have e₁ := (inferInstance : (Emit.icmp .uge index length).Tidy).emits _ _ _ hc.wf h₁
  have e₂ : b₁.Emits [] s'.builder := Tidy.after h (.refl e₁.after)
  have hruns : m.Runs s.builder c b₁ fun c' =>
    c'.Has b₁ r .i32 (ofBool (IntCC.uge.eval .i32 (ofInt32 n) k.toUInt64)) :=
    Emit.icmp_yields hi hl (.refl _ _) hc h₁ (e₂.toExtends.completes hm)
  have htest : IntCC.uge.eval .i32 (ofInt32 n) k.toUInt64 = decide (k ≤ n.toUInt32) := by
    simp [IntCC.eval, IntCC.holds, ofInt32, UInt32.le_iff_toNat_le]
  rw [htest] at hruns
  by_cases hout : k ≤ n.toUInt32
  · exact .inl (hruns.leaves e₂.toExtends fun c₁ hc₁ _ hr => (speculate_runs h hm hc₁ hr).2
      (by simp [hout, ofBool]))
  · refine .inr ⟨UInt32.not_le.1 hout, hruns.bind e₁.toExtends e₂.toGrows fun c₁ hc₁ _ hr => ?_⟩
    exact (speculate_runs h hm hc₁ hr).1 (by simp [hout, ofBool])

/-- An element of an array of floats is loaded as a double. -/
theorem loadTypedElement_float {kind : ElementKind} {loaded : Loaded}
    (h : loadTypedElement id kind storage index env s = .ok ((r, loaded), s'))
    (hfloat : kind.isFloat = true) :
    loaded = .double ∧ ∃ b,
      (do Emit.load .f64 kind.width false (← elementAddress storage index kind.shift) 0) s.builder =
      .ok (r, b) ∧ s' = { s with builder := b } := by
  obtain ⟨address, b₁, h₁, h⟩ := emit_bind_ok h
  cases kind with
  | float32 | float64 =>
    obtain ⟨r', b₂, h₂, h⟩ := emit_bind_ok h
    cases h
    refine ⟨rfl, b₂, ?_, rfl⟩
    rw [Emit.bind_of_ok h₁]
    exact h₂
  | _ => cases hfloat

/-- The load gives the element. -/
theorem floatElement_yields {kind : ElementKind} (hs : c.Has b storage .i64 v)
    (hi : c.Has b index .i32 (ofInt32 n)) :
    Emit.Yields m b c
      (do Emit.load .f64 kind.width false (← elementAddress storage index kind.shift) 0) .f64
      (kind.width.decode false (c.memory.read (v + n.toUInt32.toUInt64 <<< UInt64.ofNat kind.shift)
        kind.size)) := by
  have hshift : kind.shift < 64 := by cases kind <;> decide
  have hbytes : kind.width.bytes = kind.size := by cases kind <;> rfl
  have hzero (a : Word) : Machine.address a (Int32.ofInt 0) = a := UInt64.add_zero a
  refine (elementAddress_yields hs hi hshift).bind fun hf ha => (Emit.load_yields ha).congr ?_
  rw [hf.memory, hbytes, hzero]
  rfl

/-- A double that is recorded as a boxed value. -/
theorem setElement_double (h : setElement id r .double env s = .ok (u, s'))
    (hnode : env.graph.node id = .ok node) (hresult : node.result = .jsValue)
    (hdepth : s.armDepth = 0) :
    ∃ r' b, boxDouble r false s.builder = .ok (r', b) ∧ s'.builder = b ∧
      s'.values.lookup (id, .jsValue) = some (r', s'.block) := by
  obtain ⟨node', hnode', h⟩ := getNode_bind_ok h
  rw [hnode] at hnode'
  cases hnode'
  rw [hresult] at h
  obtain ⟨r', b, hb, h⟩ := emit_bind_ok h
  obtain rfl := setResult_ok h hnode (by rw [hresult]; rfl) hdepth
  exact ⟨r', b, hb, rfl, by simp⟩

/-- An element of an array of floats is boxed as it is, and the word is a double unless the element
is a NaN that wraps around. -/
theorem float_element_isDouble_iff {mode : ArrayMode} {kind : ElementKind} {base at_ : Edge}
    {rest : List Edge} {view : Word} {vnode inode : Node} (hnode : env.graph.node id = .ok node)
    (hop : node.op = .getByVal mode) (hmode : mode.arrayType = .typedArray kind)
    (hfloat : kind.isFloat = true) (hresult : node.result = .jsValue)
    (hchildren : node.children = base :: at_ :: rest) (h : lowerOp id node env s = .ok (u, s'))
    (hm : s'.builder.Completes m.func) (hc : m.At s.builder c)
    (hview : Holds env s c base.node vnode (.boxed view))
    (hi : Informed env c.memory s base.node view)
    (ho : Value.overlooked env.layout c.memory view base.useKind = false)
    (hindex : Holds env s c at_.node inode x) (hn : x.int32? = some n) :
    m.Leaves s'.builder c ∨ ∃ r, (s'.values.lookup (id, .jsValue) = some (r, s'.block) ∧
        n.toUInt32 < View.length env.layout c.memory view) ∧
      m.Runs s.builder c s'.builder fun c' => ∃ w, c'.Has s'.builder r .i64 w ∧
        (Value.isDouble w = true ↔
          Value.isImpureNaN (View.floatElement env.layout c.memory kind view n).bits = false) ∧
        (Value.isDouble w = true → w = Value.boxDouble (View.floatElement env.layout c.memory kind
          view n)) := by
  have hlower : lowerOp id node = lowerGetTypedElement id node kind := by
    unfold lowerOp
    rw [hop]
    change lowerGetByVal id node mode = _
    rw [lowerGetByVal, hmode]
  rw [hlower, lowerGetTypedElement] at h
  obtain ⟨base', hbase, h⟩ := check_bind_ok h
  obtain rfl : base = base' := by simpa [Node.child, hchildren, Fault.ofOption] using hbase
  obtain ⟨r₁, s₁, h₁, h⟩ := bind_ok h
  obtain ⟨at', hat, h⟩ := check_bind_ok h
  obtain rfl : at_ = at' := by simpa [Node.child, hchildren, Fault.ofOption] using hat
  obtain ⟨r₂, s₂, h₂, h⟩ := bind_ok h
  obtain ⟨r₃, s₃, h₃, h⟩ := bind_ok h
  obtain ⟨_, s₄, h₄, h⟩ := bind_ok h
  obtain ⟨r₅, s₅, h₅, h⟩ := bind_ok h
  obtain ⟨⟨r₆, loaded⟩, s₆, h₆, h⟩ := bind_ok h
  obtain ⟨rfl, b₆, hload, rfl⟩ := loadTypedElement_float h₆ hfloat
  have e₁ : s.builder.Emits [] s₁.builder := Tidy.after h₁ (.refl hc.wf)
  have e₂ : s₁.builder.Emits [] s₂.builder := Tidy.after h₂ (.refl e₁.after)
  have e₃ : s₂.builder.Emits [] s₃.builder := Tidy.after h₃ (.refl e₂.after)
  have e₄ : s₃.builder.Emits [] s₄.builder := Tidy.after h₄ (.refl e₃.after)
  have e₅ : s₄.builder.Emits [] s₅.builder := Tidy.after h₅ (.refl e₄.after)
  have e₆ : s₅.builder.Emits [] b₆ := Tidy.after h₆ (.refl e₅.after)
  have e₇ : b₆.Emits [] s'.builder := Tidy.after h (.refl e₆.after)
  have x₆ := e₆.trans e₇
  have x₅ := e₅.trans x₆
  have x₄ := e₄.trans x₅
  have x₃ := e₃.trans x₄
  have x₂ := e₂.trans x₃
  -- the array and the index
  rcases asCell_runs h₁ (x₂.toExtends.completes hm) hc hview hi ho with hleave | ⟨hvalid₁, hdepth₁,
    hblock₁, hruns₁⟩
  · exact .inl (hleave.grow x₂.toExtends)
  refine hruns₁.orLeaves e₁.toExtends x₂ fun c₁ hc₁ hf₁ hr₁ => ?_
  obtain ⟨hr₁, hkeep₁⟩ := hr₁
  rcases asInt32_runs h₂ (x₃.toExtends.completes hm) hc₁ (hkeep₁ hindex) hn hvalid₁ hdepth₁ with
    hleave | ⟨hdepth₂, -, hruns₂⟩
  · exact .inl (hleave.grow x₃.toExtends)
  refine hruns₂.orLeaves e₂.toExtends x₃ fun c₂ hc₂ hf₂ hr₂ => ?_
  -- the bounds
  have hview₂ := hr₁.later hf₂
  refine (loadField32_yields hview₂ _ (.refl _ _) hc₂ h₃ (x₄.toExtends.completes hm)).orLeaves
    e₃.toExtends x₄
    fun c₃ hc₃ hf₃ hr₃ => ?_
  rcases checkInBounds_runs h₄ (x₅.toExtends.completes hm) hc₃ (hr₂.later hf₃) hr₃
    with hleave | ⟨hlt, hruns₄⟩
  · exact .inl (hleave.grow x₅.toExtends)
  refine hruns₄.orLeaves e₄.toExtends x₅ fun c₄ hc₄ hf₄ _ => ?_
  -- the element
  have hview₄ := hview₂.later (hf₃.trans hf₄)
  refine (loadField64_yields hview₄ _ (.refl _ _) hc₄ h₅ (x₆.toExtends.completes hm)).orLeaves
    e₅.toExtends x₆
    fun c₅ hc₅ hf₅ hr₅ => ?_
  have hindex₅ := hr₂.later (hf₃.trans (hf₄.trans hf₅))
  refine (floatElement_yields hr₅ hindex₅ (.refl _ _) hc₅ hload
    (e₇.toExtends.completes hm)).orLeaves e₆.toExtends e₇
    fun c₆ hc₆ hf₆ hr₆ => ?_
  have hdepth₅ : s₅.armDepth = 0 := by
    rw [(Quiet.same _ _ _ _ h₅).armDepth, (Quiet.same _ _ _ _ h₄).armDepth,
      (Quiet.same _ _ _ _ h₃).armDepth, hdepth₂]
  obtain ⟨r, b, hbox, hb, hrecorded⟩ := setElement_double h hnode hresult hdepth₅
  have hmem₂ : c₂.memory = c.memory := hf₂.memory.trans hf₁.memory
  have hmem₄ : c₄.memory = c.memory := (hf₃.trans hf₄).memory.trans hmem₂
  rw [hmem₂] at hlt
  rw [hf₅.memory, hmem₄] at hr₆
  change c₆.Has b₆ r₆ .f64 (View.floatElement env.layout c.memory kind view n).bits at hr₆
  generalize View.floatElement env.layout c.memory kind view n = d at hr₆
  rw [hb] at hm ⊢
  have hboxed : m.Runs b₆ c₆ b fun c₇ => c₇.Has b r .i64 (d.bits + Value.doubleOffset) :=
    boxDouble_yields hr₆ false (.refl _ _) hc₆ hbox hm
  refine .inr ⟨r, ⟨hrecorded, hlt⟩, hboxed.mono fun c₇ _ hr => ⟨_, hr, ?_⟩⟩
  rw [Value.isDouble_add_doubleOffset, Bool.not_eq_true']
  refine ⟨Iff.rfl, fun hpure => ?_⟩
  rw [Value.boxDouble, Value.purifyNaN, hpure]
  rfl

end Element

end

/-! ## A NaN that turns into a cell

Any bits can stand in an array of floats, also those of a NaN that wraps around to the address of
the array. -/

/-- Returns the first element of an array of floats. -/
def firstElement (kind : ElementKind) : Graph where
  name := "firstElement"
  nodes := #[
    { op := .getStack { operand := .arg 1, slot := .arg 1, format := .jsValue },
      result := .jsValue },
    { op := .jsConstant (.int32 0), result := .jsValue },
    { op := .getByVal { arrayType := .typedArray kind, speculation := .inBounds },
      result := .jsValue
      children := [{ node := ⟨0⟩, useKind := .cell }, { node := ⟨1⟩, useKind := .int32 }] },
    { op := .ret, children := [{ node := ⟨2⟩ }] }]
  blocks := #[{ index := ⟨0⟩, nodes := #[⟨0⟩, ⟨1⟩, ⟨2⟩, ⟨3⟩] }]
  numArguments := 2
  numLocals := 0

/-- The address of an array. -/
def arrayAddress : Word := 0x5000

/-- Memory in which argument 1 is an array of one element, given by its bytes. -/
def memoryOfArray (size : Nat) (element : Word) : Memory :=
  let m := Simulation.FrameValues.memory { arguments := [arrayAddress] }
  ((m.write (arrayAddress + 8) 8 0x6000).write (arrayAddress + 16) 4 1).write 0x6000 size element

/-- NaNs in arrays of floats turn into cells, one of them into the array itself. -/
theorem firstElement_returns_cell :
    (firstElement .float64).canCompile.isOk = true ∧ (firstElement .float32).canCompile.isOk = true
      ∧
      simulated (firstElement .float64) (memoryOfArray 8 0xffff000000005000) = some (.returned
        arrayAddress) ∧
      simulated (firstElement .float32) (memoryOfArray 4 0xffffffff) = some (.returned
        0xffffe0000000) ∧
      Value.isCell arrayAddress = true ∧ Value.isCell 0xffffe0000000 = true ∧
      Value.isDouble arrayAddress = false ∧ Value.isDouble 0xffffe0000000 = false := by
  refine ⟨by
    decide +kernel, by
      decide +kernel, by decide +kernel, by decide +kernel, by decide, by decide, by decide,
    by decide⟩

namespace FirstElement

def env : Env where
  graph := firstElement .float64
  options := {}
  layout := {}
  dominators := { parents := #[some ⟨0⟩], numbers := #[some 0] }
  availabilityHeads := #[]
  phiParams := []
  exitOnly := []
  context := ⟨0⟩
  frame := ⟨1⟩

/-- Before the element is read: register 2 holds the array. -/
def before : State where
  builder := {
    func := { name := "firstElement", blocks := #[{}], types := #[.i64, .i64, .i64] }
    terminated := #[false]
    current := ⟨0⟩ }
  facts := { blocks := #[], current := .empty (firstElement .float64), valid := true }
  availability := .empty (firstElement .float64)
  values := [((⟨0⟩, .jsValue), ⟨2⟩, ⟨0⟩)]

def node : Node where
  op := .getByVal { arrayType := .typedArray .float64, speculation := .inBounds }
  result := .jsValue
  children := [{ node := ⟨0⟩, useKind := .cell }, { node := ⟨1⟩, useKind := .int32 }]

/-- An array whose element is the number 1.5. -/
def memory : Memory := memoryOfArray 8 0x3ff8000000000000

def config (f : Function) : Config Simulation.RuntimeState where
  registers := (Array.replicate f.types.size none).setIfInBounds 2 (some arrayAddress)
  memory := memory
  runtimeState := {}

theorem before_at (f : Function) : (simulator f).At before.builder (config f) where
  wf := ⟨rfl, by decide⟩
  isOpen := rfl
  block := rfl
  position blk hb := by cases hb; rfl
  registers := by simp [config, simulator]

theorem before_array {f : Function} (hf : 2 < f.types.size) : Holds env before (config f) ⟨0⟩
    { op := .getStack { operand := .arg 1, slot := .arg 1, format := .jsValue },
      result := .jsValue }
    (.boxed arrayAddress) where
  found := rfl
  shown form r h := by
    cases form with
    | jsValue => cases h; exact ⟨_, rfl, rfl, by simp [config, hf]⟩
    | _ => cases h
  constant _ h := by cases h
  boxed _ _ _ := rfl

theorem before_index (f : Function) : Holds env before (config f) ⟨1⟩
    { op := .jsConstant (.int32 0), result := .jsValue } (.int32 0) where
  found := rfl
  shown form r h := by cases form <;> cases h
  constant w hw := by cases hw; rfl
  boxed _ h := by cases h

theorem before_informed : Informed env memory before ⟨0⟩ arrayAddress where
  valid := rfl
  depth := rfl
  fact := ⟨_, rfl, by decide, by decide, fun _ hc => by cases hc⟩

end FirstElement

/-- A number comes out as the double that it is. -/
theorem float_element_isDouble_fraction :
    ∃ s', lowerOp ⟨2⟩ FirstElement.node FirstElement.env FirstElement.before = .ok ((), s') ∧
    ((simulator s'.builder.func).Leaves s'.builder (FirstElement.config s'.builder.func)
      ∨
      ∃ r, s'.values.lookup (⟨2⟩, .jsValue) = some (r, s'.block) ∧
        (simulator s'.builder.func).Runs FirstElement.before.builder
          (FirstElement.config s'.builder.func) s'.builder
          fun c' => c'.Has s'.builder r .i64 (Value.boxDouble ⟨0x3ff8000000000000⟩)) := by
  have hcheck : ((lowerOp ⟨2⟩ FirstElement.node FirstElement.env FirstElement.before).toOption.any
    fun r =>
      2 < r.2.builder.func.types.size) = true := by decide +kernel
  obtain ⟨⟨⟨⟩, s'⟩, h, hsize⟩ := ok_of_any hcheck
  have hview := FirstElement.before_array (of_decide_eq_true hsize)
  have hpassed : Value.overlooked {} FirstElement.memory arrayAddress .cell = false := by
    decide +kernel
  have hchildren : FirstElement.node.children =
    [{ node := ⟨0⟩, useKind := .cell }, { node := ⟨1⟩, useKind := .int32 }] := rfl
  refine ⟨s', h, ?_⟩
  refine (float_element_isDouble_iff rfl rfl rfl rfl rfl hchildren h s'.builder.completes_self
    (FirstElement.before_at _) hview
    FirstElement.before_informed hpassed (FirstElement.before_index _) rfl).imp_right ?_
  rintro ⟨r, ⟨hr, -⟩, hruns⟩
  refine ⟨r, hr, hruns.mono fun c' _ hread => ?_⟩
  obtain ⟨w, hw, hiff, hbox⟩ := hread
  have helement : View.floatElement {} FirstElement.memory .float64 arrayAddress
    0 = ⟨0x3ff8000000000000⟩ := by decide +kernel
  change (_ ↔ Value.isImpureNaN (View.floatElement {} FirstElement.memory .float64 arrayAddress
    0).bits = false) at hiff
  change _ → w = Value.boxDouble (View.floatElement {} FirstElement.memory .float64 arrayAddress 0)
    at hbox
  rw [helement] at hiff hbox
  rw [← hbox (hiff.2 (by decide))]
  exact hw

end Lowering

end SpecJit
