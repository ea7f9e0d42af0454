import SpecJit.Proofs.Lowering.Arithmetic
import SpecJit.Proofs.Lowering.CellUses
import SpecJit.Proofs.Lowering.Proceeding
import SpecJit.Proofs.Lowering.Laws.Elements

/-!
# Elements in memory

Where the elements of arrays are, and the parts that the code for elements is made of: fields of
cells, addresses of elements, comparisons of an index with a length. An index and a length are
unsigned numbers of 32 bits.
-/

namespace SpecJit

open Lir

/-! ## Views -/

namespace View

/-- The number of elements of a typed array. -/
def length (layout : ObjectLayout) (memory : Memory) (view : Word) : UInt32 :=
  (memory.read (Machine.address view (Int32.ofInt (layout.fieldOffset .typedArrayLength)))
    4).toUInt32

/-- The address of an element of a typed array. -/
def elementAddress (layout : ObjectLayout) (memory : Memory) (kind : ElementKind) (view : Word)
    (index : Int32) : Word :=
  memory.read (Machine.address view (Int32.ofInt (layout.fieldOffset .typedArrayVector))) 8 +
    index.toUInt32.toUInt64 <<< UInt64.ofNat kind.shift

end View

theorem Lir.BinaryOp.shl_eval (w : Word) {shift : Nat} (h : shift < 64) :
    BinaryOp.shl.eval .i64 w (Int64.ofInt shift).toUInt64 = w <<< UInt64.ofNat shift := by
  have hs : ∀ k : Fin 64, ((BitVec.ofNat 64 k).smod 64#64).toNat = k := by decide +kernel
  apply UInt64.toBitVec_inj.1
  simp [BinaryOp.eval, binary64, Int64.ofInt, hs ⟨shift, h⟩, Nat.mod_eq_of_lt h]

theorem Lir.ofBool_ne_zero {t : Bool} : (ofBool t).toUInt32 ≠ 0 ↔ t = true := by cases t <;> decide

theorem Lir.ofBool_eq_zero {t : Bool} : (ofBool t).toUInt32 = 0 ↔ t = false := by cases t <;> decide

theorem Lir.IntCC.ult_eval (k n : UInt32) :
    IntCC.ult.eval .i32 k.toUInt64 n.toUInt64 = decide (k < n) := by
  simp [IntCC.eval, IntCC.holds, UInt32.lt_iff_toNat_lt]

theorem Lir.IntCC.uge_eval (k n : UInt32) :
    IntCC.uge.eval .i32 k.toUInt64 n.toUInt64 = decide (n ≤ k) := by
  simp [IntCC.eval, IntCC.holds, UInt32.le_iff_toNat_le]

namespace Lowering

section

variable {β σ : Type} {m : Machine σ} {L : Set Word} {b : Builder} {c : Config σ} {env : Env}
  {s : State} {id : NodeId} {node : Node} {form : Form} {value storage index length : Reg}
  {v w : Word} {k n : UInt32} {o : Except ExitKind (β → State → Config σ → Prop)}

/-! ## Uses -/

/-- Uses of a node were read between two states: nothing else was done, and other uses are what they
were. -/
structure AfterReads (m : Machine σ) (env : Env) (s : State) (c : Config σ) (s₁ : State)
    (c₁ : Config σ) : Prop where
  stands : m.At s₁.builder c₁
  follows : c.Follows s.builder c₁ s₁.builder
  valid : s₁.facts.valid = true
  depth : s₁.armDepth = 0
  int32 : ∀ {x n}, IsInt32 env s c x n → IsInt32 env s₁ c₁ x n
  storage : ∀ {x r}, heldIn env s x .storage = some r → heldIn env s₁ x .storage = some r

/-- The code of a node whose first use is a cell, where it is entered. -/
structure Entered (m : Machine σ) (env : Env) (id : NodeId) (node : Node) (base : Edge)
    (cell : Word) (s s' : State) (c : Config σ) :
    Prop where
  found : env.graph.node id = .ok node
  lowered : lowerOp id node env s = .ok ((), s')
  completes : s'.builder.Completes m.func
  stands : m.At s.builder c
  cell : IsCell env s c base cell
  valid : s.facts.valid = true
  depth : s.armDepth = 0

section Uses

variable {u : Unit} {s' : State} {e : Edge} {i : Int32}
  {o : Except ExitKind (Unit → State → Config σ → Prop)}

/-- A cell is read before the rest. -/
theorem performs_asCell {f : Reg → Lower Unit} [∀ r, Tidy (f r)]
    (h : (asCell e >>= f) env s = .ok (u, s'))
    (hm : s'.builder.Completes m.func) (hc : m.At s.builder c) (hx : IsCell env s c e w)
    (hvalid : s.facts.valid = true)
    (hdepth : s.armDepth = 0)
    (k : ∀ {r s₁ c₁}, f r env s₁ = .ok (u, s') → AfterReads m env s c s₁ c₁ →
      KeepsUses env s c s₁ c₁ →
      AbstractState.NarrowedAt env.graph e.node s.facts s₁.facts → c₁.Has s₁.builder r .i64 w →
      Performs m L s₁ s' c₁ o) :
    Performs m L s s' c o := by
  obtain ⟨r, s₁, h₁, h⟩ := bind_ok h
  have e₁ : s.builder.Emits [] s₁.builder := Tidy.after h₁ (.refl hc.wf)
  have e₂ : s₁.builder.Emits [] s'.builder := Tidy.after h (.refl e₁.after)
  obtain ⟨hvalid₁, hdepth₁, -, hnarrowed, hruns⟩ :=
    asCell_used h₁ (e₂.toExtends.completes hm) hc hx hvalid hdepth
  exact .after hruns e₁ fun c₁ hc₁ hf ⟨hr, hkeep⟩ => k h ⟨hc₁, hf, hvalid₁, hdepth₁, hkeep.int32,
    hkeep.storage⟩ hkeep hnarrowed hr

/-- An int32 is read before the rest. -/
theorem performs_asInt32 {f : Reg → Lower Unit} [∀ r, Tidy (f r)]
    (h : (asInt32 e >>= f) env s = .ok (u, s'))
    (hm : s'.builder.Completes m.func) (hc : m.At s.builder c) (hx : IsInt32 env s c e.node i)
    (hvalid : s.facts.valid = true)
    (hdepth : s.armDepth = 0)
    (k : ∀ {r s₁ c₁}, f r env s₁ = .ok (u, s') → AfterReads m env s c s₁ c₁ →
      c₁.Has s₁.builder r .i32 (ofInt32 i) →
      Performs m L s₁ s' c₁ o) :
    Performs m L s s' c o := by
  obtain ⟨r, s₁, h₁, h⟩ := bind_ok h
  have e₁ : s.builder.Emits [] s₁.builder := Tidy.after h₁ (.refl hc.wf)
  have e₂ : s₁.builder.Emits [] s'.builder := Tidy.after h (.refl e₁.after)
  obtain ⟨hread, hvalid₁, hruns⟩ := asInt32_reads h₁ (e₂.toExtends.completes hm) hc hx hvalid hdepth
  refine .after hruns e₁ fun c₁ hc₁ hf ⟨hr, hkeep⟩ =>
    k h ⟨hc₁, hf, hvalid₁, hread.depth.trans hdepth, fun {x n} hn => ?_,
    fun {x r'} hheld => ?_⟩ hr
  · refine hkeep (fun hsame => ?_) hn
    subst hsame
    exact hx.unique h₁ hn
  · exact (hread.heldIn_of_ne (by decide)).trans hheld

end Uses

/-! ## Fields -/

theorem address_zero (a : Word) : Machine.address a (Int32.ofInt 0) = a := UInt64.add_zero a

theorem loadField32_yieldsIn (h : c.Has b value .i64 w) (field : CellField)
    (hl : Machine.address w (Int32.ofInt (env.layout.fieldOffset field)) ∈ L) :
    YieldsIn m L env b c (loadField32 value field) .i32 (UInt32.toUInt64 (UInt64.toUInt32
      (c.memory.read (Machine.address w (Int32.ofInt (env.layout.fieldOffset field))) 4))) :=
  .ofRead (.ofEmit (Emit.load_yieldsIn h hl))

theorem loadField64_yieldsIn (h : c.Has b value .i64 w) (field : CellField)
    (hl : Machine.address w (Int32.ofInt (env.layout.fieldOffset field)) ∈ L) :
    YieldsIn m L env b c (loadField64 value field) .i64
      (c.memory.read (Machine.address w (Int32.ofInt (env.layout.fieldOffset field))) 8) :=
  .ofRead (.ofEmit (Emit.load_yieldsIn h hl))

theorem loadField32_yields (h : c.Has b value .i64 w) (field : CellField) :
    Yields m env b c (loadField32 value field) .i32 (UInt32.toUInt64 (UInt64.toUInt32
      (c.memory.read (Machine.address w (Int32.ofInt (env.layout.fieldOffset field))) 4))) :=
  (loadField32_yieldsIn (L := .univ) h field trivial).yields

theorem loadField64_yields (h : c.Has b value .i64 w) (field : CellField) :
    Yields m env b c (loadField64 value field) .i64
      (c.memory.read (Machine.address w (Int32.ofInt (env.layout.fieldOffset field))) 8) :=
  (loadField64_yieldsIn (L := .univ) h field trivial).yields

/-! ## Indices -/

theorem elementAddress_yieldsIn (hs : c.Has b storage .i64 v) (hi : c.Has b index .i32 k.toUInt64)
    {shift : Nat} (hshift : shift < 64) :
    (elementAddress storage index shift).YieldsIn m L b c .i64
      (v + k.toUInt64 <<< UInt64.ofNat shift) := by
  refine (Emit.zeroExtend_yieldsIn hi).bind fun hf hwide => ?_
  refine (Emit.binaryImm_yieldsIn hwide).bind fun hf' hscaled => ?_
  refine (Emit.binary_yieldsIn (hs.later (hf.trans hf')) hscaled).congr ?_
  rw [Ty.normalize_i64, Ty.normalize_i64, Ty.normalize_i64, BinaryOp.add_eval,
    BinaryOp.shl_eval _ hshift]
  simp [extend]

theorem elementAddress_yields (hs : c.Has b storage .i64 v) (hi : c.Has b index .i32 k.toUInt64)
    {shift : Nat} (hshift : shift < 64) :
    (elementAddress storage index shift).Yields m b c .i64
      (v + k.toUInt64 <<< UInt64.ofNat shift) :=
  (elementAddress_yieldsIn (L := ∅) hs hi hshift).yields

theorem inBounds_yieldsIn (hi : c.Has b index .i32 k.toUInt64) (hl : c.Has b length .i32 n.toUInt64)
    :
    (Emit.icmp .ult index length).YieldsIn m L b c .i32 (ofBool (decide (k < n))) :=
  (Emit.icmp_yieldsIn hi hl).congr (by rw [IntCC.ult_eval])

/-- An index that is not below the length leaves. -/
theorem Proceeds.checkInBounds {f : Unit → Lower β} [∀ u, Tidy (f u)] [∀ u, KeepsExits (f u)]
    (hi : c.Has s.builder index .i32 k.toUInt64) (hl : c.Has s.builder length .i32 n.toUInt64)
    (hf : k < n → ∀ {s' : State} {c' : Config σ}, SameButCode s s' → c.Follows s.builder c'
      s'.builder →
      Proceeds m L env s' c' (f ()) o) :
    Proceeds m L env s c (Lowering.checkInBounds index length >>= f)
      (if n ≤ k then .error .outOfBounds else o) := by
  have htest : (Emit.icmp .uge index length).YieldsIn m L s.builder c .i32
    (ofBool (decide (n ≤ k))) :=
    (Emit.icmp_yieldsIn hi hl).congr (by rw [IntCC.uge_eval])
  rw [Lowering.checkInBounds, bind_assoc]
  refine .value (.ofEmit htest) fun hsame hfollows ht => ?_
  have hguard : Proceeds m L env _ _ (speculate .outOfBounds none _ >>= f)
    (if decide (n ≤ k) then .error .outOfBounds else o) :=
    .guard ht fun hin {_ _} hsame' hfollows' =>
      hf (UInt32.not_le.1 (of_decide_eq_false hin)) (hsame.trans hsame') (hfollows.trans hfollows')
  simpa using hguard

/-! ## Results -/

theorem boxInt32_yieldsIn {ty : Ty} (h : c.Has b value ty w) :
    (boxInt32 value).YieldsIn m L b c .i64 (Value.boxInt32 (low32 w)) := by
  refine (Emit.zeroExtend_yieldsIn h).bind fun _ hwide => (Emit.binaryImm_yieldsIn hwide).congr ?_
  simp only [Ty.normalize_i64, BinaryOp.or_eval, ofInt_wordImm, Value.boxInt32, extend, low32]
  exact UInt64.or_comm _ _

theorem boxDouble_yieldsIn {ty : Ty} (h : c.Has b value ty w) :
    (boxDouble value false).YieldsIn m L b c .i64 (w + Value.doubleOffset) :=
  (Emit.bitcastToInt_yieldsIn h).bind fun _ hbits => (Emit.binaryImm_yieldsIn hbits).congr (by simp)

namespace Loaded

/-- The machine type of an element that was loaded. -/
def type : Loaded → Ty
  | .boxed => .i64
  | .double => .f64
  | .int32 => .i32

/-- The word that is recorded for an element that was loaded. -/
def wordAs : Loaded → Form → Word → Word
  | .boxed, .int32, w => ofInt32 (low32 w)
  | .double, .jsValue, w => w + Value.doubleOffset
  | .int32, .double, w => (Double.ofInt (low32 w).toInt).bits
  | .int32, .jsValue, w => Value.boxInt32 (low32 w)
  | _, _, w => w

/-- The forms in which an element can be recorded that was loaded. -/
def yields : Loaded → Form → Bool
  | _, .jsValue | .boxed, .int32 | .int32, .int32 | .int32, .double | .double, .double => true
  | _, _ => false

end Loaded

/-- The node is held in a form as the word. -/
abbrev HeldWord (id : NodeId) (form : Form) (memory : Memory) (w : Word) :
    Unit → State → Config σ → Prop :=
  HeldAs id form fun w' memory' => w' = w ∧ memory' = memory

/-- A boxed element is recorded. -/
theorem proceeds_setBoxed {R : Word → Memory → Prop} (hnode : env.graph.node id = .ok node)
    (hresult : node.result = .jsValue) (hdepth : s.armDepth = 0)
    (hvalue : InRegister .i64 R value s.builder c) :
    Proceeds m L env s c (setElement id value .boxed) (.ok (HeldAs id .jsValue R)) := by
  refine .ofNode hnode ?_
  rw [hresult]
  exact proceeds_setResult hnode (by rw [hresult]; rfl) hdepth hvalue

/-- An element is recorded in the form of the node's result. -/
theorem proceeds_setElement {loaded : Loaded} (hnode : env.graph.node id = .ok node)
    (hform : node.result.form? = some form) (hyields : loaded.yields form = true)
    (hdepth : s.armDepth = 0) (hvalue : c.Has s.builder value loaded.type v) {memory : Memory}
    (hmem : c.memory = memory) (hw : loaded.wordAs form v = w) :
    Proceeds m L env s c (setElement id value loaded) (.ok (HeldWord id form memory w)) := by
  subst hmem hw
  have hset {x : Emit Reg} [x.Tidy] (hx : x.YieldsIn m L s.builder c form.type
    (loaded.wordAs form v)) :
      Proceeds m L env s c (do setResult id (← x))
        (.ok (HeldWord id form c.memory (loaded.wordAs form v))) :=
    .value (.ofEmit hx) fun hsame hfollows hr =>
      proceeds_setResult hnode hform (hsame.armDepth.trans hdepth) ⟨_, hr, rfl, hfollows.memory⟩
  have hkept (hword : loaded.wordAs form v = v) (htype : loaded.type = form.type) :
      Proceeds m L env s c (setResult id value)
        (.ok (HeldWord id form c.memory (loaded.wordAs form v))) :=
    proceeds_setResult hnode hform hdepth ⟨v, htype ▸ hvalue, hword.symm, rfl⟩
  have htruncate (h : loaded.wordAs form v = ofInt32 (low32 v)) (hty : form.type = .i32) :
      Proceeds m L env s c (do setResult id (← Emit.truncate value))
        (.ok (HeldWord id form c.memory (loaded.wordAs form v))) :=
    hset (by rw [h, hty]; exact Emit.truncate_yieldsIn hvalue)
  refine .ofNode hnode ?_
  cases hresult : node.result <;> rw [hresult] at hform <;> cases hform <;> cases loaded <;>
    cases hyields
  case int32.refl.boxed.refl => exact htruncate rfl rfl
  case int32.refl.int32.refl | double.refl.double.refl | cell.refl.boxed.refl
      | jsValue.refl.boxed.refl => exact hkept rfl rfl
  case double.refl.int32.refl => exact hset (Emit.intToDouble_yieldsIn hvalue)
  case cell.refl.double.refl | jsValue.refl.double.refl => exact hset (boxDouble_yieldsIn hvalue)
  case cell.refl.int32.refl | jsValue.refl.int32.refl => exact hset (boxInt32_yieldsIn hvalue)

end

/-! ## A cell and an int32 as arguments -/

namespace TwoArguments

variable {node : Node} {f : Function} {memory : Memory} {v w : Word} {n : Int32} {e : Edge}

theorem config_hasIn (hf : 3 < f.types.size) :
    Config.Has { config f v w with memory } (before (graph node .jsValue .jsValue) .jsValue).builder
      ⟨2⟩ .i64 v ∧
      Config.Has { config f v w with memory } (before (graph node .jsValue .jsValue)
        .jsValue).builder ⟨3⟩ .i64 w := by
  have hregs : Config.Has (config f v w) (before (graph node .jsValue .jsValue) .jsValue).builder
    ⟨2⟩ .i64 v ∧
      Config.Has (config f v w) (before (graph node .jsValue .jsValue) .jsValue).builder ⟨3⟩ .i64
        w := config_has hf
  obtain ⟨⟨hty, hv⟩, hty', hw⟩ := hregs
  exact ⟨⟨hty, hv⟩, hty', hw⟩

theorem first_isCell (he : e.node = ⟨0⟩) (hf : 3 < f.types.size) (hcell : Value.isCell v = true)
    (hpass : Value.passes {} memory v e.useKind = true)
    (hseen : Value.overlooked {} memory v e.useKind = false)
    (hknown : ∃ known, (before (graph node .jsValue .jsValue) .jsValue).facts.factOf
      (graph node .jsValue .jsValue) ⟨0⟩ = .ok known ∧
      known.Describes (Value.kindOf {} memory v)) :
    IsCell (env (graph node .jsValue .jsValue)) (before (graph node .jsValue .jsValue) .jsValue)
      { config f v w with memory } e v where
  holds := by
    rw [he]
    refine ⟨{ op := .getStack { operand := .arg 1, slot := .arg 1, format := .jsValue },
              result := .jsValue }, rfl, fun form r hr => ?_,
      nofun, fun _ _ _ => rfl⟩
    cases form with
    | jsValue =>
      cases hr
      exact ⟨v, rfl, (config_hasIn hf).1⟩
    | _ => cases hr
  fact := by
    rw [he]
    obtain ⟨known, hfact, hdesc⟩ := hknown
    refine ⟨known, hfact, fun u hu => ?_⟩
    obtain rfl := Datum.boxesTo_boxed.1 hu
    exact ⟨hdesc, hpass, hseen⟩
  cell := hcell

theorem second_isInt32 (hf : 3 < f.types.size) :
    IsInt32 (env (graph node .jsValue .jsValue)) (before (graph node .jsValue .jsValue) .jsValue)
      { config f v (Value.boxInt32 n) with memory } ⟨1⟩ n :=
  .ofBoxed rfl rfl (fun form => by cases form <;> rfl) (config_hasIn hf).2
    ⟨.ofType NodeResult.jsValue.typeBound, rfl, SpecType.ofInt32_isEmpty n,
      SpecType.subset_trans (SpecType.ofInt32_subset n) (by decide), nofun⟩

theorem before_atMemory (form : Form) :
    (Machine.plain f).At (before (graph node .jsValue .jsValue) form).builder
      { config f v w with memory } where
  wf := ⟨rfl, Nat.zero_lt_one⟩
  isOpen := rfl
  block := rfl
  position blk hb := by cases hb; rfl
  registers := by simp [config, Machine.plain]

/-- The code of a node with the first argument as its first use, a cell, where it is entered. -/
theorem entered {s' : State}
    (h : lowerOp ⟨2⟩ node (env (graph node .jsValue .jsValue))
      (before (graph node .jsValue .jsValue) .jsValue) = .ok ((), s'))
    (hsize : 3 < s'.builder.func.types.size) (hcell : Value.isCell v = true)
    (hseen : Value.overlooked {} memory v .cell = false)
    (hknown : ∃ known, (before (graph node .jsValue .jsValue) .jsValue).facts.factOf
      (graph node .jsValue .jsValue) ⟨0⟩ = .ok known ∧
      known.Describes (Value.kindOf {} memory v)) :
    Entered (Machine.plain s'.builder.func) (env (graph node .jsValue .jsValue)) ⟨2⟩ node
      { node := ⟨0⟩, useKind := .cell } v
      (before (graph node .jsValue .jsValue) .jsValue) s' { config s'.builder.func v w with memory
        } where
  found := rfl
  lowered := h
  completes := s'.builder.completes_self
  stands := before_atMemory _
  cell := first_isCell rfl hsize hcell (show Value.isCell v = true from hcell) hseen hknown
  valid := rfl
  depth := rfl

end TwoArguments

end Lowering

end SpecJit
