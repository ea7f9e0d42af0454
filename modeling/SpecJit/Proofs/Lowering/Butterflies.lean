import SpecJit.Proofs.Lowering.Conversion
import SpecJit.Proofs.Lowering.Elements

/-!
# Butterflies and write barriers

The elements of an ordinary array are in its butterfly, as words or as raw doubles, one behind the
other. The length, which the program sees, and the room, which the elements have, stand before them.

A cell that the collector has marked must be shown to it again when a pointer is stored into it. The
code looks at the mark in the cell, and calls the runtime if there is one (`writeBarrier_ends`). It
does so only if what is known of the value allows a cell (`barrierFor_ends`).
-/

namespace SpecJit

open Lir

namespace Butterfly

variable (layout : ObjectLayout) (memory : Memory) (butterfly : Word)

/-- Where a cell has the address of its butterfly. -/
def fieldAddress (cell : Word) : Word :=
  Machine.address cell (Int32.ofInt (layout.fieldOffset .butterfly))

def lengthAddress : Word :=
  Machine.address butterfly (Int32.ofInt (layout.fieldOffset .publicLength))

/-- The number of elements. -/
def length : UInt32 := (memory.read (lengthAddress layout butterfly) 4).toUInt32

/-- The number of elements that there is room for. -/
def capacity : UInt32 :=
  (memory.read (Machine.address butterfly (Int32.ofInt (layout.fieldOffset .vectorLength)))
    4).toUInt32

/-- The address of an element. -/
def slot (index : UInt32) : Word := butterfly + index.toUInt64 <<< 3

/-- The word of an element, in memory. -/
def element (index : UInt32) : Word := memory.read (slot butterfly index) 8

/-- There is no element: the word is empty, or NaN among doubles. -/
def isHole (double : Bool) (w : Word) : Bool :=
  if double then (Double.mk w).isNaN else w == Value.empty

/-- An element as the code boxes it: a double as it is. -/
def boxed (double : Bool) (w : Word) : Word := if double then w + Value.doubleOffset else w

/-- The machine type of an element. -/
def type (double : Bool) : Ty := if double then .f64 else .i64

end Butterfly

namespace Lowering

variable {β σ : Type} {m : Machine σ} {L : Set Word} {b : Builder} {c c' : Config σ} {env : Env}
  {s s' : State} {base butterfly index value : Reg} {storage : Option Edge} {cell v w : Word}
  {k : UInt32} {double : Bool} {arrayType : ArrayType}
  {o : Except ExitKind (β → State → Config σ → Prop)}

/-- Two building steps as lowering steps. -/
theorem liftM_emit_bind {α γ : Type} (x : Emit α) (f : α → Emit γ) :
    (liftM (x >>= f) : Lower γ) = (do let a ← liftM x; liftM (f a)) := by
  funext env s
  change emit (x >>= f) env s = (emit x env s >>= fun p => emit (f p.1) env p.2)
  simp only [emit, bind, StateT.bind, Except.bind]
  cases x s.builder with
  | error e => rfl
  | ok p => rfl

/-! ## The butterfly of a cell -/

/-- The butterfly of the cell: a use of storage has it, or the cell does. -/
def IsButterfly (env : Env) (s : State) (c : Config σ) (cell : Word) (storage : Option Edge)
    (v : Word) : Prop :=
  (∃ e node r, storage = some e ∧ env.graph.node e.node = .ok node ∧ node.result = .storage ∧
    heldIn env s e.node .storage = some r ∧ c.Has s.builder r .i64 v) ∨
  (∀ e ∈ storage, ∃ node, env.graph.node e.node = .ok node ∧ node.result ≠ .storage) ∧
    v = c.memory.read (Butterfly.fieldAddress env.layout cell) 8

/-- Uses that are read keep the butterfly. -/
theorem IsButterfly.later (h : IsButterfly env s c cell storage v)
    (hf : c.Follows s.builder c' s'.builder)
    (hstorage : ∀ {x r}, heldIn env s x .storage = some r → heldIn env s' x .storage = some r) :
    IsButterfly env s' c' cell storage v := by
  rcases h with ⟨e, node, r, he, hnode, hresult, hr, hhas⟩ | ⟨hnone, hv⟩
  · exact .inl ⟨e, node, r, he, hnode, hresult, hstorage hr, hhas.later hf⟩
  · exact .inr ⟨hnone, by rw [hf.memory]; exact hv⟩

/-- The butterfly is read before the rest. -/
theorem Proceeds.ofButterfly {f : Reg → Lower β} [∀ r, Tidy (f r)]
    (hb : IsButterfly env s c cell storage v)
    (hbase : c.Has s.builder base .i64 cell) (hl : Butterfly.fieldAddress env.layout cell ∈ L)
    (hf : ∀ {r : Reg} {s' : State} {c' : Config σ}, SameButCode s s' → c.Follows s.builder c'
      s'.builder →
      c'.Has s'.builder r .i64 v → Proceeds m L env s' c' (f r) o) :
    Proceeds m L env s c (butterflyOf base storage >>= f) o := by
  have hload {v : Word} (hv : v = c.memory.read (Butterfly.fieldAddress env.layout cell) 8)
      (hf : ∀ {r : Reg} {s' : State} {c' : Config σ}, SameButCode s s' → c.Follows s.builder c'
        s'.builder →
        c'.Has s'.builder r .i64 v → Proceeds m L env s' c' (f r) o) :
      Proceeds m L env s c (loadField64 base .butterfly >>= f) o :=
    .value (loadField64_yieldsIn hbase .butterfly hl) fun hsame hfollows hr =>
      hf hsame hfollows (hv ▸ hr)
  rcases hb with ⟨e, node, r, rfl, hnode, hresult, hr, hhas⟩ | ⟨hnone, hv⟩
  · rw [butterflyOf, bind_assoc]
    refine .ofNode hnode ?_
    rw [if_pos (by rw [hresult]; rfl)]
    intro s₁ s' a c₁ hsame hfollows hc h hm
    have hheld : heldIn env s₁ e.node .storage = some r := by
      rw [← hr, heldIn, heldIn, hsame.values, hsame.block]
    rw [asStorage, bind_assoc, held?_bind, hheld] at h
    exact hf hsame hfollows (hhas.later hfollows) (.refl _) (.refl _ _) hc h hm
  · cases storage with
    | none => exact hload hv hf
    | some e =>
      obtain ⟨node, hnode, hresult⟩ := hnone e rfl
      rw [butterflyOf, bind_assoc]
      refine .ofNode hnode ?_
      rw [if_neg (by simpa using hresult)]
      exact hload hv hf

theorem loadPublicLength_yieldsIn (hb : c.Has b butterfly .i64 v)
    (hl : Butterfly.lengthAddress env.layout v ∈ L) :
    YieldsIn m L env b c (loadPublicLength butterfly) .i32 (Butterfly.length env.layout c.memory
      v).toUInt64 :=
  loadField32_yieldsIn hb .publicLength hl

/-! ## Elements -/

theorem slot_yieldsIn (hb : c.Has b butterfly .i64 v) (hi : c.Has b index .i32 k.toUInt64) :
    (elementAddress butterfly index 3).YieldsIn m L b c .i64 (Butterfly.slot v k) :=
  elementAddress_yieldsIn hb hi (by decide)

/-- An element is loaded from its address. -/
theorem loadSlot_yieldsIn {address : Reg} (ha : c.Has b address .i64 (Butterfly.slot v k))
    (hl : Butterfly.slot v k ∈ L) :
    Emit.YieldsIn m L b c (if double then loadDouble address else Emit.load64 address 0)
      (Butterfly.type double)
      (Butterfly.element c.memory v k) := by
  have hload {ty : Ty} {width : MemWidth} (hbytes : width.bytes = 8)
      (hn : ∀ w, ty.normalize (width.decode false w) = w) :
      (Emit.load ty width false address 0).YieldsIn m L b c ty (Butterfly.element c.memory v k) :=
    (Emit.load_yieldsIn ha (by rw [address_zero]; exact hl)).congr (by
      rw [hn, address_zero, hbytes]
      rfl)
  cases double with
  | true => exact hload rfl fun _ => rfl
  | false => exact hload rfl fun _ => rfl

theorem loadElement_yieldsIn (hb : c.Has b butterfly .i64 v) (hi : c.Has b index .i32 k.toUInt64)
    (hl : Butterfly.slot v k ∈ L) :
    (loadElement butterfly index double).YieldsIn m L b c (Butterfly.type double)
      (Butterfly.element c.memory v k) := by
  refine (slot_yieldsIn hb hi).bind fun hf ha => ?_
  rw [← hf.memory]
  exact loadSlot_yieldsIn ha hl

theorem isHole_yieldsIn (h : c.Has b value (Butterfly.type double) w) :
    (isHole value double).YieldsIn m L b c .i32 (ofBool (Butterfly.isHole double w)) := by
  cases double with
  | true =>
    refine (Emit.fcmp_yieldsIn h h).congr ?_
    simp [FloatCC.eval, Butterfly.isHole]
  | false =>
    refine (Emit.icmpImm_yieldsIn h).congr (congrArg ofBool ?_)
    rw [Bool.eq_iff_iff]
    change (w.toNat == Value.empty.toNat) = true ↔ (w == Value.empty) = true
    rw [beq_iff_eq, beq_iff_eq, UInt64.toNat_inj]

/-- An element is boxed. -/
theorem boxElement_yieldsIn (h : c.Has b value (Butterfly.type (arrayType == .double)) w) :
    (boxElement arrayType value).YieldsIn m L b c .i64 (Butterfly.boxed (arrayType == .double)
      w) := by
  unfold boxElement
  by_cases hdouble : arrayType = .double
  · subst hdouble
    exact boxDouble_yieldsIn h
  · rw [if_neg hdouble]
    have hfalse : (arrayType == .double) = false := by simpa using hdouble
    rw [hfalse] at h ⊢
    exact .pure h

/-- An element is stored at its address. -/
theorem storeSlot_acts {address : Reg} (ha : c.Has b address .i64 (Butterfly.slot v k))
    (hv : c.Has b value (Butterfly.type (arrayType == .double)) w) :
    Acts m L env b c (liftM (Emit.store (elementWidth arrayType) value address 0)) fun _ _ c' =>
      c'.memory = c.memory.write (Butterfly.slot v k) 8 w := by
  have hbytes : (elementWidth arrayType).bytes = 8 := by
    unfold elementWidth
    split <;> rfl
  have hencode : (elementWidth arrayType).encode w = w := by
    unfold elementWidth
    split <;> rfl
  refine (store_acts hv ha).mono fun hwritten => ?_
  rw [hwritten, address_zero, hbytes, hencode]

theorem storeElement_acts (hb : c.Has b butterfly .i64 v) (hi : c.Has b index .i32 k.toUInt64)
    (hv : c.Has b value (Butterfly.type (arrayType == .double)) w) :
    Acts m L env b c (storeElement arrayType butterfly index value) fun _ _ c' =>
      c'.memory = c.memory.write (Butterfly.slot v k) 8 w := by
  rw [storeElement, liftM_emit_bind]
  refine YieldsIn.andThen (.ofEmit (slot_yieldsIn hb hi)) fun hf ha => ?_
  rw [← hf.memory]
  exact storeSlot_acts ha (hv.later hf)

end Lowering

/-! ## Barriers -/

/-- The collector has marked the cell. -/
def Cell.marked (layout : ObjectLayout) (memory : Memory) (cell : Word) : Bool :=
  memory.read (Machine.address cell (Int32.ofInt (layout.fieldOffset .gcMark))) 1 != 0

namespace Lowering

section Barriers

variable {σ : Type} {m : Machine σ} {b : Builder} {c : Config σ} {env : Env} {s : State}
  {cell : Reg} {a : Word} {value : NodeId} {known : AbstractValue}

/-- The test of a mark. -/
theorem marked_eval (layout : ObjectLayout) (memory : Memory) (a : Word) :
    IntCC.ne.eval .i32 (Ty.i32.normalize (MemWidth.w8.decode false (memory.read
      (Machine.address a (Int32.ofInt (layout.fieldOffset .gcMark))) MemWidth.w8.bytes)))
        (Ty.i32.normalize (Int64.ofInt 0).toUInt64) =
      Cell.marked layout memory a := by
  have hread := memory.read_lt (Machine.address a (Int32.ofInt (layout.fieldOffset .gcMark))) (n :=
    1) (by omega)
  unfold Cell.marked
  change IntCC.ne.eval .i32 (Ty.i32.normalize (memory.read _ 1)) 0 = _
  generalize memory.read (Machine.address a (Int32.ofInt (layout.fieldOffset .gcMark))) 1 = w
    at hread
  change (w.toUInt32.toUInt64.toUInt32.toNat != 0) = (w != 0)
  have hzero : (0 : Word).toNat = 0 := rfl
  rw [UInt32.toUInt32_toUInt64, UInt64.toNat_toUInt32, Nat.mod_eq_of_lt (by omega), Bool.eq_iff_iff,
    bne_iff_ne, bne_iff_ne, ne_eq, ne_eq, ← UInt64.toNat_inj, hzero]

/-- Where a store into a cell ends, after which memory is as given: the runtime was told of it, or
there was no need to. -/
def Told (m : Machine σ) (needed : Prop) (cell : Word) (memory : Memory) (t' : σ) (memory' : Memory)
    : Prop :=
  (needed ∧ ∃ w, Called m .writeBarrier [cell] memory w t' memory') ∨ (¬ needed ∧ memory' = memory)

theorem Acts.discard {α : Type} {L : Set Word} {x : Lower α} {Q : Builder → Config σ → Prop}
    (hx : Acts m L env b c x fun _ => Q) :
    Acts m L env b c (x >>= fun _ => (Pure.pure () : Lower Unit)) fun _ => Q := by
  intro s s' u c' hf hc h hm
  obtain ⟨a, s₁, h₁, h₂⟩ := bind_ok h
  cases h₂
  exact hx hf hc h₁ hm

/-- The runtime is called exactly if the cell is marked. -/
theorem writeBarrier_ends (h : c.Has b cell .i64 a) :
    Acts m .univ env b c (writeBarrier cell) fun _ _ c' =>
      Told m (Cell.marked env.layout c.memory a = true) a c.memory c'.runtimeState c'.memory := by
  refine Acts.ofField (YieldsIn.andThen (.ofEmit (Emit.load_yieldsIn h trivial)) fun hf hmark => ?_)
  refine YieldsIn.andThen (.ofEmit (Emit.icmpImm_yieldsIn hmark)) fun hf' htest => ?_
  have hf := hf.trans hf'
  rw [marked_eval] at htest
  refine when_ends (R := Told m (Cell.marked env.layout c.memory a = true) a c.memory) htest
    (fun hmarked => ?_) fun hnot t => ?_
  · refine Acts.discard ((callHelper_ends (.cons ⟨_, h.later hf⟩ .nil)).mono
      fun ⟨w, _, hcalled⟩ => ?_)
    rw [hf.memory] at hcalled
    exact .inl ⟨ofBool_ne_zero.1 hmarked, w, hcalled⟩
  · exact .inr ⟨by rw [ofBool_eq_zero.1 hnot]; exact Bool.false_ne_true, hf.memory⟩

/-- Whether the runtime is called depends on what is known of the value, too. -/
theorem barrierFor_ends (h : c.Has b cell .i64 a) :
    Acts m .univ env b c (barrierFor value cell) fun _ _ c' =>
      ∃ needed, Told m (needed ∧ Cell.marked env.layout c.memory a = true) a c.memory
        c'.runtimeState c'.memory := by
  intro s s' u c₁ hf hc hrun hm
  obtain ⟨ty, s₁, h₁, h₂⟩ := bind_ok hrun
  obtain rfl := typeOfNode_same h₁
  split at h₂
  · exact (writeBarrier_ends h hf hc h₂ hm).mono fun _ _ _ htold =>
      ⟨True, by simpa only [true_and] using htold⟩
  · cases h₂
    exact .refl hc ⟨False, .inr ⟨And.left, hf.memory⟩⟩

/-- The runtime is called exactly if what is known of the value allows a cell and the cell is
marked. -/
theorem barrierFor_proceeds (h : c.Has s.builder cell .i64 a)
    (hknown : s.facts.factOf env.graph value = .ok known) :
    Proceeds m .univ env s c (barrierFor value cell) (.ok fun _ _ c' =>
      Told m (known.ty.overlaps .cell = true ∧ Cell.marked env.layout c.memory a = true) a c.memory
        c'.runtimeState c'.memory) := by
  intro s₁ s' u c₁ hsame hf hc hrun hm
  obtain ⟨ty, s₂, h₁, h₂⟩ := bind_ok hrun
  obtain ⟨rfl, rfl⟩ := typeOfNode_ok h₁ (by rw [hsame.facts]; exact hknown)
  split at h₂
  case isTrue hover =>
    exact (writeBarrier_ends h hf hc h₂ hm).mono fun _ _ _ htold => by
      simpa only [hover, true_and] using htold
  case isFalse hover =>
    cases h₂
    exact .refl hc (.inr ⟨fun hneeded => hover hneeded.1, hf.memory⟩)

end Barriers

end Lowering

end SpecJit
