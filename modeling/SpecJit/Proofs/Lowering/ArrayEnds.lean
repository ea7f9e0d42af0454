import SpecJit.Proofs.Decoding
import SpecJit.Proofs.Lowering.ArrayReads
import SpecJit.Proofs.Lowering.ArrayStores

/-!
# The end of an array

A value that is pushed onto an array with room becomes the element behind the last one, and the
length grows by one; a pop gives the last element, leaves a hole in its place, and the length
shrinks by one (`push_then_pop`). The new length is what a push returns. The code takes it for an
int32, so that a length of `2^31` or more comes out negative.
-/

namespace SpecJit

open Lir

/-! ## Lengths -/

/-- A length is an int32 as long as it is below `2^31`. -/
theorem Value.boxInt32_eq_boxInt52_iff (k : UInt32) :
    Value.boxInt32 k.toInt32 = Value.boxInt52 k.toUInt64.toInt64 ↔ k.toNat < 2 ^ 31 := by
  have hlt := k.toNat_lt
  have hnarrow : k.toUInt64.toInt64.toInt32 = k.toInt32 := by
    rw [← low32_toUInt64, UInt64.toUInt64_toInt64, low32, UInt32.toUInt32_toUInt64]
  have hwide : k.toUInt64.toInt64.toInt = k.toNat := by
    rw [← Int64.toInt_toBitVec, UInt64.toBitVec_toInt64, BitVec.toInt_eq_toNat_of_lt]
    · simp
    · simp only [UInt32.toBitVec_toUInt64, BitVec.toNat_setWidth, UInt32.toNat_toBitVec]
      omega
  have hfits : (k.toInt32.toInt64 == k.toUInt64.toInt64) = decide (k.toNat < 2 ^ 31) := by
    rw [Bool.eq_iff_iff, beq_iff_eq, decide_eq_true_eq, ← Int64.toInt_inj, hwide,
      Int32.toInt_toInt64, ← Int32.toInt_toBitVec, UInt32.toBitVec_toInt32,
      BitVec.toInt_eq_toNat_cond, UInt32.toNat_toBitVec]
    split <;> omega
  rw [Value.boxInt52, hnarrow, hfits]
  by_cases hsmall : k.toNat < 2 ^ 31
  · rw [decide_eq_true hsmall, if_pos rfl]
    exact ⟨fun _ => hsmall, fun _ => rfl⟩
  · rw [decide_eq_false hsmall, if_neg Bool.false_ne_true]
    refine ⟨fun heq => ?_, fun h => absurd h hsmall⟩
    have hint := Value.isInt32_boxInt32 k.toInt32
    rw [heq, Value.isInt32_boxDouble] at hint
    cases hint

/-- The lengths of a butterfly are before its elements. -/
structure ObjectLayout.HeadsElements (layout : ObjectLayout) : Prop where
  low : -0x80000000 ≤ layout.fieldOffset .publicLength
  before : layout.fieldOffset .publicLength + 4 ≤ 0

theorem ObjectLayout.headsElements_standard : ObjectLayout.standard.HeadsElements :=
  ⟨by decide, by decide⟩

namespace Butterfly

variable {layout : ObjectLayout} {memory before after : Memory} {cell v w : Word} {j k n : UInt32}
  {double : Bool}

theorem slot_eq (v : Word) (k : UInt32) : slot v k = displace v (8 * k.toNat) := by
  have hlt := k.toNat_lt
  rw [slot, displace]
  congr 1
  apply UInt64.toNat_inj.1
  rw [toNat_ofInt, UInt64.toNat_shiftLeft, UInt32.toNat_toUInt64,
    show (3 : Word).toNat % 64 = 3 from rfl, Nat.shiftLeft_eq]
  omega

theorem lengthAddress_eq (hlayout : layout.HeadsElements) (v : Word) :
    lengthAddress layout v = displace v (layout.fieldOffset .publicLength) := by
  have := hlayout.before
  exact Machine.address_ofInt v hlayout.low (by omega)

/-- Elements are apart from each other. -/
theorem slot_apart (v : Word) (h : j ≠ k) : Memory.Apart (slot v j) 8 (slot v k) 8 := by
  have hj := j.toNat_lt
  have hk := k.toNat_lt
  have hne : j.toNat ≠ k.toNat := fun heq => h (UInt32.toNat_inj.1 heq)
  rw [slot_eq, slot_eq]
  exact Memory.apart_displace v (by omega) (by omega) (by omega) (by omega) (by omega)

/-- The length is apart from the elements. -/
theorem length_apart (hlayout : layout.HeadsElements) (v : Word) (k : UInt32) :
    Memory.Apart (lengthAddress layout v) 4 (slot v k) 8 := by
  have hk := k.toNat_lt
  have := hlayout.low
  have := hlayout.before
  rw [slot_eq, lengthAddress_eq hlayout]
  exact Memory.apart_displace v (by omega) (by omega) (by omega) (by omega) (by omega)

theorem length_write (n : UInt32) :
    length layout (memory.write (lengthAddress layout v) 4 n.toUInt64) v = n := by
  have hn := n.toNat_lt
  apply UInt32.toNat_inj.1
  rw [length, UInt64.toNat_toUInt32, Memory.read_write_self (by omega), UInt32.toNat_toUInt64]
  omega

theorem element_write (w : Word) : element (memory.write (slot v k) 8 w) v k = w := by
  have hw := w.toNat_lt
  rw [element, ← UInt64.toNat_inj, Memory.read_write_self (by omega), Nat.mod_eq_of_lt (by omega)]

/-! ## Changes at one element -/

/-- The element at an index was set, and so was the length. Nothing else is different. -/
structure Changed (layout : ObjectLayout) (v : Word) (k : UInt32) (w : Word) (n : UInt32)
    (before after : Memory) : Prop where
  length : length layout after v = n
  element : element after v k = w
  others : ∀ {j}, j ≠ k → Butterfly.element after v j = Butterfly.element before v j
  only : before.ChangedIn [(slot v k, 8), (lengthAddress layout v, 4)] after

theorem changed_write (hlayout : layout.HeadsElements) (memory : Memory) (v : Word) (k : UInt32)
    (w : Word) (n : UInt32) :
    Changed layout v k w n memory ((memory.write (slot v k) 8 w).write (lengthAddress layout v) 4
      n.toUInt64) where
  length := length_write n
  element := by
    rw [element, Memory.read_write_apart (length_apart hlayout v k)]
    exact element_write w
  others hne := by
    rw [element, Memory.read_write_apart (length_apart hlayout v _),
      Memory.read_write_apart (slot_apart v hne.symm), element]
  only := by
    refine ((Memory.changedIn_write _ _ _ _).widen fun r hr => ?_).trans
      ((Memory.changedIn_write _ _ _ _).widen fun r hr => ?_)
    · exact List.mem_singleton.1 hr ▸ List.mem_cons_self
    · exact List.mem_singleton.1 hr ▸ List.mem_cons_of_mem _ List.mem_cons_self

/-- The field of a cell that has the address of its butterfly is outside the length and the elements
that there is room for. -/
structure Outside (layout : ObjectLayout) (memory : Memory) (cell v : Word) : Prop where
  length : Memory.Apart (lengthAddress layout v) 4 (fieldAddress layout cell) 8
  elements : ∀ k < capacity layout memory v, Memory.Apart (slot v k) 8 (fieldAddress layout cell) 8

theorem Changed.butterfly (h : Changed layout v k w n before after)
    (hout : Outside layout before cell v) (hroom : k < capacity layout before v) :
    after.read (fieldAddress layout cell) 8 = before.read (fieldAddress layout cell) 8 :=
  h.only.read fun r hr => by
    rcases List.mem_cons.1 hr with rfl | hr
    · exact hout.elements k hroom
    · exact List.mem_singleton.1 hr ▸ hout.length

/-- The array is the same in both memories. -/
structure Same (layout : ObjectLayout) (cell v : Word) (before after : Memory) : Prop where
  butterfly : after.read (fieldAddress layout cell) 8 = before.read (fieldAddress layout cell) 8
  length : length layout after v = Butterfly.length layout before v
  elements : ∀ k, element after v k = element before v k

theorem Same.refl (layout : ObjectLayout) (cell v : Word) (memory : Memory) :
    Same layout cell v memory memory :=
  ⟨rfl, rfl, fun _ => rfl⟩

/-- The array has the length and the elements that it had, with a hole behind them. -/
structure Restored (layout : ObjectLayout) (v : Word) (n : UInt32) (double : Bool)
    (before after : Memory) : Prop where
  length : length layout after v = n
  hole : isHole double (element after v n) = true
  others : ∀ {j}, j ≠ n → element after v j = element before v j

/-- What is stored for a hole. -/
def hole (double : Bool) : Word := if double then Double.pureNaN.bits else Value.empty

theorem isHole_hole (double : Bool) : isHole double (hole double) = true := by
  cases double <;> decide

end Butterfly

namespace Lowering

section

variable {σ : Type} {m : Machine σ} {L : Set Word} {b : Builder} {c c' : Config σ} {env : Env}
  {s s' : State} {id : NodeId} {node : Node} {mode : ArrayMode} {arrayType : ArrayType}
  {base pushed e : Edge} {rest : List Edge} {butterfly value index length : Reg} {cell v w : Word}
  {k n : UInt32} {P : Word → Prop} {u : Unit} {r : Reg}

/-! ## Uses that are read -/

/-- A cell is not read as a double. -/
theorem IsCell.ne_double (h : IsCell env s c e w) {e' : Edge}
    (hread : doubleOf e' env s = .ok (r, s')) : e'.node ≠ e.node := by
  intro he
  obtain ⟨node, hnode⟩ := h.holds
  obtain ⟨hint, hnumber, -⟩ := Value.tests_of_isCell h.cell
  have hnone : Value.asNumber? w = none := by simp [Value.asNumber?, hint, hnumber]
  have hconstant {u : Word} {d : Double} (hu : node.op.constantWord? = some u)
    (hd : Value.asNumber? u = some d) : False := by
    obtain rfl : u = w := hnode.constant u hu
    simp [hnone] at hd
  have hdouble : heldIn env s e.node .double = none :=
    hnode.none_of_not_shows fun _ hshows => hshows
  have hnarrow : heldIn env s e.node .int32 = none := hnode.none_of_not_shows fun _ hshows =>
    absurd (hshows.1 : Value.isInt32 w = true) (by rw [hint]; decide)
  rw [doubleOf, held?_bind, he, hdouble] at hread
  obtain ⟨node', hnode', hread⟩ := getNode_bind_ok hread
  rw [hnode.found] at hnode'
  cases hnode'
  cases hop : node.op with
  | doubleConstant d => exact hconstant (by rw [hop]; rfl) (Value.asNumber?_boxNumber d)
  | int52Constant n => exact hconstant (by rw [hop]; rfl) (Value.asNumber?_boxInt52_ofInt n)
  | jsConstant v =>
    rw [hop] at hread
    cases v with
    | int32 n => exact hconstant (by rw [hop]; rfl) (Value.asNumber?_boxInt32 n)
    | double d => exact hconstant (by rw [hop]; rfl) (Value.asNumber?_boxDouble d)
    | _ => cases hread
  | _ => rw [hop] at hread; dsimp only at hread; rw [held?_bind, hnarrow] at hread; cases hread

/-- A value that the array can hold is kept while the array is read. -/
theorem Storable.afterCell (hvalue : Storable env s c pushed arrayType P)
    (h : asCell base env s = .ok (r, s')) (hf : c.Follows s.builder c' s'.builder)
    (hkeep : KeepsUses env s c s' c')
    (hnarrowed : AbstractState.NarrowedAt env.graph base.node s.facts s'.facts)
    (hother : arrayType = .double → pushed.node ≠ base.node) :
    Storable env s' c' pushed arrayType P := by
  cases hvalue with
  | int32 hn => exact .int32 (hkeep.int32 hn)
  | contiguous hx hempty => exact .contiguous (hkeep.used hx) hempty
  | double hd hnan =>
    have hne := hother rfl
    have hheld (form : Form) : heldIn env s' pushed.node form = heldIn env s pushed.node form :=
      (inferInstance : RecordsOf base.node (asCell base)).heldIn h (.inl hne)
    refine .double ⟨fun hr => ?_, fun hr => ?_, hd.constant, ?_⟩ hnan
    · exact (hd.held (by rw [← hheld, hr])).later hf
    · obtain ⟨n, hn, hhas⟩ := hd.narrow (by rw [← hheld, hr])
      exact ⟨n, hn, hhas.later hf⟩
    · rw [hnarrowed.others _ hne]
      exact hd.checked

/-! ## Pushing -/

theorem add_eval (n k : UInt32) :
    Ty.i32.normalize (BinaryOp.add.eval .i32 n.toUInt64 k.toUInt64) = (n + k).toUInt64 := by
  have hsum : (n.toInt32 + k.toInt32).toUInt32 = n + k := by simp
  change (ofInt32 (low32 n.toUInt64 + low32 k.toUInt64)).toUInt32.toUInt64 = _
  rw [low32, low32, UInt32.toUInt32_toUInt64, UInt32.toUInt32_toUInt64, ofInt32,
    UInt32.toUInt32_toUInt64, hsum]

theorem increment_eval (n : UInt32) :
    Ty.i32.normalize (BinaryOp.add.eval .i32 n.toUInt64 (Ty.i32.normalize (Int64.ofInt 1).toUInt64))
      = (n + 1).toUInt64 :=
  add_eval n 1

theorem decrement_eval (n : UInt32) :
    Ty.i32.normalize (BinaryOp.add.eval .i32 (n + 1).toUInt64
      (Ty.i32.normalize (Int64.ofInt (-1)).toUInt64)) = n.toUInt64 := by
  have hall : (1 : UInt32) + 0xffffffff = 0 := rfl
  refine (add_eval (n + 1) 0xffffffff).trans (congrArg _ ?_)
  rw [UInt32.add_assoc, hall, UInt32.add_zero]

theorem storePublicLength_acts (hb : c.Has b butterfly .i64 v)
    (hlength : c.Has b length .i32 n.toUInt64) :
    Acts m L env b c (storePublicLength butterfly length) fun _ _ c' =>
      c'.memory = c.memory.write (Butterfly.lengthAddress env.layout v) 4 n.toUInt64 :=
  storeField_acts hlength hb

theorem loadVectorLength_yieldsIn (hb : c.Has b butterfly .i64 v) :
    YieldsIn m .univ env b c (loadVectorLength butterfly) .i32
      (Butterfly.capacity env.layout c.memory v).toUInt64 :=
  loadField32_yieldsIn hb .vectorLength trivial

/-- An element is stored, and the length is set to the one with this element as the last. -/
theorem extend_acts {α : Type} {f : Reg → Lower α} [∀ r, Tidy (f r)]
    {Q : α → Builder → Config σ → Prop} (hb : c.Has b butterfly .i64 v)
    (hindex : c.Has b index .i32 k.toUInt64)
    (hvalue : c.Has b value (Butterfly.type (arrayType == .double)) w)
    (hf : ∀ {grown : Reg} {b' : Builder} {c' : Config σ}, c'.Has b' grown .i32 (k + 1).toUInt64 →
      c'.memory = (c.memory.write (Butterfly.slot v k) 8 w).write
        (Butterfly.lengthAddress env.layout v) 4 (k + 1).toUInt64 →
      Acts m L env b' c' (f grown) Q) :
    Acts m L env b c (do
      storeElement arrayType butterfly index value
      let grown ← Emit.binaryImm .add index 1
      storePublicLength butterfly grown
      f grown) Q := by
  refine .bind (storeElement_acts hb hindex hvalue) fun {_ b₁ c₁} e₁ hregs₁ hmem₁ => ?_
  refine YieldsIn.andThen (.ofEmit (Emit.binaryImm_yieldsIn (hindex.retain e₁ hregs₁)))
    fun {grown b₂ c₂} hf₂ hgrown => ?_
  rw [increment_eval] at hgrown
  refine .bind (storePublicLength_acts ((hb.retain e₁ hregs₁).later hf₂) hgrown)
    fun {_ b₃ c₃} e₃ hregs₃ hmem₃ => ?_
  exact hf (hgrown.retain e₃ hregs₃) (by rw [hmem₃, hf₂.memory, hmem₁])

/-- An element is put behind the last one. -/
theorem append_acts (hb : c.Has b butterfly .i64 v) (hlength : c.Has b length .i32 n.toUInt64)
    (hvalue : c.Has b value (Butterfly.type (arrayType == .double)) w) :
    Acts m L env b c (do
      storeElement arrayType butterfly length value
      let grown ← Emit.binaryImm .add length 1
      storePublicLength butterfly grown
      boxInt32 grown)
      (InRegister .i64 fun r memory => r = Value.boxInt32 (n + 1).toInt32 ∧
        memory = (c.memory.write (Butterfly.slot v n) 8 w).write (Butterfly.lengthAddress env.layout
          v) 4 (n + 1).toUInt64) := by
  refine extend_acts hb hlength hvalue fun hgrown hmem =>
    YieldsIn.inRegister (.ofEmit (boxInt32_yieldsIn hgrown)) ⟨?_, hmem⟩
  rw [low32, UInt32.toUInt32_toUInt64]

/-- What a push of a stored word makes of memory: the array is longer by one, and may have been
shown to the collector. -/
def Pushed (m : Machine σ) (layout : ObjectLayout) (arrayType : ArrayType) (cell butterfly w : Word)
    (before : Memory) (r : Word) (after : Memory) : Prop :=
  let n := Butterfly.length layout before butterfly
  r = Value.boxInt32 (n + 1).toInt32 ∧ ∃ stored, Butterfly.Changed layout butterfly n w (n + 1)
    before stored ∧
    (after = stored ∨ arrayType = .contiguous ∧ ∃ x, Answers m .writeBarrier [cell] stored x after)

theorem elementBarrier_acts {value : NodeId} {r : Reg} (h : c.Has b r .i64 cell) :
    Acts m .univ env b c (elementBarrier arrayType value r) fun _ _ c' =>
      c'.memory = c.memory ∨ arrayType = .contiguous ∧ ∃ x, Answers m .writeBarrier [cell] c.memory
        x c'.memory := by
  unfold elementBarrier
  split
  case isTrue hcontiguous =>
    refine (barrierFor_ends h).mono fun ⟨_, htold⟩ => ?_
    rcases htold with ⟨-, x, hcalled⟩ | ⟨-, hmem⟩
    · exact .inr ⟨hcontiguous, x, hcalled.answers⟩
    · exact .inl hmem
  case isFalse => exact .pure fun hf => .inl hf.memory

set_option synthInstance.maxSize 4000 in
/-- The code of a push, after its uses were read, if there is room. -/
theorem push_proceeds {array : Reg} {valueNode : NodeId} (hlayout : env.layout.HeadsElements)
    (hnode : env.graph.node id = .ok node) (hresult : node.result = .jsValue)
    (hdepth : s.armDepth = 0) (harray : c.Has s.builder array .i64 cell)
    (hvalue : c.Has s.builder value (Butterfly.type (arrayType == .double)) w)
    (hb : IsButterfly env s c cell rest.head? v)
    (hroom : Butterfly.length env.layout c.memory v < Butterfly.capacity env.layout c.memory v) :
    Proceeds m .univ env s c (do
        let butterfly ← butterflyOf array rest.head?
        let length ← loadPublicLength butterfly
        let capacity ← loadVectorLength butterfly
        let fits ← Emit.icmp .ult length capacity
        let result ← diamond .i64 fits .normal
          (do
            storeElement arrayType butterfly length value
            let grown ← Emit.binaryImm .add length 1
            storePublicLength butterfly grown
            boxInt32 grown)
          (do callHelper .arrayPush [array, ← boxElement arrayType value])
        elementBarrier arrayType valueNode array
        setResult id result)
      (.ok (HeldAs id .jsValue (Pushed m env.layout arrayType cell v w c.memory))) := by
  refine .ofButterfly hb harray trivial fun {butterfly s₁ c₁} hsame₁ hf₁ hbutterfly => ?_
  refine .value (loadPublicLength_yieldsIn hbutterfly trivial)
    fun {length s₂ c₂} hsame₂ hf₂ hlength => ?_
  refine .value (loadVectorLength_yieldsIn (hbutterfly.later hf₂))
    fun {capacity s₃ c₃} hsame₃ hf₃ hcapacity => ?_
  have hf := hf₁.trans (hf₂.trans hf₃)
  rw [hf₁.memory] at hlength
  rw [(hf₁.trans hf₂).memory] at hcapacity
  refine .value (.ofEmit (inBounds_yieldsIn (hlength.later hf₃) hcapacity))
    fun {fits s₄ c₄} hsame₄ hf₄ hfits => ?_
  have hf' := hf.trans hf₄
  rw [decide_eq_true hroom] at hfits
  have hgrown : Acts m .univ env _ _ _ _ :=
    append_acts (hbutterfly.later (hf₂.trans (hf₃.trans hf₄))) (hlength.later (hf₃.trans hf₄))
      (hvalue.later hf')
  rw [hf'.memory] at hgrown
  refine .act (diamond_acts hfits (fun _ => hgrown) fun hnot => absurd hnot (by decide))
    fun {result s₅ c₅} hsame₅ e₅ hregs₅ hgrown => ?_
  obtain ⟨r, hr, rfl, hmem⟩ := hgrown
  have hchanged :=
    Butterfly.changed_write hlayout c.memory v (Butterfly.length env.layout c.memory v) w
    (Butterfly.length env.layout c.memory v + 1)
  rw [← hmem] at hchanged
  refine .act (elementBarrier_acts ((harray.later hf').retain e₅ hregs₅))
    fun {_ s₆ c₆} hsame₆ e₆ hregs₆ hbarrier => ?_
  refine proceeds_setResult hnode (by rw [hresult]; rfl) ?_ ⟨_, hr.retain e₆ hregs₆, rfl, _,
    hchanged, hbarrier⟩
  rw [hsame₆.armDepth, hsame₅.armDepth, hsame₄.armDepth, hsame₃.armDepth, hsame₂.armDepth,
    hsame₁.armDepth, hdepth]

/-! ## Popping -/

theorem holeOf_yieldsIn (double : Bool) :
    (holeOf double).YieldsIn m L b c (Butterfly.type double) (Butterfly.hole double) := by
  cases double with
  | true => exact (Emit.word_yieldsIn _).bind fun _ hbits => Emit.bitcastToDouble_yieldsIn hbits
  | false => exact Emit.word_yieldsIn _

set_option synthInstance.maxSize 400 in
/-- The last element is taken off, and leaves a hole. -/
theorem takeLast_acts {array : Reg} (hlayout : env.layout.HeadsElements)
    (hb : c.Has b butterfly .i64 v) (hlength : c.Has b length .i32 (n + 1).toUInt64)
    (hpresent : Butterfly.isHole (arrayType == .double) (Butterfly.element c.memory v n) = false) :
    Acts m .univ env b c (takeLast array butterfly length arrayType)
      (InRegister .i64 fun r memory => r = Butterfly.boxed (arrayType == .double)
        (Butterfly.element c.memory v n) ∧
        Butterfly.Changed env.layout v n (Butterfly.hole (arrayType == .double)) n c.memory
          memory) := by
  refine YieldsIn.andThen (.ofEmit (Emit.binaryImm_yieldsIn hlength)) fun {last b₁ c₁} hf₁ hlast =>
    ?_
  rw [decrement_eval] at hlast
  refine YieldsIn.andThen (.ofEmit (slot_yieldsIn (hb.later hf₁) hlast))
    fun {address b₂ c₂} hf₂ haddress => ?_
  have hslot : Emit.YieldsIn m .univ b₂ c₂ (if (arrayType == .double) = true then loadDouble address
    else Emit.load64 address 0)
      (Butterfly.type (arrayType == .double)) (Butterfly.element c₂.memory v n) :=
        loadSlot_yieldsIn haddress trivial
  have hrest {value : Reg} {b₃ : Builder} {c₃ : Config σ} (hf₃ : c₂.Follows b₂ c₃ b₃)
      (hvalue : c₃.Has b₃ value (Butterfly.type (arrayType == .double))
        (Butterfly.element c₂.memory v n)) :
      Acts m .univ env b₃ c₃ (do
        let hole ← isHole value (arrayType == .double)
        diamond .i64 hole .takenRare (callHelper .arrayPop [array]) do
          Emit.store (elementWidth arrayType) (← holeOf (arrayType == .double)) address 0
          storePublicLength butterfly last
          boxElement arrayType value)
        (InRegister .i64 fun r memory => r = Butterfly.boxed (arrayType == .double)
          (Butterfly.element c.memory v n) ∧
          Butterfly.Changed env.layout v n (Butterfly.hole (arrayType == .double)) n c.memory
            memory) := by
    refine YieldsIn.andThen (.ofEmit (isHole_yieldsIn hvalue)) fun {hole b₄ c₄} hf₄ htest => ?_
    have hf := hf₁.trans (hf₂.trans (hf₃.trans hf₄))
    rw [(hf₁.trans hf₂).memory] at hvalue htest
    rw [hpresent] at htest
    refine diamond_acts htest (fun htaken => absurd rfl htaken) fun _ => ?_
    refine YieldsIn.andThen (.ofEmit (holeOf_yieldsIn _)) fun {r b₅ c₅} hf₅ hr => ?_
    refine .bind (storeSlot_acts (haddress.later (hf₃.trans (hf₄.trans hf₅))) hr)
      fun {_ b₆ c₆} e₆ hregs₆ hmem₆ => ?_
    have hlast := (hlast.later (hf₂.trans (hf₃.trans (hf₄.trans hf₅)))).retain e₆ hregs₆
    refine .bind (storePublicLength_acts (((hb.later hf).later hf₅).retain e₆ hregs₆) hlast)
      fun {_ b₇ c₇} e₇ hregs₇ hmem₇ => ?_
    have hvalue := ((hvalue.later (hf₄.trans hf₅)).retain e₆ hregs₆).retain e₇ hregs₇
    refine YieldsIn.inRegister (.ofEmit (boxElement_yieldsIn hvalue)) ⟨rfl, ?_⟩
    rw [hmem₇, hmem₆, (hf.trans hf₅).memory]
    exact Butterfly.changed_write hlayout _ _ _ _ _
  dsimp only
  split
  · rw [if_pos ‹_›] at hslot
    exact YieldsIn.andThen (.ofEmit hslot) hrest
  · rw [if_neg ‹_›] at hslot
    exact YieldsIn.andThen (.ofEmit hslot) hrest

/-- What a pop makes of memory: the last element is the result, and a hole is left. -/
def Popped (layout : ObjectLayout) (double : Bool) (butterfly : Word) (n : UInt32) (before : Memory)
    (r : Word) (after : Memory) : Prop :=
  r = Butterfly.boxed double (Butterfly.element before butterfly n) ∧
    Butterfly.Changed layout butterfly n (Butterfly.hole double) n before after

theorem pop_proceeds {array : Reg} (hlayout : env.layout.HeadsElements)
    (hnode : env.graph.node id = .ok node) (hresult : node.result = .jsValue)
    (hdepth : s.armDepth = 0) (harray : c.Has s.builder array .i64 cell)
    (hb : IsButterfly env s c cell rest.head? v)
    (hlength : Butterfly.length env.layout c.memory v = n + 1) (hn : n + 1 ≠ 0)
    (hpresent : Butterfly.isHole (arrayType == .double) (Butterfly.element c.memory v n) = false) :
    Proceeds m .univ env s c (do
        let butterfly ← butterflyOf array rest.head?
        let length ← loadPublicLength butterfly
        let empty ← Emit.icmpImm .eq length 0
        setResult id (← diamond .i64 empty .takenRare (Emit.word Value.undefined)
          (takeLast array butterfly length arrayType)))
      (.ok (HeldAs id .jsValue (Popped env.layout (arrayType == .double) v n c.memory))) := by
  refine .ofButterfly hb harray trivial fun {butterfly s₁ c₁} hsame₁ hf₁ hbutterfly => ?_
  refine .value (loadPublicLength_yieldsIn hbutterfly trivial) fun {length s₂ c₂} hsame₂ hf₂ hlen =>
    ?_
  rw [hf₁.memory, hlength] at hlen
  refine .value (.ofEmit (Emit.icmpImm_yieldsIn hlen)) fun {empty s₃ c₃} hsame₃ hf₃ hempty => ?_
  have hf := hf₁.trans (hf₂.trans hf₃)
  have htest : IntCC.eq.eval .i32 (n + 1).toUInt64 (Ty.i32.normalize (Int64.ofInt 0).toUInt64)
    = false := by
    change ((n + 1).toUInt64.toUInt32.toNat == (0 : UInt32).toNat) = false
    rw [UInt32.toUInt32_toUInt64, beq_eq_false_iff_ne, ne_eq, UInt32.toNat_inj]
    exact hn
  rw [htest] at hempty
  have hlast : Acts m .univ env s₃.builder c₃ (takeLast array butterfly length arrayType) _ :=
    takeLast_acts hlayout (hbutterfly.later (hf₂.trans hf₃)) (hlen.later hf₃)
      (by rw [hf.memory]; exact hpresent)
  rw [hf.memory] at hlast
  refine .act (diamond_acts hempty (fun htaken => absurd rfl htaken) fun _ => hlast)
    fun {r s₄ c₄} hsame₄ _ _ hpopped => ?_
  refine proceeds_setResult hnode (by rw [hresult]; rfl) ?_ hpopped
  rw [hsame₄.armDepth, hsame₃.armDepth, hsame₂.armDepth, hsame₁.armDepth, hdepth]

/-! ## Nodes -/

set_option synthInstance.maxSize 4000 in
theorem push_performs (hx : Entered m env id node base cell s s' c)
    (hop : node.op = .arrayPush mode) (hresult : node.result = .jsValue)
    (hchildren : node.children = base :: pushed :: rest) (hlayout : env.layout.HeadsElements)
    (hvalue : Storable env s c pushed mode.arrayType P) (hb : IsButterfly env s c cell rest.head? v)
    (hbox : m.BoxesInt52 c.memory)
    (hroom : Butterfly.length env.layout c.memory v < Butterfly.capacity env.layout c.memory v) :
    ∃ w, P w ∧
      Performs m .univ s s' c
        (.ok (HeldAs id .jsValue (Pushed m env.layout mode.arrayType cell v w c.memory))) := by
  have hm := hx.completes
  have h := hx.lowered
  have hlower : lowerOp id node = lowerArrayPush id node mode := by
    unfold lowerOp
    rw [hop]
  rw [hlower, lowerArrayPush] at h
  obtain ⟨base', hbase, h⟩ := check_bind_ok h
  obtain rfl : base = base' := by simpa [Node.child, hchildren, Fault.ofOption] using hbase
  obtain ⟨array, s₁, h₁, h⟩ := bind_ok h
  obtain ⟨pushed', hpushed, h⟩ := check_bind_ok h
  obtain rfl : pushed = pushed' := by simpa [Node.child, hchildren, Fault.ofOption] using hpushed
  obtain ⟨value, s₂, h₂, h⟩ := bind_ok h
  have hstorage : node.children[2]? = rest.head? := by
    rw [hchildren]
    cases rest <;> rfl
  rw [hstorage] at h
  have e₁ : s.builder.Emits [] s₁.builder := Tidy.after h₁ (.refl hx.stands.wf)
  have e₂ : s₁.builder.Emits [] s₂.builder := Tidy.after h₂ (.refl e₁.after)
  have e₃ : s₂.builder.Emits [] s'.builder := Tidy.after h (.refl e₂.after)
  have hm₂ := e₃.toExtends.completes hm
  obtain ⟨hvalid₁, hdepth₁, -, hnarrowed, c₁, hgoes₁, hc₁, hk₁, hr₁, hkeep⟩ :=
    asCell_used h₁ (e₂.toExtends.completes hm₂) hx.stands hx.cell hx.valid hx.depth
  have hf₁ : c.Follows s.builder c₁ s₁.builder := ⟨e₁.toExtends, hk₁⟩
  -- a double is another node than the array
  have hother : mode.arrayType = .double → pushed.node ≠ base.node := by
    intro hdouble
    rw [hdouble] at h₂
    obtain ⟨r, s₃, hdoubleOf, -⟩ := bind_ok h₂
    obtain ⟨r', s₄, hread, -⟩ := bind_ok hdoubleOf
    exact IsCell.ne_double ⟨hkeep.used hx.cell.toUsed, hx.cell.cell⟩ hread
  obtain ⟨w, hw, hdepth₂, hheld₂, c₂, hgoes₂, hc₂, hk₂, hr₂⟩ := butterflyStoreValue_used h₂ hm₂ hc₁
    (hvalue.afterCell h₁ hf₁ hkeep hnarrowed hother) hvalid₁ hdepth₁
      (by rw [hk₁.memory]; exact hbox)
  have hf₂ : c₁.Follows s₁.builder c₂ s₂.builder := ⟨e₂.toExtends, hk₂⟩
  have hf := hf₁.trans hf₂
  have hb₂ := (hb.later hf₁ hkeep.storage).later hf₂ hheld₂
  refine ⟨w, hw, .after (P := (· = c₁)) ⟨c₁, hgoes₁, hc₁, hk₁, rfl⟩ e₁ fun _ _ _ hc => hc ▸
    .after (P := (· = c₂)) ⟨c₂, hgoes₂, hc₂, hk₂, rfl⟩ e₂ fun _ _ _ hc => hc ▸ ?_⟩
  rw [← hf.memory] at hroom ⊢
  exact (push_proceeds hlayout hx.found hresult hdepth₂ (hr₁.later hf₂) hr₂ hb₂ hroom).performs hc₂
    h hm e₃

theorem pop_performs (hx : Entered m env id node base cell s s' c) (hop : node.op = .arrayPop mode)
    (hresult : node.result = .jsValue)
    (hchildren : node.children = base :: rest) (hlayout : env.layout.HeadsElements)
    (hb : IsButterfly env s c cell rest.head? v)
    (hlength : Butterfly.length env.layout c.memory v = n + 1) (hn : n + 1 ≠ 0)
    (hpresent : Butterfly.isHole (mode.arrayType == .double) (Butterfly.element c.memory v n)
      = false) :
    Performs m .univ s s' c
      (.ok (HeldAs id .jsValue (Popped env.layout (mode.arrayType == .double) v n c.memory))) := by
  have hm := hx.completes
  have h := hx.lowered
  have hlower : lowerOp id node = lowerArrayPop id node mode := by
    unfold lowerOp
    rw [hop]
  rw [hlower, lowerArrayPop] at h
  obtain ⟨base', hbase, h⟩ := check_bind_ok h
  obtain rfl : base = base' := by simpa [Node.child, hchildren, Fault.ofOption] using hbase
  refine performs_asCell h hm hx.stands hx.cell hx.valid hx.depth
    fun {r₁ s₁ c₁} h hreads₁ _ _ hr₁ => ?_
  have hmem := hreads₁.follows.memory
  have hstorage : node.children[1]? = rest.head? := by
    rw [hchildren]
    cases rest <;> rfl
  rw [hstorage] at h
  rw [← hmem] at hlength hpresent ⊢
  exact (pop_proceeds hlayout hx.found hresult hreads₁.depth hr₁
    (hb.later hreads₁.follows hreads₁.storage) hlength hn
    hpresent).performs hreads₁.stands h hm (Tidy.after h (.refl hreads₁.stands.wf))

theorem IsButterfly.ofMemory {memory : Memory} {storage : Option Edge}
    (h : IsButterfly env s { c with memory } cell storage v)
    (hread : c.memory.read (Butterfly.fieldAddress env.layout cell) 8 = memory.read
      (Butterfly.fieldAddress env.layout cell) 8) :
    IsButterfly env s c cell storage v := by
  rcases h with ⟨e, node, r, he, hnode, hresult, hr, hty, hhas⟩ | ⟨hnone, hv⟩
  · exact .inl ⟨e, node, r, he, hnode, hresult, hr, hty, hhas⟩
  · exact .inr ⟨hnone, by rw [hread]; exact hv⟩

/-- A push onto an array with room puts the value behind the last element, and the array is longer
by one. What it returns is the new length as an int32, which is the new length itself exactly below
`2^31`. A pop from what it leaves returns the value, and the array has the length and the elements
that it had before, with a hole behind them. The collector leaves the array as it is. -/
theorem push_then_pop {τ : Type} {m₂ : Machine τ} {env₂ : Env} {id₂ : NodeId} {node₂ : Node}
    {base₂ : Edge} {rest₂ : List Edge}
    {s₂ s₂' : State} {c₂ : Config τ} {mode₂ : ArrayMode} {x : Word}
    (hx : Entered m env id node base cell s s' c) (hop : node.op = .arrayPush mode)
    (hresult : node.result = .jsValue)
    (hchildren : node.children = base :: pushed :: rest) (hlayout : env.layout.HeadsElements)
    (hvalue : Storable env s c pushed mode.arrayType P) (hb : IsButterfly env s c cell rest.head? v)
    (hbox : m.BoxesInt52 c.memory)
    (hn : Butterfly.length env.layout c.memory v = n)
    (hroom : n < Butterfly.capacity env.layout c.memory v)
    (hout : Butterfly.Outside env.layout c.memory cell v)
    (hcollector : ∀ stored x after, Answers m .writeBarrier [cell] stored x after →
      Butterfly.Same env.layout cell v stored after)
    (hx₂ : Entered m₂ env₂ id₂ node₂ base₂ cell s₂ s₂' c₂) (hw : P w)
    (hpushed : Pushed m env.layout mode.arrayType cell v w c.memory x c₂.memory)
    (hop₂ : node₂.op = .arrayPop mode₂) (hresult₂ : node₂.result = .jsValue)
    (hchildren₂ : node₂.children = base₂ :: rest₂) (hlayout₂ : env₂.layout = env.layout)
    (hmode₂ : mode₂.arrayType = mode.arrayType)
    (hb₂ : IsButterfly env₂ s₂ { c₂ with memory := c.memory } cell rest₂.head? v) :
    (∃ w, P w ∧ Performs m .univ s s' c
      (.ok (HeldAs id .jsValue (Pushed m env.layout mode.arrayType cell v w c.memory)))) ∧
      (Value.boxInt32 (n + 1).toInt32 = Value.boxInt52 (n + 1).toUInt64.toInt64 ↔
        n.toNat + 1 < 2 ^ 31) ∧
      Performs m₂ .univ s₂ s₂' c₂ (.ok (HeldAs id₂ .jsValue fun r after =>
        r = Butterfly.value (mode.arrayType == .double) w ∧
          Butterfly.Restored env.layout v n (mode.arrayType == .double) c.memory after)) := by
  have hgrown : (n + 1).toNat = n.toNat + 1 := by
    have := UInt32.lt_iff_toNat_lt.1 hroom
    have := (Butterfly.capacity env.layout c.memory v).toNat_lt
    have hone : (1 : UInt32).toNat = 1 := rfl
    rw [UInt32.toNat_add, hone]
    omega
  have hnonzero : n + 1 ≠ 0 := fun hzero => by simp [hzero] at hgrown
  refine ⟨push_performs hx hop hresult hchildren hlayout hvalue hb hbox (by rw [hn]; exact hroom),
    ?_, ?_⟩
  · rw [Value.boxInt32_eq_boxInt52_iff, hgrown]
  -- the array is as the push left it
  obtain ⟨-, stored, hchanged, hafter⟩ := hpushed
  rw [hn] at hchanged
  have hsame : Butterfly.Same env.layout cell v stored c₂.memory := by
    rcases hafter with hmem | ⟨-, y, hanswer⟩
    · rw [hmem]
      exact .refl _ _ _ _
    · exact hcollector _ _ _ hanswer
  have hlength := hsame.length.trans hchanged.length
  have helement := (hsame.elements n).trans hchanged.element
  have hpresent := hvalue.not_isHole hw
  have hb₂ : IsButterfly env₂ s₂ c₂ cell rest₂.head? v := hb₂.ofMemory (by
    rw [hlayout₂]
    exact hsame.butterfly.trans (hchanged.butterfly hout hroom))
  have hpop := pop_performs hx₂ hop₂ hresult₂ hchildren₂ (by rw [hlayout₂]; exact hlayout) hb₂
    (by rw [hlayout₂]; exact hlength)
    hnonzero (by rw [hmode₂, helement]; exact hpresent)
  rw [hlayout₂, hmode₂] at hpop
  refine hpop.mono fun hheld => hheld.mono fun ⟨hr, hremoved⟩ =>
    ⟨?_, hremoved.length, ?_, fun hne => ?_⟩
  · rw [hr, helement]
    exact Butterfly.boxed_of_not_isHole hpresent
  · rw [hremoved.element]
    exact Butterfly.isHole_hole _
  · exact (hremoved.others hne).trans ((hsame.elements _).trans (hchanged.others hne))

end

/-! ## An array of one element -/

namespace OnePush

open TwoArguments

def arrayMode : ArrayMode := { arrayType := .int32, speculation := .inBounds }

def push : Node where
  op := .arrayPush arrayMode
  result := .jsValue
  children := [{ node := ⟨0⟩, useKind := .cell }, { node := ⟨1⟩, useKind := .int32 }]

def pop : Node where
  op := .arrayPop arrayMode
  result := .jsValue
  children := [{ node := ⟨0⟩, useKind := .cell }]

/-- An array without elements, with room for one. -/
def memory : Memory := (({} : Memory).write 0x5008 8 0x6000).write 0x5ffc 4 1

/-- The array has the element 5. -/
def pushed : Memory :=
  (memory.write (Butterfly.slot 0x6000 0) 8 (Value.boxInt32 5)).write
    (Butterfly.lengthAddress {} 0x6000) 4 1

/-- Where the code of a node is entered: the array and 5 are the arguments. -/
def start (f : Function) (memory : Memory) : Config Unit :=
  { config f 0x5000 (Value.boxInt32 5) with memory }

theorem memory_outside : Butterfly.Outside {} memory 0x5000 0x6000 where
  length := ⟨by decide, by decide⟩
  elements k hk := by
    have hone : Butterfly.capacity {} memory 0x6000 = 1 := by decide
    rw [hone] at hk
    obtain rfl : k = 0 := UInt32.lt_one_iff.1 hk
    exact ⟨by decide, by decide⟩

end OnePush

/-- 5 is pushed, and popped. -/
theorem push_then_pop_five : ∃ s₁ s₂,
    lowerOp ⟨2⟩ OnePush.push (TwoArguments.env (TwoArguments.graph OnePush.push .jsValue .jsValue))
        (TwoArguments.before (TwoArguments.graph OnePush.push .jsValue .jsValue) .jsValue)
        = .ok ((), s₁) ∧
      lowerOp ⟨2⟩ OnePush.pop (TwoArguments.env (TwoArguments.graph OnePush.pop .jsValue .jsValue))
        (TwoArguments.before (TwoArguments.graph OnePush.pop .jsValue .jsValue) .jsValue) = .ok ((),
          s₂) ∧
      (∃ w, w = Value.boxInt32 5 ∧ Performs (Machine.plain s₁.builder.func) .univ
        (TwoArguments.before (TwoArguments.graph OnePush.push .jsValue .jsValue) .jsValue) s₁
        (OnePush.start s₁.builder.func OnePush.memory)
        (.ok (HeldAs ⟨2⟩ .jsValue
          (Pushed (Machine.plain s₁.builder.func) {} .int32 0x5000 0x6000 w
            OnePush.memory)))) ∧
      Performs (Machine.plain s₂.builder.func) .univ
        (TwoArguments.before (TwoArguments.graph OnePush.pop .jsValue .jsValue) .jsValue) s₂
        (OnePush.start s₂.builder.func OnePush.pushed)
        (.ok (HeldAs ⟨2⟩ .jsValue fun r after =>
          r = Value.boxInt32 5 ∧ Butterfly.Restored {} 0x6000 0 false OnePush.memory after)) := by
  have hcheck :
    ((lowerOp ⟨2⟩ OnePush.push
      (TwoArguments.env (TwoArguments.graph OnePush.push .jsValue .jsValue))
      (TwoArguments.before (TwoArguments.graph OnePush.push .jsValue .jsValue)
        .jsValue)).toOption.any fun r =>
        3 < r.2.builder.func.types.size) = true := by decide +kernel
  have hcheck₂ :
    ((lowerOp ⟨2⟩ OnePush.pop (TwoArguments.env (TwoArguments.graph OnePush.pop .jsValue .jsValue))
      (TwoArguments.before (TwoArguments.graph OnePush.pop .jsValue .jsValue)
        .jsValue)).toOption.any fun r =>
        3 < r.2.builder.func.types.size) = true := by decide +kernel
  obtain ⟨⟨⟨⟩, s₁⟩, h₁, hsize₁⟩ := ok_of_any hcheck
  obtain ⟨⟨⟨⟩, s₂⟩, h₂, hsize₂⟩ := ok_of_any hcheck₂
  rw [decide_eq_true_eq] at hsize₁ hsize₂
  have hlayout : ObjectLayout.HeadsElements {} := ObjectLayout.headsElements_standard
  have hx₁ : Entered (Machine.plain s₁.builder.func)
    (TwoArguments.env (TwoArguments.graph OnePush.push .jsValue .jsValue)) ⟨2⟩
      OnePush.push { node := ⟨0⟩, useKind := .cell } 0x5000
      (TwoArguments.before (TwoArguments.graph OnePush.push .jsValue .jsValue) .jsValue) s₁
        (OnePush.start s₁.builder.func OnePush.memory) :=
    TwoArguments.entered h₁ hsize₁ (by decide) (by decide +kernel) ⟨_, rfl,
      by decide +kernel, by decide +kernel, nofun⟩
  have hx₂ : Entered (Machine.plain s₂.builder.func)
    (TwoArguments.env (TwoArguments.graph OnePush.pop .jsValue .jsValue)) ⟨2⟩
      OnePush.pop { node := ⟨0⟩, useKind := .cell } 0x5000
      (TwoArguments.before (TwoArguments.graph OnePush.pop .jsValue .jsValue) .jsValue) s₂
        (OnePush.start s₂.builder.func OnePush.pushed) :=
    TwoArguments.entered h₂ hsize₂ (by decide) (by decide +kernel) ⟨_, rfl,
      by decide +kernel, by decide +kernel, nofun⟩
  have hreads : OnePush.memory.read 0x5008 8 = 0x6000 ∧ Butterfly.length {} OnePush.memory
    0x6000 = 0 ∧
      Butterfly.capacity {} OnePush.memory 0x6000 = 1 := by decide +kernel
  obtain ⟨hbutterfly, hlength, hcapacity⟩ := hreads
  have hpushed : Pushed (Machine.plain s₁.builder.func) {} .int32 0x5000 0x6000
    (Value.boxInt32 5) OnePush.memory (Value.boxInt32 1)
      OnePush.pushed := by
    unfold Pushed
    rw [hlength]
    exact ⟨rfl, _, Butterfly.changed_write hlayout _ _ _ _ _, .inl rfl⟩
  obtain ⟨hpush, -, hpop⟩ := push_then_pop hx₁ rfl rfl rfl hlayout
    (.int32 (TwoArguments.second_isInt32 hsize₁)) (.inr ⟨nofun, hbutterfly.symm⟩)
      (Machine.plain_boxesInt52 _ _) hlength
    (by change _ < Butterfly.capacity {} OnePush.memory 0x6000; rw [hcapacity]; decide)
      OnePush.memory_outside
    (fun stored x after hanswer =>
      by obtain ⟨_, _, hanswer⟩ := hanswer; cases hanswer; exact .refl _ _ _ _) hx₂ rfl hpushed rfl
        rfl rfl
    rfl rfl (.inr ⟨nofun, hbutterfly.symm⟩)
  exact ⟨s₁, s₂, h₁, h₂, hpush, hpop⟩

/-- Pushes onto an array, and returns its new length. -/
def pushed : Graph where
  name := "pushed"
  nodes := #[
    { op := .getStack { operand := .arg 1, slot := .arg 1, format := .jsValue },
      result := .jsValue },
    { op := .getStack { operand := .arg 2, slot := .arg 2, format := .jsValue },
      result := .jsValue },
    { op := .arrayPush OnePush.arrayMode, result := .jsValue
      children := [{ node := ⟨0⟩, useKind := .cell }, { node := ⟨1⟩, useKind := .int32 }] },
    { op := .ret, children := [{ node := ⟨2⟩ }] }]
  blocks := #[{ index := ⟨0⟩, nodes := #[⟨0⟩, ⟨1⟩, ⟨2⟩, ⟨3⟩] }]
  numArguments := 3
  numLocals := 0

/-- An array with `2^31 - 1` elements, and room for one more. -/
def memoryOfLongArray : Memory :=
  (((Simulation.FrameValues.memory { arguments := [0x5000, Value.boxInt32 7] }).write 0x5008 8
    0x60000).write 0x5fff8 4 0x7fffffff).write
    0x5fffc 4 0x80000000

/-- The length that is returned is `-2^31`, and not `2^31`. -/
theorem pushed_returns_negative : pushed.canCompile.isOk = true ∧
    Butterfly.length {} memoryOfLongArray 0x60000 = 0x7fffffff ∧
    Butterfly.capacity {} memoryOfLongArray 0x60000 = 0x80000000 ∧
    simulated pushed memoryOfLongArray = some (.returned (Value.boxInt32 (-0x80000000))) ∧
    Value.boxInt32 (-0x80000000) ≠ Value.boxInt52 0x80000000 := by
  decide +kernel

end Lowering

end SpecJit
