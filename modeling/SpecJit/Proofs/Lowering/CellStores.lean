import SpecJit.Proofs.Lowering.ArrayEnds
import SpecJit.Proofs.Lowering.Polymorphic

/-!
# Stores into cells

Behind every store of a boxed value into a cell the collector is told of the cell, whichever path
the code took to the store: exactly if the facts allow that the value is a cell, and the cell is
marked (`cell_stores_reported`). So nothing is missed as long as the facts are true of the word that
is stored. That is what a use of a boxed value sees to. It does not see to it for a double of the
frame: a NaN whose bits wrap around is a number to the facts, and a cell once it is boxed
(`unreported_returns`).
-/

namespace SpecJit

open Lir

/-- A cell other than the empty word is of a kind of cells. -/
theorem Value.kindOf_subset_cell {layout : ObjectLayout} {memory : Memory} {w : Word}
    (h : isCell w = true) (hne : w ≠ empty) :
    (kindOf layout memory w).isSubsetOf .cell = true := by
  rw [kindOf_cell h hne, Cell.kind]
  cases CellType.ofTag? (Cell.tag layout memory w) with
  | none => exact SpecType.subset_refl _
  | some cellType =>
    cases cellType with
    | string =>
      dsimp only
      split <;> decide
    | typedArray kind =>
      dsimp only
      cases kind <;> decide
    | _ =>
      dsimp only
      decide

/-- What is true of a cell allows cells. -/
theorem AbstractValue.Describes.allowsCell {known : AbstractValue} {layout : ObjectLayout}
    {memory : Memory} {w : Word} (h : known.Describes (Value.kindOf layout memory w))
    (hcell : Value.isCell w = true) (hne : w ≠ Value.empty) :
    known.ty.overlaps .cell = true :=
  SpecType.overlaps_of_subset h.inhabited h.allowed (Value.kindOf_subset_cell hcell hne)

/-! ## What is stored -/

section Effects

variable {σ : Type} (m : Machine σ) (layout : ObjectLayout) (cell butterfly w : Word) (k : UInt32)
  (before after : Memory)

/-- A property of a cell, or of its storage, has the word. -/
def PropertyOffset.Stored (offset : PropertyOffset) (origin : Word) : Prop :=
  ∃ d, layout.propertyOffset offset = .ok d ∧
    after = before.write (Machine.address origin (Int32.ofInt d)) 8 w

/-- A slot of a cell has the word. -/
def SlotStored (offset : Except Fault Int) : Prop :=
  ∃ d, offset = .ok d ∧ after = before.write (Machine.address cell (Int32.ofInt d)) 8 w

/-- An element out of bounds has the word: it was put where there is room, or the runtime was asked
to store it. -/
def ElementAppended (room : Bool) : Prop :=
  if room then
    after = (before.write (Butterfly.slot butterfly k) 8 w).write
      (Butterfly.lengthAddress layout butterfly) 4 (k + 1).toUInt64
  else ∃ x, Lowering.Answers m .putByValGeneric [cell, Value.boxInt32 k.toInt32, w] before x after

/-- An element has the word. -/
def ElementStored : Prop :=
  if k < Butterfly.length layout before butterfly then after = before.write
    (Butterfly.slot butterfly k) 8 w
  else ElementAppended m layout cell butterfly w k before after
    (k < Butterfly.capacity layout before butterfly)

/-- The arguments object has arguments that were moved or deleted. -/
def ArgumentsMapped (arguments : Word) : Bool :=
  before.read (Machine.address arguments (Int32.ofInt (layout.fieldOffset .directArgumentsMapped)))
    8 != 0

/-- The number of arguments of an arguments object. -/
def argumentsLength (arguments : Word) : UInt32 :=
  (before.read (Machine.address arguments (Int32.ofInt (layout.fieldOffset .directArgumentsLength)))
    4).toUInt32

/-- An array has the word behind its last element: it was put where there was room, or the runtime
was asked to push it. The result is the new length, or what the runtime answered. -/
def ElementPushed (r : Word) : Prop :=
  let n := Butterfly.length layout before butterfly
  if n < Butterfly.capacity layout before butterfly then
    r = Value.boxInt32 (n + 1).toInt32 ∧
      after = (before.write (Butterfly.slot butterfly n) 8 w).write
        (Butterfly.lengthAddress layout butterfly) 4 (n + 1).toUInt64
  else Lowering.Answers m .arrayPush [cell, w] before r after

end Effects

namespace Lowering

section

variable {σ : Type} {m : Machine σ} {b : Builder} {c : Config σ} {env : Env} {s s' s₁ s₂ s₃ : State}
  {id : NodeId} {node : Node} {base value index array butterfly length storage : Reg}
  {e stored : Edge} {mode : ArrayMode} {offset : PropertyOffset} {at_ : Option Edge}
  {cell v w : Word} {k n : UInt32} {known : AbstractValue}

/-- Control stands where the uses of a store were read. Registers have the cell and the value, of
which something is known. -/
structure AtStore (m : Machine σ) (env : Env) (base value : Reg) (stored : Edge) (cell w : Word)
    (known : AbstractValue) (s : State) (c : Config σ) : Prop where
  stands : m.At s.builder c
  cell : c.Has s.builder base .i64 cell
  value : c.Has s.builder value .i64 w
  known : s.facts.factOf env.graph stored.node = .ok known
  valid : s.facts.valid = true
  depth : s.armDepth = 0

/-- A word was stored, after which memory was as `R` says, and then the collector was told of it:
exactly if the facts allow a cell, and the cell that it was stored into is marked. -/
def Reported (m : Machine σ) (layout : ObjectLayout) (known : AbstractValue) (cell : Word)
    (R : Memory → Prop) (c' : Config σ) : Prop :=
  ∃ memory, R memory ∧
    Told m (known.ty.overlaps .cell = true ∧ Cell.marked layout memory cell = true) cell memory
      c'.runtimeState c'.memory

/-- From where the uses of a store were read the code leaves, or stores the word, and then tells the
collector. -/
def Stores (m : Machine σ) (env : Env) (s s' : State) (c : Config σ) (known : AbstractValue)
    (cell : Word) (o : Except ExitKind (Memory → Prop)) : Prop :=
  Course m .univ s s' c () (o.map fun R _ _ c' => Reported m env.layout known cell R c')

/-- A store with effects, and the barrier behind it. -/
theorem Proceeds.reported {x : Lower Unit} [Tidy x] [Quiet x] {R : Memory → Prop}
    (hx : Acts m .univ env s.builder c x fun _ _ c' => R c'.memory)
    (hcell : c.Has s.builder base .i64 cell) (hknown : s.facts.factOf env.graph id = .ok known) :
    Proceeds m .univ env s c (x >>= fun _ => barrierFor id base)
      (.ok fun _ _ c' => Reported m env.layout known cell R c') := by
  refine .act hx fun {_ s' c'} hsame e hregs hR => ?_
  have hknown' : s'.facts.factOf env.graph id = .ok known := by rw [hsame.facts]; exact hknown
  exact (barrierFor_proceeds (hcell.retain e hregs) hknown').mono fun htold =>
    ⟨c'.memory, hR, htold⟩

/-- The result of a store is recorded behind the barrier. -/
theorem barrierFor_setResult {k : NodeId} {form : Form} {r : Reg}
    (hnode : env.graph.node k = .ok node) (hform : node.result.form? = some form)
    (hdepth : s.armDepth = 0) (hcell : c.Has s.builder base .i64 cell)
    (hknown : s.facts.factOf env.graph id = .ok known) (hr : c.Has s.builder r form.type w) :
    Proceeds m .univ env s c (do
      barrierFor id base
      setResult k r) (.ok fun u s' c' => HeldAs k form (fun w' _ => w' = w) u s' c' ∧
        Told m (known.ty.overlaps .cell = true ∧ Cell.marked env.layout c.memory cell = true) cell
          c.memory c'.runtimeState c'.memory) := by
  intro s₁ s' u c₁ hsame hf hc h hm
  obtain ⟨_, s₂, h₁, h₂⟩ := bind_ok h
  have hsame₂ : SameButCode s₁ s₂ := Quiet.same _ _ _ _ h₁
  obtain rfl := setResult_ok h₂ hnode hform ((hsame₂.armDepth.trans hsame.armDepth).trans hdepth)
  have e₁ : s₁.builder.Emits [] s₂.builder := Tidy.after h₁ (.refl hc.wf)
  have hdoes := barrierFor_proceeds hcell hknown hsame hf hc h₁ hm
  refine Machine.Does.mono hdoes fun c₂ _ hregs htold => ⟨?_, htold⟩
  exact ⟨r, by simp, w, (hr.later hf).retain e₁.toExtends hregs, rfl⟩

/-! ## Properties and slots -/

theorem storeProperty_acts (hbase : c.Has b base .i64 cell) (hvalue : c.Has b value .i64 w) :
    Acts m .univ env b c (storeProperty value base offset) fun _ _ c' =>
      offset.Stored env.layout w c.memory c'.memory cell :=
  .ofRead (.ofCheck fun {d} hd => (store_acts hvalue hbase).mono fun hmem => ⟨d, hd, hmem⟩)

instance (storage : Edge) (r : Reg) (offset : PropertyOffset) :
    Quiet (slotBaseOf storage r offset) := by
  refine .bind inferInstance fun _ => ?_
  split <;> infer_instance

theorem slotBaseOf_yieldsIn {use : Edge} (hnode : env.graph.node use.node = .ok node)
    (hstorage : c.Has b storage .i64 v) :
    YieldsIn m .univ env b c (slotBaseOf use storage offset) .i64
      (if node.result = .storage then v else env.layout.slotOrigin c.memory v offset) := by
  intro s s' r c' hf hc h hm
  obtain ⟨node', hnode', h⟩ := getNode_bind_ok h
  obtain rfl := Except.ok.inj (hnode.symm.trans hnode')
  split
  case isTrue hresult =>
    rw [if_pos (by simpa using hresult)] at h
    exact Acts.pure (fun hf => ⟨v, hstorage.later hf, rfl, hf.memory⟩) hf hc h hm
  case isFalse hresult =>
    rw [if_neg (by simpa using hresult)] at h
    exact slotBase_yieldsIn hstorage hf hc h hm

theorem putByOffset_reported {access : StorageAccess} {storageUse baseUse : Edge}
    {storageNode : Node} (hop : node.op = .putByOffset access)
    (huses : writeUses node = .ok (storageUse, baseUse, stored))
    (h : lowerOp id node env s = .ok ((), s')) (hm : s'.builder.Completes m.func)
    (h₁ : asStorageOrCell storageUse env s = .ok (storage, s₁))
    (h₂ : asCell baseUse env s₁ = .ok (base, s₂)) (h₃ : asValue stored env s₂ = .ok (value, s₃))
    (hx : AtStore m env base value stored cell w known s₃ c)
    (hnode : env.graph.node storageUse.node = .ok storageNode)
    (hstorage : c.Has s₃.builder storage .i64 v) :
    Stores m env s₃ s' c known cell (.ok fun memory => access.offset.Stored env.layout w c.memory
      memory
      (if storageNode.result = .storage then v else env.layout.slotOrigin c.memory v access.offset))
        := by
  have hlower : lowerOp id node = lowerPutByOffset node access.offset := by simp only [lowerOp, hop]
  rw [hlower, lowerPutByOffset] at h
  obtain ⟨uses, huses', h⟩ := check_bind_ok h
  obtain rfl := Except.ok.inj (huses.symm.trans huses')
  dsimp only at h
  rw [bind_of_ok h₁, bind_of_ok h₂, bind_of_ok h₃] at h
  refine Proceeds.value (slotBaseOf_yieldsIn hnode hstorage) (fun {origin s₄ c₄} hsame hf horigin =>
    ?_) (.refl s₃) (.refl _ _) hx.stands h hm
  have hstore : Acts m .univ env s₄.builder c₄ (storeProperty value origin access.offset)
    fun _ _ c' =>
      access.offset.Stored env.layout w c₄.memory c'.memory _ :=
        storeProperty_acts horigin (hx.value.later hf)
  rw [hf.memory] at hstore
  exact .reported hstore (hx.cell.later hf) (by rw [hsame.facts]; exact hx.known)

/-- A store into a slot of a cell. -/
theorem putSlot_reported {offset : Except Fault Int} (hchild : node.child 0 = .ok e)
    (hchild' : node.child 1 = .ok stored) (h : lowerPutSlot node offset env s = .ok ((), s'))
    (hm : s'.builder.Completes m.func) (h₁ : asCell e env s = .ok (base, s₁))
    (h₂ : asValue stored env s₁ = .ok (value, s₂))
    (hx : AtStore m env base value stored cell w known s₂ c) :
    Stores m env s₂ s' c known cell (.ok fun memory => SlotStored cell w c.memory memory
      offset) := by
  rw [lowerPutSlot] at h
  obtain ⟨e', he, h⟩ := check_bind_ok h
  obtain rfl := Except.ok.inj (hchild.symm.trans he)
  rw [bind_of_ok h₁] at h
  obtain ⟨stored', hstored, h⟩ := check_bind_ok h
  obtain rfl := Except.ok.inj (hchild'.symm.trans hstored)
  rw [bind_of_ok h₂] at h
  have hstore : Acts m .univ env s₂.builder c (do Emit.store64 value base (← offset) : Lower Unit)
      fun _ _ c' => SlotStored cell w c.memory c'.memory offset :=
    .ofCheck fun {d} hd => (store_acts hx.value hx.cell).mono fun hmem => ⟨d, hd, hmem⟩
  rw [← bind_assoc] at h
  exact Proceeds.reported hstore hx.cell hx.known (.refl s₂) (.refl _ _) hx.stands h hm

/-! ## Elements -/

/-- What is done with an index in bounds. -/
def storeWithin (mode : ArrayMode) (butterfly index value : Reg) : Lower (List Reg) := do
  storeElement mode.arrayType butterfly index value
  return []

/-- What is done with an index out of bounds, if there is room for it, or if there is not. -/
def storeOutside (mode : ArrayMode) (base butterfly index value : Reg) (room : Bool) :
    Lower (List Reg) :=
  if room then do
    storeElement mode.arrayType butterfly index value
    let grown ← Emit.binaryImm .add index 1
    storePublicLength butterfly grown
    return []
  else do
    let boxedIndex ← boxInt32 index
    let boxedValue ← boxElement mode.arrayType value
    let _ ← callHelper .putByValGeneric [base, boxedIndex, boxedValue]
    return []

/-- Whether there is room for an index. -/
def hasRoom (butterfly index : Reg) : Lower Reg := do
  let capacity ← loadVectorLength butterfly
  Emit.icmp .ult index capacity

instance {R : Law} [R.Codes] (butterfly index value : Reg) :
    Obeys R (storeWithin mode butterfly index value) := by
  unfold storeWithin
  infer_instance

instance {R : Law} [R.Codes] (base butterfly index value : Reg) (room : Bool) :
    Obeys R (storeOutside mode base butterfly index value room) := by
  unfold storeOutside
  infer_instance

instance {R : Law} [R.Codes] (butterfly index : Reg) : Obeys R (hasRoom butterfly index) := by
  unfold hasRoom
  infer_instance

theorem storeOrAppend_eq : storeOrAppend mode base butterfly index length value = (do
    let inBounds ← Emit.icmp .ult index length
    fork inBounds .normal (fun join => do Emit.jump join (← storeWithin mode butterfly index value))
      fun join =>
      dispatch join true (fun _ => hasRoom butterfly index) (storeOutside mode base butterfly index
        value) (pure ()) [true, false]) := by
  simp [storeOrAppend, fork, storeWithin, storeOutside, hasRoom, dispatch]

theorem storeOutside_acts {room : Bool} (hmode : mode.arrayType = .contiguous)
    (hcell : c.Has b base .i64 cell) (hb : c.Has b butterfly .i64 v)
    (hindex : c.Has b index .i32 k.toUInt64) (hvalue : c.Has b value .i64 w) :
    Acts m .univ env b c (storeOutside mode base butterfly index value room) fun args _ c' =>
      args = [] ∧ ElementAppended m env.layout cell v w k c.memory c'.memory room := by
  cases room with
  | true =>
    exact extend_acts hb hindex (by rw [hmode]; exact hvalue) fun _ hmem => .pure fun hf =>
      ⟨rfl, hf.memory.trans hmem⟩
  | false =>
    refine YieldsIn.andThen (.ofEmit (boxInt32_yieldsIn hindex)) fun {r b₁ c₁} hf₁ hr => ?_
    rw [low32, UInt32.toUInt32_toUInt64] at hr
    have hboxed : c₁.Has b₁ value (Butterfly.type (mode.arrayType == .double)) w := by
      rw [hmode]
      exact hvalue.later hf₁
    refine YieldsIn.andThen (.ofEmit (boxElement_yieldsIn hboxed)) fun {q b₂ c₂} hf₂ hq => ?_
    have hword : Butterfly.boxed (mode.arrayType == .double) w = w := by rw [hmode]; rfl
    rw [hword] at hq
    refine .bind
      (callHelper_acts (.cons ⟨_, hcell.later (hf₁.trans hf₂)⟩
        (.cons ⟨_, hr.later hf₂⟩ (.cons ⟨_, hq⟩ .nil))))
      fun _ _ hanswer => ?_
    obtain ⟨x, -, hanswer⟩ := hanswer
    rw [(hf₁.trans hf₂).memory] at hanswer
    exact .pure fun hf => ⟨rfl, x, by rw [hf.memory]; exact hanswer⟩

theorem storeOrAppend_acts (hmode : mode.arrayType = .contiguous) (hcell : c.Has b base .i64 cell)
    (hb : c.Has b butterfly .i64 v) (hindex : c.Has b index .i32 k.toUInt64)
    (hlength : c.Has b length .i32 (Butterfly.length env.layout c.memory v).toUInt64)
    (hvalue : c.Has b value .i64 w) :
    Acts m .univ env b c (storeOrAppend mode base butterfly index length value) fun _ _ c' =>
      ElementStored m env.layout cell v w k c.memory c'.memory := by
  rw [storeOrAppend_eq]
  refine YieldsIn.andThen (.ofEmit (inBounds_yieldsIn hindex hlength))
    fun {inBounds b₁ c₁} hf₁ hcond => ?_
  refine fork_ends (R := fun _ memory => ElementStored m env.layout cell v w k c.memory memory)
    hcond (fun hin {p b₂ c₂} hf₂ => ?_)
    fun hout {p b₂ c₂} hf₂ => ?_
  · have hf := hf₁.trans hf₂
    refine Acts.departs (R := fun _ memory => ElementStored m env.layout cell v w k c.memory memory)
      (.bind (storeElement_acts
      (hb.later hf) (hindex.later hf) (by rw [hmode]; exact hvalue.later hf)) fun _ _ hmem => .pure
        fun hf' => ⟨rfl, ?_⟩)
    rw [ElementStored, if_pos (of_decide_eq_true (ofBool_ne_zero.1 hin)), hf'.memory, hmem,
      hf.memory]
  · have hf := hf₁.trans hf₂
    have hnot : ¬ k < Butterfly.length env.layout c₂.memory v := by
      rw [hf.memory]
      exact of_decide_eq_false (ofBool_eq_zero.1 hout)
    have htest : YieldsIn m .univ env b₂ c₂ (hasRoom butterfly index) .i32
        (ofBool (decide (k < Butterfly.capacity env.layout c₂.memory v))) :=
      YieldsIn.andThen (loadVectorLength_yieldsIn (hb.later hf)) fun hf₃ hcapacity =>
        (YieldsIn.ofEmit (inBounds_yieldsIn ((hindex.later hf).later hf₃) hcapacity)).mono
          fun ⟨u, hu, hw, hmem⟩ =>
          ⟨u, hu, hw, hmem.trans hf₃.memory⟩
    have hchosen {room : Bool} : chosen true (fun _ => room) [true, false] = some room := by
      cases room <;> rfl
    have hdeparts : Departs m .univ env b₂ c₂ p []
      (dispatch p true (fun _ => hasRoom butterfly index)
        (storeOutside mode base butterfly index value) (pure ()) [true, false])
        ((outcome .badType
          (chosen true (fun _ => decide (k < Butterfly.capacity env.layout c₂.memory v))
            [true, false])).map
          fun room c' => ElementAppended m env.layout cell v w k c₂.memory c'.memory room) := by
      refine dispatch_departs (fun _ _ => htest) (fun room _ => ?_) (fun hnone => ?_)
        fun hlast => ?_
      · exact Acts.departs (R := fun _ memory => ElementAppended m env.layout cell v w k c₂.memory
          memory room)
          (storeOutside_acts hmode (hcell.later hf) (hb.later hf) (hindex.later hf)
            (hvalue.later hf))
      · rw [hchosen] at hnone
        cases hnone
      · simp at hlast
    rw [hchosen] at hdeparts
    refine hdeparts.mono fun happended => ?_
    rw [ElementStored, ← hf.memory, if_neg hnot]
    exact happended

/-- A store of an element, which may leave if the index is out of bounds. -/
theorem putElement_reported {index_ : Edge} (hop : node.op = .putByVal mode)
    (hmode : mode.arrayType = .contiguous) (hchild : node.child 0 = .ok e)
    (hchild₁ : node.child 1 = .ok index_) (hchild₂ : node.child 2 = .ok stored)
    (h : lowerOp id node env s = .ok ((), s')) (hm : s'.builder.Completes m.func)
    (h₁ : asCell e env s = .ok (base, s₁)) (h₂ : asInt32 index_ env s₁ = .ok (index, s₂))
    (h₃ : asValue stored env s₂ = .ok (value, s₃))
    (hx : AtStore m env base value stored cell w known s₃ c)
    (hindex : c.Has s₃.builder index .i32 k.toUInt64)
    (hb : IsButterfly env s₃ c cell node.children[3]? v) :
    Stores m env s₃ s' c known cell (if mode.speculation = .inBounds ∧ Butterfly.length env.layout
      c.memory v ≤ k then .error .outOfBounds
      else .ok fun memory => ElementStored m env.layout cell v w k c.memory memory) := by
  have hlower : lowerOp id node = lowerPutButterflyElement node mode := by
    unfold lowerOp
    rw [hop]
    change lowerPutByVal node mode = _
    unfold lowerPutByVal
    rw [hmode]
  rw [hlower, lowerPutButterflyElement] at h
  obtain ⟨e', he, h⟩ := check_bind_ok h
  obtain rfl := Except.ok.inj (hchild.symm.trans he)
  rw [bind_of_ok h₁] at h
  obtain ⟨index', hindex', h⟩ := check_bind_ok h
  obtain rfl := Except.ok.inj (hchild₁.symm.trans hindex')
  rw [bind_of_ok h₂] at h
  obtain ⟨stored', hstored, h⟩ := check_bind_ok h
  obtain rfl := Except.ok.inj (hchild₂.symm.trans hstored)
  have hvalueOf : butterflyStoreValue stored mode.arrayType = asValue stored := by rw [hmode]; rfl
  rw [hvalueOf, bind_of_ok h₃] at h
  have hbarrier : elementBarrier mode.arrayType stored.node base = barrierFor stored.node base := by
    rw [hmode]
    rfl
  rw [hbarrier] at h
  refine Proceeds.ofButterfly (L := .univ) hb hx.cell trivial
    (fun {butterfly s₄ c₄} hsame₄ hf₄ hbutterfly => ?_) (.refl s₃) (.refl _ _)
    hx.stands h hm
  refine .value (loadPublicLength_yieldsIn hbutterfly trivial)
    fun {length s₅ c₅} hsame₅ hf₅ hlength => ?_
  rw [hf₄.memory] at hlength
  have hf := hf₄.trans hf₅
  have hknown : s₅.facts.factOf env.graph stored.node = .ok known := by
    rw [(hsame₄.trans hsame₅).facts]
    exact hx.known
  by_cases hin : mode.speculation = .inBounds
  · simp only [hin, true_and, if_true]
    rw [apply_ite (Except.map _)]
    refine .checkInBounds (hindex.later hf) hlength fun hlt {s₆ c₆} hsame₆ hf₆ => ?_
    have hf' := hf.trans hf₆
    refine .reported ((storeElement_acts (hbutterfly.later (hf₅.trans hf₆)) (hindex.later hf')
      (by rw [hmode]; exact hx.value.later hf')).mono fun hmem => ?_) (hx.cell.later hf')
        (by rw [hsame₆.facts]; exact hknown)
    rw [ElementStored, if_pos hlt, hmem, hf'.memory]
  · simp only [hin, false_and, if_false]
    have hstore : Acts m .univ env s₅.builder c₅ (storeOrAppend mode base butterfly index length
      value) fun _ _ c' =>
        ElementStored m env.layout cell v w k c₅.memory c'.memory :=
          storeOrAppend_acts hmode (hx.cell.later hf)
      (hbutterfly.later hf₅) (hindex.later hf) (by rw [hf.memory]; exact hlength)
        (hx.value.later hf)
    rw [hf.memory] at hstore
    exact .reported hstore (hx.cell.later hf) hknown

set_option synthInstance.maxSize 4000 in
/-- A store into an argument of an arguments object, which may leave. -/
theorem putArgument_reported {index_ : Edge} (hop : node.op = .putByVal mode)
    (hmode : mode.arrayType = .directArguments) (hchild : node.child 0 = .ok e)
    (hchild₁ : node.child 1 = .ok index_) (hchild₂ : node.child 2 = .ok stored)
    (h : lowerOp id node env s = .ok ((), s')) (hm : s'.builder.Completes m.func)
    (h₁ : asCell e env s = .ok (base, s₁)) (h₂ : asInt32 index_ env s₁ = .ok (index, s₂))
    (h₃ : asValue stored env s₂ = .ok (value, s₃))
    (hx : AtStore m env base value stored cell w known s₃ c)
    (hindex : c.Has s₃.builder index .i32 k.toUInt64) :
    Stores m env s₃ s' c known cell (if ArgumentsMapped env.layout c.memory cell then .error
      .exoticObjectMode
      else if argumentsLength env.layout c.memory cell ≤ k then .error .outOfBounds
      else .ok fun memory => SlotStored (Butterfly.slot cell k) w c.memory memory
        (env.layout.directArgumentOffset 0)) := by
  have hlower : lowerOp id node = lowerPutArgument node := by
    unfold lowerOp
    rw [hop]
    change lowerPutByVal node mode = _
    unfold lowerPutByVal
    rw [hmode]
  rw [hlower, lowerPutArgument] at h
  obtain ⟨e', he, h⟩ := check_bind_ok h
  obtain rfl := Except.ok.inj (hchild.symm.trans he)
  rw [bind_of_ok h₁] at h
  obtain ⟨index', hindex', h⟩ := check_bind_ok h
  obtain rfl := Except.ok.inj (hchild₁.symm.trans hindex')
  rw [bind_of_ok h₂] at h
  obtain ⟨stored', hstored, h⟩ := check_bind_ok h
  obtain rfl := Except.ok.inj (hchild₂.symm.trans hstored)
  rw [bind_of_ok h₃] at h
  simp only [argumentAddress, checkUnmapped, bind_assoc] at h
  unfold Stores
  rw [apply_ite (Except.map _), apply_ite (Except.map _)]
  refine Proceeds.value (L := .univ) (loadField64_yieldsIn hx.cell .directArgumentsMapped trivial)
    (fun {mapped s₄ c₄} hsame₄ hf₄ hmapped => ?_)
    (.refl s₃) (.refl _ _) hx.stands h hm
  have htest : (Emit.icmpImm .ne mapped 0).YieldsIn m .univ s₄.builder c₄ .i32
    (ofBool (ArgumentsMapped env.layout c.memory cell)) :=
    (Emit.icmpImm_yieldsIn hmapped).congr (congrArg ofBool (IntCC.ne_eval _ 0))
  refine .value (.ofEmit htest) fun {test s₅ c₅} hsame₅ hf₅ htest =>
    .guard htest fun _ {s₆ c₆} hsame₆ hf₆ => ?_
  have hf := hf₄.trans (hf₅.trans hf₆)
  refine .value (loadField32_yieldsIn (hx.cell.later hf) .directArgumentsLength trivial)
    fun {length s₇ c₇} hsame₇ hf₇ hlength => ?_
  rw [hf.memory] at hlength
  refine .checkInBounds (hindex.later (hf.trans hf₇)) hlength fun _ {s₈ c₈} hsame₈ hf₈ => ?_
  have hf' := hf.trans (hf₇.trans hf₈)
  refine .value (.ofEmit (slot_yieldsIn (hx.cell.later hf') (hindex.later hf')))
    fun {address s₉ c₉} hsame₉ hf₉ haddress => ?_
  have hf'' := hf'.trans hf₉
  have hstore : Acts m .univ env s₉.builder c₉
    (do Emit.store64 value address (← (← read).layout.directArgumentOffset 0) : Lower Unit)
      fun _ _ c' => SlotStored (Butterfly.slot cell k) w c.memory c'.memory
        (env.layout.directArgumentOffset 0) :=
    .ofRead (.ofCheck fun {d} hd => (store_acts (hx.value.later hf'') haddress).mono fun hmem =>
      ⟨d, hd, by rw [hmem, hf''.memory]; rfl⟩)
  have hsame := ((((hsame₄.trans hsame₅).trans hsame₆).trans hsame₇).trans hsame₈).trans hsame₉
  have hreported := Proceeds.reported
    (R := fun memory => SlotStored (Butterfly.slot cell k) w c.memory memory
      (env.layout.directArgumentOffset 0)) hstore
    (hx.cell.later hf'') (by rw [hsame.facts]; exact hx.known)
  simp only [bind_assoc] at hreported
  exact hreported

set_option synthInstance.maxSize 4000 in
/-- A value that is pushed. -/
theorem push_reported (hop : node.op = .arrayPush mode) (hmode : mode.arrayType = .contiguous)
    (hnode : env.graph.node id = .ok node) (hresult : node.result = .jsValue)
    (hchild : node.child 0 = .ok e) (hchild₁ : node.child 1 = .ok stored)
    (h : lowerOp id node env s = .ok ((), s')) (hm : s'.builder.Completes m.func)
    (h₁ : asCell e env s = .ok (base, s₁)) (h₂ : asValue stored env s₁ = .ok (value, s₂))
    (hx : AtStore m env base value stored cell w known s₂ c)
    (hb : IsButterfly env s₂ c cell node.children[2]? v) :
    Course m .univ s₂ s' c () (.ok fun u s c' => ∃ r, HeldAs id .jsValue (fun r' _ => r' = r) u s
      c' ∧
      Reported m env.layout known cell (fun memory => ElementPushed m env.layout cell v w c.memory
        memory r) c') := by
  have hlower : lowerOp id node = lowerArrayPush id node mode := by
    unfold lowerOp
    rw [hop]
  rw [hlower, lowerArrayPush] at h
  obtain ⟨e', he, h⟩ := check_bind_ok h
  obtain rfl := Except.ok.inj (hchild.symm.trans he)
  rw [bind_of_ok h₁] at h
  obtain ⟨stored', hstored, h⟩ := check_bind_ok h
  obtain rfl := Except.ok.inj (hchild₁.symm.trans hstored)
  have hvalueOf : butterflyStoreValue stored mode.arrayType = asValue stored := by rw [hmode]; rfl
  rw [hvalueOf, bind_of_ok h₂] at h
  have hbarrier : elementBarrier mode.arrayType stored.node base = barrierFor stored.node base := by
    rw [hmode]
    rfl
  rw [hbarrier] at h
  refine Proceeds.ofButterfly (L := .univ) hb hx.cell trivial
    (fun {butterfly s₃ c₃} hsame₃ hf₃ hbutterfly => ?_) (.refl s₂) (.refl _ _)
    hx.stands h hm
  refine .value (loadPublicLength_yieldsIn hbutterfly trivial)
    fun {length s₄ c₄} hsame₄ hf₄ hlength => ?_
  refine .value (loadVectorLength_yieldsIn (hbutterfly.later hf₄))
    fun {capacity s₅ c₅} hsame₅ hf₅ hcapacity => ?_
  rw [hf₃.memory] at hlength
  rw [(hf₃.trans hf₄).memory] at hcapacity
  refine .value (.ofEmit (inBounds_yieldsIn (hlength.later hf₅) hcapacity))
    fun {fits s₆ c₆} hsame₆ hf₆ hfits => ?_
  have hf := hf₃.trans (hf₄.trans (hf₅.trans hf₆))
  have hpush : Acts m .univ env s₆.builder c₆ (diamond .i64 fits .normal
      (do
        storeElement mode.arrayType butterfly length value
        let grown ← Emit.binaryImm .add length 1
        storePublicLength butterfly grown
        boxInt32 grown)
      (do callHelper .arrayPush [base, ← boxElement mode.arrayType value]))
      (InRegister .i64 fun r memory => ElementPushed m env.layout cell v w c.memory memory r) := by
    have hvalue : c₆.Has s₆.builder value (Butterfly.type (mode.arrayType == .double)) w := by
      rw [hmode]
      exact hx.value.later hf
    unfold ElementPushed
    refine diamond_acts hfits (fun hroom => ?_) fun hfull => ?_
    · simp only [if_pos (of_decide_eq_true (ofBool_ne_zero.1 hroom))]
      have hgrown : Acts m .univ env _ _ _ _ :=
        append_acts (hbutterfly.later (hf₄.trans (hf₅.trans hf₆))) (hlength.later (hf₅.trans hf₆))
          hvalue
      rw [hf.memory] at hgrown
      exact hgrown
    · simp only [if_neg (of_decide_eq_false (ofBool_eq_zero.1 hfull))]
      refine YieldsIn.andThen (.ofEmit (boxElement_yieldsIn hvalue)) fun {boxed b₇ c₇} hf₇ hboxed =>
        ?_
      have hword : Butterfly.boxed (mode.arrayType == .double) w = w := by rw [hmode]; rfl
      rw [hword] at hboxed
      rw [← (hf.trans hf₇).memory]
      exact callHelper_acts (.cons ⟨_, hx.cell.later (hf.trans hf₇)⟩ (.cons ⟨_, hboxed⟩ .nil))
  refine .act hpush fun {result s₇ c₇} hsame₇ e₇ hregs₇ hpushed => ?_
  obtain ⟨r, hr, hpushed⟩ := hpushed
  have hsame := (((hsame₃.trans hsame₄).trans hsame₅).trans hsame₆).trans hsame₇
  have hknown : s₇.facts.factOf env.graph stored.node = .ok known := by
    rw [hsame.facts]
    exact hx.known
  have hdepth : s₇.armDepth = 0 := hsame.armDepth.trans hx.depth
  refine (barrierFor_setResult hnode (by rw [hresult]; rfl) hdepth
    ((hx.cell.later hf).retain e₇ hregs₇) hknown hr).mono ?_
  rintro u s' c' ⟨hheld, htold⟩
  exact ⟨r, hheld, c₇.memory, hpushed, htold⟩

/-- From where the uses of a store into a cell were read, the code leaves, or it stores the word
that was read for the value, in one of the ways that the node has, and then calls the collector:
exactly if what is known of the value allows a cell, and the cell that the word was stored into is
marked. What is known does allow a cell if it is true of the word and the word is one. A use of a
boxed value leaves, or what is known is true of the word. -/
theorem cell_stores_reported {baseUse : Edge} (h : lowerOp id node env s = .ok ((), s'))
    (hm : s'.builder.Completes m.func) :
    (∀ {access storageUse storageNode storage v s₁ s₂ s₃}, node.op = .putByOffset access →
      writeUses node = .ok (storageUse, baseUse, stored) →
      asStorageOrCell storageUse env s = .ok (storage, s₁) → asCell baseUse env s₁ = .ok (base,
        s₂) →
      asValue stored env s₂ = .ok (value, s₃) → AtStore m env base value stored cell w known s₃ c →
      env.graph.node storageUse.node = .ok storageNode → c.Has s₃.builder storage .i64 v →
      Stores m env s₃ s' c known cell (.ok fun memory => access.offset.Stored env.layout w c.memory
        memory
        (if storageNode.result = .storage then v else env.layout.slotOrigin c.memory v
          access.offset))) ∧
    (∀ {cases knownCell s₁ s₂}, node.op = .multiPutByOffset cases → node.child 0 = .ok baseUse →
      node.child 1 = .ok stored →
      asCell baseUse env s = .ok (base, s₁) → asValue stored env s₁ = .ok (value, s₂) →
      AtStore m env base value stored cell w known s₂ c → s₂.facts.factOf env.graph
        baseUse.node = .ok knownCell →
      (∀ k ∈ cases, k.Fits) →
      Stores m env s₂ s' c known cell ((outcome .badCache
        (caseOf knownCell.structures WriteCase.oldStructures cases (env.layout.structureOf c.memory
          cell))).map
          fun k memory => k.Writes m env.layout env.graph.structures cell w c.memory memory)) ∧
    (∀ {i offset s₁ s₂}, (node.op = .putClosureVar i ∧ offset = env.layout.closureVarOffset i ∨
        node.op = .putToArguments i ∧ offset = env.layout.directArgumentOffset i) →
      node.child 0 = .ok baseUse → node.child 1 = .ok stored → asCell baseUse env s = .ok (base,
        s₁) →
      asValue stored env s₁ = .ok (value, s₂) → AtStore m env base value stored cell w known s₂ c →
      Stores m env s₂ s' c known cell (.ok fun memory => SlotStored cell w c.memory memory offset))
        ∧
    (∀ {mode indexUse index k s₁ s₂ s₃}, node.op = .putByVal mode → node.child 0 = .ok baseUse →
      node.child 1 = .ok indexUse → node.child 2 = .ok stored →
      asCell baseUse env s = .ok (base, s₁) → asInt32 indexUse env s₁ = .ok (index, s₂) →
      asValue stored env s₂ = .ok (value, s₃) →
      AtStore m env base value stored cell w known s₃ c → c.Has s₃.builder index .i32 k.toUInt64 →
      (∀ {v}, mode.arrayType = .contiguous → IsButterfly env s₃ c cell node.children[3]? v →
        Stores m env s₃ s' c known cell (if mode.speculation = .inBounds ∧
          Butterfly.length env.layout c.memory v ≤ k then
          .error .outOfBounds else .ok fun memory => ElementStored m env.layout cell v w k c.memory
            memory)) ∧
      (mode.arrayType = .directArguments →
        Stores m env s₃ s' c known cell (if ArgumentsMapped env.layout c.memory cell then .error
          .exoticObjectMode
          else if argumentsLength env.layout c.memory cell ≤ k then .error .outOfBounds
          else .ok fun memory => SlotStored (Butterfly.slot cell k) w c.memory memory
            (env.layout.directArgumentOffset 0)))) ∧
    (∀ {mode v s₁ s₂}, node.op = .arrayPush mode → mode.arrayType = .contiguous →
      env.graph.node id = .ok node → node.result = .jsValue →
      node.child 0 = .ok baseUse → node.child 1 = .ok stored → asCell baseUse env s = .ok (base,
        s₁) →
      asValue stored env s₁ = .ok (value, s₂) → AtStore m env base value stored cell w known s₂ c →
      IsButterfly env s₂ c cell node.children[2]? v →
      Stores m env s₂ s' c known cell (.ok fun memory => ∃ r, ElementPushed m env.layout cell v w
        c.memory memory r)) ∧
    (∀ {memory}, known.Describes (Value.kindOf env.layout memory w) → Value.isCell w = true →
      w ≠ Value.empty →
      known.ty.overlaps .cell = true) ∧
    (∀ {s₁}, asValue stored env s = .ok (value, s₁) → s₁.builder.Completes m.func →
      m.At s.builder c → Boxed env s stored.node base →
      c.Has s.builder base .i64 w → Informed env c.memory s stored.node w → Sees env c.memory stored
        w →
      m.Leaves s₁.builder c ∨ value = base ∧ Informed env c.memory s₁ stored.node w) := by
  refine ⟨?_, ?_, ?_, ?_, ?_, fun hdesc => hdesc.allowsCell, ?_⟩
  · intro access storageUse storageNode storage v s₁ s₂ s₃ hop huses h₁ h₂ h₃ hx hnode hstorage
    exact putByOffset_reported hop huses h hm h₁ h₂ h₃ hx hnode hstorage
  · intro cases knownCell s₁ s₂ hop hchild hchild' h₁ h₂ hx hknownCell hfits
    have hcourse := multiPut_taken hop hchild hchild' h hm h₁ h₂ hx.stands hx.cell hx.valid
      hknownCell hx.value hx.known hfits
    generalize caseOf knownCell.structures WriteCase.oldStructures
      cases (env.layout.structureOf c.memory cell) = k at hcourse ⊢
    cases k <;> exact hcourse
  · intro i offset s₁ s₂ hop hchild hchild' h₁ h₂ hx
    have hslot : lowerPutSlot node offset env s = .ok ((), s') := by
      rcases hop with ⟨hop, hoffset⟩ | ⟨hop, hoffset⟩
      · have hlower : lowerOp id node = lowerPutClosureVar node i := by simp only [lowerOp, hop]
        rw [hlower] at h
        rw [hoffset]
        exact h
      · have hlower : lowerOp id node = lowerPutToArguments node i := by simp only [lowerOp, hop]
        rw [hlower] at h
        rw [hoffset]
        exact h
    exact putSlot_reported hchild hchild' hslot hm h₁ h₂ hx
  · intro mode indexUse index k s₁ s₂ s₃ hop hchild hchild₁ hchild₂ h₁ h₂ h₃ hx hindex
    exact ⟨fun {v} hmode => putElement_reported hop hmode hchild hchild₁ hchild₂ h hm h₁ h₂ h₃ hx
      hindex,
      fun hmode => putArgument_reported hop hmode hchild hchild₁ hchild₂ h hm h₁ h₂ h₃ hx hindex⟩
  · intro mode v s₁ s₂ hop hmode hnode hresult hchild hchild₁ h₁ h₂ hx hb
    refine Machine.Does.mono (push_reported hop hmode hnode hresult hchild hchild₁ h hm h₁ h₂ hx hb)
      ?_
    rintro c' _ _ ⟨r, -, memory, hpushed, htold⟩
    exact ⟨memory, ⟨r, hpushed⟩, htold⟩
  · intro s₁ h₁ hm₁ hc hboxed hw hi hsees
    obtain ⟨hr, hreads⟩ := asValue_reads h₁ hm₁ hc hboxed hw hi hsees
    exact hreads.imp_right fun hread => ⟨hr, hread.2.2.1⟩

end

/-! ## A variable of a scope -/

namespace OneVariable

open TwoArguments

def put : Node where
  op := .putClosureVar 0
  children := [{ node := ⟨0⟩, useKind := .knownCell }, { node := ⟨1⟩ }]

/-- The scope is marked. -/
def memory : Memory := ({} : Memory).write 0x5007 1 1

/-- The scope and another cell are the arguments. -/
def start (f : Function) : Config Unit := { config f 0x5000 0x7000 with memory }

theorem start_atStore {f : Function} (hf : 3 < f.types.size) :
    AtStore (Machine.plain f) (env (graph put .jsValue .jsValue)) ⟨2⟩ ⟨3⟩ { node := ⟨1⟩ } 0x5000
      0x7000
      (.ofType NodeResult.jsValue.typeBound)
      (before (graph put .jsValue .jsValue) .jsValue) (start f) where
  stands := before_atMemory _
  cell := (config_hasIn hf).1
  value := (config_hasIn hf).2
  known := rfl
  valid := rfl
  depth := rfl

end OneVariable

open TwoArguments OneVariable in
/-- A cell is stored into a variable of a marked scope, and the collector is told of the scope. -/
theorem cell_stores_reported_variable : ∃ s', lowerOp ⟨2⟩ put (env (graph put .jsValue .jsValue))
      (before (graph put .jsValue .jsValue) .jsValue) = .ok ((), s') ∧
    Course (Machine.plain s'.builder.func) .univ (before (graph put .jsValue .jsValue) .jsValue) s'
      (start s'.builder.func) ()
      (.ok fun _ _ c' => ∃ x, Called (Machine.plain s'.builder.func) .writeBarrier [0x5000]
        (memory.write 0x5020 8 0x7000) x c'.runtimeState
        c'.memory) := by
  have hcheck : ((lowerOp ⟨2⟩ put (env (graph put .jsValue .jsValue))
      (before (graph put .jsValue .jsValue) .jsValue)).toOption.any fun r =>
        3 < r.2.builder.func.types.size) = true := by
    decide +kernel
  obtain ⟨⟨⟨⟩, s'⟩, h, hsize⟩ := ok_of_any hcheck
  rw [decide_eq_true_eq] at hsize
  refine ⟨s', h, ?_⟩
  have hstores : Stores (Machine.plain s'.builder.func) (env (graph put .jsValue .jsValue))
    (before (graph put .jsValue .jsValue) .jsValue) s'
      (start s'.builder.func) (.ofType NodeResult.jsValue.typeBound) 0x5000
      (.ok fun after => SlotStored 0x5000 0x7000 memory after (ObjectLayout.closureVarOffset {} 0))
        :=
    (cell_stores_reported h s'.builder.completes_self).2.2.1 (.inl ⟨rfl, rfl⟩) rfl rfl rfl rfl
      (start_atStore hsize)
  have hneeded : (AbstractValue.ofType NodeResult.jsValue.typeBound).ty.overlaps .cell = true := by
    decide
  refine Machine.Does.mono hstores ?_
  rintro c' _ _ ⟨after, ⟨d, hd, rfl⟩, htold⟩
  obtain rfl : 32 = d := Except.ok.inj hd
  have hmarked : Cell.marked {} (memory.write 0x5020 8 0x7000) 0x5000 = true := by decide +kernel
  rcases htold with ⟨-, hcalled⟩ | ⟨hnot, -⟩
  · exact hcalled
  · exact absurd ⟨hneeded, hmarked⟩ hnot

/-! ## A number that turns into a cell

A frame slot in the format of doubles may have the bits of any NaN. A use as a number rules out
those that wrap around, though it does not test for them; behind two such uses the facts of what
comes after do not allow them. Boxed, the double is a cell. -/

/-- Uses a double of the frame as a number on two ways, and stores it into a variable of a scope
where they meet. -/
def unreported : Graph where
  name := "unreported"
  nodes := #[
    { op := .getStack { operand := .arg 1, slot := .arg 1, format := .double }, result := .double },
    { op := .getStack { operand := .arg 2, slot := .arg 2, format := .jsValue },
      result := .jsValue },
    { op := .getStack { operand := .arg 3, slot := .arg 3, format := .jsValue },
      result := .jsValue },
    { op := .branch { taken := ⟨1⟩, notTaken := ⟨2⟩ },
      children := [{ node := ⟨2⟩, useKind := .boolean }] },
    { op := .putGlobalVar 0x9000, children := [{ node := ⟨0⟩, useKind := .number }] },
    { op := .jump ⟨3⟩ },
    { op := .putGlobalVar 0x9000, children := [{ node := ⟨0⟩, useKind := .number }] },
    { op := .jump ⟨3⟩ },
    { op := .putClosureVar 0, children := [{ node := ⟨1⟩, useKind := .cell }, { node := ⟨0⟩ }] },
    { op := .ret, children := [{ node := ⟨2⟩ }] }]
  blocks := #[
    { index := ⟨0⟩, nodes := #[⟨0⟩, ⟨1⟩, ⟨2⟩, ⟨3⟩] },
    { index := ⟨1⟩, nodes := #[⟨4⟩, ⟨5⟩], predecessors := [⟨0⟩] },
    { index := ⟨2⟩, nodes := #[⟨6⟩, ⟨7⟩], predecessors := [⟨0⟩] },
    { index := ⟨3⟩, nodes := #[⟨8⟩, ⟨9⟩], predecessors := [⟨1⟩, ⟨2⟩] }]
  numArguments := 4
  numLocals := 0

/-- The arguments are a NaN, a marked scope, and `true`. -/
def memoryOfNaN : Memory :=
  (Simulation.FrameValues.memory { arguments := [0xffff000000005000, 0x6000,
    Value.boxBoolean true] }).write 0x6007 1 1

/-- How many calls a simulated run of a graph makes, and the word that an address has at its end. -/
def callsAndWord (g : Graph) (memory : Memory) (a : Word) : Option (Nat × Word) :=
  match g.lower {} {} with
  | .ok f =>
    let final := Simulation.run f.lir {} 1000 memory
    some (final.runtimeState.calls.length, final.memory.read a 8)
  | .error _ => none

/-- A cell is stored into the marked scope, and no call is made. -/
theorem unreported_returns : unreported.canCompile.isOk = true ∧
    simulated unreported memoryOfNaN = some (.returned (Value.boxBoolean true)) ∧
    Cell.marked {} memoryOfNaN 0x6000 = true ∧ callsAndWord unreported memoryOfNaN 0x6020 = some (0,
      0x5000) ∧
    Value.isCell 0x5000 = true ∧ (0x5000 : Word) ≠ Value.empty := by
  decide +kernel

end Lowering

end SpecJit
