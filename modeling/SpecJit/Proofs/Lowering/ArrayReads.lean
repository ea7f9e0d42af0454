import SpecJit.Proofs.Lowering.Butterflies
import SpecJit.Proofs.Lowering.DeadEnds

/-!
# Elements of ordinary arrays

A load of an element leaves, or gives the element, or what stands for one that is missing. What
happens is decided by the length, the element and the speculation of the node
(`getElement_performs`). A double is boxed as it is: a NaN that the program made up wraps around,
and a load that does not look for holes turns it into another value.
-/

namespace SpecJit

open Lir

namespace Butterfly

/-- The addresses that a load of an element may read: the butterfly, the length, and the element if
it is in bounds. -/
def readSet (layout : ObjectLayout) (memory : Memory) (cell butterfly : Word) (index : UInt32) :
    Set Word :=
  { a | a = fieldAddress layout cell ∨ a = lengthAddress layout butterfly ∨
    index < length layout memory butterfly ∧ a = slot butterfly index }

/-- The value that an element is. -/
def value (double : Bool) (w : Word) : Word := if double then Value.boxDouble ⟨w⟩ else w

/-- An element is boxed to its value unless it is a NaN that wraps around. -/
theorem boxed_eq_value_iff {double : Bool} {w : Word} :
    boxed double w = value double w ↔ ¬ (double = true ∧ Value.isImpureNaN w = true) := by
  cases double with
  | false => simp [boxed, value]
  | true =>
    change w + Value.doubleOffset = (Value.purifyNaN ⟨w⟩).bits + Value.doubleOffset ↔ _
    rw [UInt64.add_left_inj, Value.purifyNaN]
    cases himpure : Value.isImpureNaN w with
    | false => simp
    | true =>
      simp only [if_true, and_self, not_true, iff_false]
      rintro rfl
      exact absurd himpure (by decide)

/-- No hole wraps around. -/
theorem boxed_of_not_isHole {double : Bool} {w : Word} (h : isHole double w = false) :
    boxed double w = value double w := by
  refine boxed_eq_value_iff.2 fun ⟨hdouble, himpure⟩ => ?_
  subst hdouble
  change (Double.mk w).isNaN = false at h
  rw [Value.isNaN_of_isImpureNaN himpure] at h
  cases h

end Butterfly

namespace Lowering

section

variable {σ : Type} {m : Machine σ} {L : Set Word} {c : Config σ} {env : Env} {s s' : State}
  {id : NodeId} {node : Node} {mode : ArrayMode} {base at_ : Edge} {rest : List Edge}
  {value index : Reg} {cell v w : Word} {n : Int32} {u : Unit}

/-- What stands for a missing element. -/
def Missed (m : Machine σ) (speculation : ArraySpeculation) (cell : Word) (n : Int32)
    (memory : Memory) (w : Word) (memory' : Memory) :
    Prop :=
  if speculation = .saneChain then w = Value.undefined ∧ memory' = memory
  else Answers m .getByValGeneric [cell, Value.boxInt32 n] memory w memory'

theorem missedElement_acts {b : Builder} {c : Config σ} {speculation : ArraySpeculation}
    {base : Reg} (hbase : c.Has b base .i64 cell) (hindex : c.Has b index .i32 (ofInt32 n)) :
    Acts m L env b c (missedElement speculation base index)
      (InRegister .i64 (Missed m speculation cell n c.memory)) := by
  unfold missedElement Missed
  split
  · exact YieldsIn.inRegister (.ofEmit (Emit.word_yieldsIn _)) ⟨rfl, rfl⟩
  · refine YieldsIn.andThen (.ofEmit (boxInt32_yieldsIn hindex)) fun hf hboxed => ?_
    rw [low32_ofInt32] at hboxed
    rw [← hf.memory]
    exact callHelper_acts (.cons ⟨_, hbase.later hf⟩ (.cons ⟨_, hboxed⟩ .nil))

/-- What the code that loads an element does. -/
def getOutcome (m : Machine σ) (id : NodeId) (mode : ArrayMode) (layout : ObjectLayout)
    (memory : Memory) (cell butterfly : Word) (n : Int32) :
    Except ExitKind (Unit → State → Config σ → Prop) :=
  let double := mode.arrayType == .double
  let element := Butterfly.element memory butterfly n.toUInt32
  let out := Butterfly.length layout memory butterfly ≤ n.toUInt32
  if mode.speculation = .inBounds then
    if out then .error .outOfBounds
    else if !mode.dense && Butterfly.isHole double element then .error .loadFromHole
    else .ok (HeldWord id .jsValue memory (Butterfly.boxed double element))
  else .ok (HeldAs id .jsValue fun w memory' =>
    if out ∨ Butterfly.isHole double element then Missed m mode.speculation cell n memory w memory'
    else w = Butterfly.boxed double element ∧ memory' = memory)

/-- An element that is there is boxed. -/
theorem boxed_yieldsIn {b : Builder} {c : Config σ} {double : Bool}
    (h : c.Has b value (Butterfly.type double) w) :
    YieldsIn m L env b c (if double then liftM (boxDouble value false) else pure value : Lower Reg)
      .i64 (Butterfly.boxed double w) := by
  cases double with
  | true => exact .ofEmit (boxDouble_yieldsIn h)
  | false => exact .pure fun hf => ⟨w, h.later hf, rfl, hf.memory⟩

/-- An element in bounds: a hole leaves, if the code looks for it. -/
theorem proceeds_loadElement {double dense : Bool} {butterfly : Reg}
    (hnode : env.graph.node id = .ok node) (hresult : node.result = .jsValue)
    (hdepth : s.armDepth = 0) (hb : c.Has s.builder butterfly .i64 v)
    (hindex : c.Has s.builder index .i32 (ofInt32 n)) (hl : Butterfly.slot v n.toUInt32 ∈ L) :
    Proceeds m L env s c (do
        let value ← loadElement butterfly index double
        if !dense then speculate .loadFromHole none (← isHole value double)
        setElement id value (if double then .double else .boxed))
      (if !dense && Butterfly.isHole double (Butterfly.element c.memory v n.toUInt32) then .error
        .loadFromHole
        else .ok (HeldWord id .jsValue c.memory
          (Butterfly.boxed double (Butterfly.element c.memory v n.toUInt32)))) := by
  refine .value (.ofEmit (loadElement_yieldsIn hb hindex hl)) fun hsame hf hvalue => ?_
  have hset {s' : State} {c' : Config σ} (hsame' : SameButCode s s')
    (hf' : c.Follows s.builder c' s'.builder) {value : Reg}
      (hvalue : c'.Has s'.builder value (Butterfly.type double)
        (Butterfly.element c.memory v n.toUInt32)) :
      Proceeds m L env s' c' (setElement id value (if double then .double else .boxed))
        (.ok
          (HeldWord id .jsValue c.memory
            (Butterfly.boxed double (Butterfly.element c.memory v n.toUInt32)))) := by
    have hform : node.result.form? = some .jsValue := by rw [hresult]; rfl
    cases double with
    | true =>
      exact proceeds_setElement hnode hform rfl (hsame'.armDepth.trans hdepth) hvalue hf'.memory rfl
    | false =>
      exact proceeds_setElement hnode hform rfl (hsame'.armDepth.trans hdepth) hvalue hf'.memory rfl
  cases dense with
  | true => exact hset hsame hf hvalue
  | false =>
    refine .value (.ofEmit (isHole_yieldsIn hvalue)) fun hsame₂ hf₂ ht => ?_
    exact .guard ht fun _ {_ _} hsame₃ hf₃ =>
      hset ((hsame.trans hsame₂).trans hsame₃) (hf.trans (hf₂.trans hf₃))
        (hvalue.later (hf₂.trans hf₃))

/-- An element if it is there, and otherwise what stands for it. -/
theorem elementOrMissed_acts {b : Builder} {c : Config σ} {speculation : ArraySpeculation}
    {double : Bool} {base butterfly inBounds : Reg} {k : UInt32} (hbase : c.Has b base .i64 cell)
    (hb : c.Has b butterfly .i64 v) (hindex : c.Has b index .i32 (ofInt32 n))
    (hcond : c.Has b inBounds .i32 (ofBool (decide (n.toUInt32 < k))))
    (hl : n.toUInt32 < k → Butterfly.slot v n.toUInt32 ∈ L) :
    Acts m L env b c (diamond .i64 inBounds .normal
      (do
        let value ← loadElement butterfly index double
        let hole ← isHole value double
        diamond .i64 hole .takenRare (missedElement speculation base index)
          (if double then boxDouble value false else pure value))
      (missedElement speculation base index))
      (InRegister .i64 fun w memory' =>
        if k ≤ n.toUInt32 ∨ Butterfly.isHole double (Butterfly.element c.memory v n.toUInt32) then
          Missed m speculation cell n c.memory w memory'
        else w = Butterfly.boxed double (Butterfly.element c.memory v n.toUInt32) ∧
          memory' = c.memory) := by
  refine diamond_acts hcond (fun hin => ?_) fun hout => ?_
  · have hlt : n.toUInt32 < k := by
      by_contra hge
      rw [decide_eq_false hge] at hin
      exact hin rfl
    refine YieldsIn.andThen (.ofEmit (loadElement_yieldsIn hb hindex (hl hlt))) fun hf hvalue => ?_
    refine YieldsIn.andThen (.ofEmit (isHole_yieldsIn hvalue)) fun hf₂ hhole => ?_
    have hf' := hf.trans hf₂
    have hnotOut : ¬ k ≤ n.toUInt32 := UInt32.not_le.2 hlt
    rw [← hf'.memory] at hhole ⊢
    refine diamond_acts hhole (fun hh => ?_) fun hh => ?_
    · simp only [ofBool_ne_zero.1 hh, or_true, if_true]
      exact missedElement_acts (hbase.later hf') (hindex.later hf')
    · simp only [hnotOut, ofBool_eq_zero.1 hh, false_or, if_false, Bool.false_eq_true]
      have hvalue' := hvalue.later hf₂
      rw [← hf'.memory] at hvalue'
      exact (boxed_yieldsIn hvalue').inRegister ⟨rfl, rfl⟩
  · have hge : k ≤ n.toUInt32 := by
      by_contra hlt
      rw [decide_eq_true (UInt32.not_le.1 hlt)] at hout
      cases hout
    simp only [hge, true_or, if_true]
    exact missedElement_acts hbase hindex

set_option synthInstance.maxSize 4000 in
/-- The code that loads an element of an ordinary array, and what it reads when its uses are there.
-/
theorem getElement_performs (hx : Entered m env id node base cell s s' c)
    (hop : node.op = .getByVal mode)
    (hmode : mode.arrayType = .int32 ∨ mode.arrayType = .contiguous ∨ mode.arrayType = .double)
    (hresult : node.result = .jsValue) (hchildren : node.children = base :: at_ :: rest)
    (hindex : IsInt32 env s c at_.node n) (hb : IsButterfly env s c cell rest.head? v) :
    Performs m (Butterfly.readSet env.layout c.memory cell v n.toUInt32) s s' c
      (getOutcome m id mode env.layout c.memory cell v n) := by
  have hlower : lowerOp id node = lowerGetButterflyElement id node mode := by
    unfold lowerOp
    rw [hop]
    change lowerGetByVal id node mode = _
    unfold lowerGetByVal
    rcases hmode with hmode | hmode | hmode <;> rw [hmode]
  have hm := hx.completes
  have h := hx.lowered
  rw [hlower, lowerGetButterflyElement] at h
  dsimp only at h
  obtain ⟨base', hbase, h⟩ := check_bind_ok h
  obtain rfl : base = base' := by simpa [Node.child, hchildren, Fault.ofOption] using hbase
  refine performs_asCell h hm hx.stands hx.cell hx.valid hx.depth
    fun {r₁ s₁ c₁} h hreads₁ _ _ hr₁ => ?_
  obtain ⟨at', hat, h⟩ := check_bind_ok h
  obtain rfl : at_ = at' := by simpa [Node.child, hchildren, Fault.ofOption] using hat
  refine performs_asInt32 h hm hreads₁.stands (hreads₁.int32 hindex) hreads₁.valid hreads₁.depth
    fun {r₂ s₂ c₂} h hreads₂ hr₂ => ?_
  have hmem : c₂.memory = c.memory := (hreads₁.follows.trans hreads₂.follows).memory
  have hb₂ := (hb.later hreads₁.follows hreads₁.storage).later hreads₂.follows hreads₂.storage
  have hcell₂ := hr₁.later hreads₂.follows
  have hstorage : node.children[2]? = rest.head? := by
    rw [hchildren]
    cases rest <;> rfl
  rw [hstorage] at h
  refine Proceeds.performs ?_ hreads₂.stands h hm (Tidy.after h (.refl hreads₂.stands.wf))
  rw [← hmem]
  refine .ofButterfly hb₂ hcell₂ (.inl rfl) fun {r₃ s₃ c₃} hsame₃ hf₃ hr₃ => ?_
  refine .value (loadPublicLength_yieldsIn hr₃ (.inr (.inl rfl))) fun {r₄ s₄ c₄} hsame₄ hf₄ hr₄ =>
    ?_
  rw [hf₃.memory] at hr₄
  have hbutterfly := hr₃.later hf₄
  have hf₄ := hf₃.trans hf₄
  unfold getOutcome
  dsimp only
  have hin (hlt : n.toUInt32 < Butterfly.length env.layout c₂.memory v) :
      Butterfly.slot v n.toUInt32 ∈ Butterfly.readSet env.layout c₂.memory cell v n.toUInt32 :=
        .inr (.inr ⟨hlt, rfl⟩)
  generalize Butterfly.readSet env.layout c₂.memory cell v n.toUInt32 = L at hin ⊢
  have hdepth₄ := (hsame₃.trans hsame₄).armDepth.trans hreads₂.depth
  by_cases hmodeIn : mode.speculation = .inBounds
  · rw [if_pos hmodeIn, if_pos hmodeIn]
    refine .checkInBounds (hr₂.later hf₄) hr₄ fun hlt {s₅ c₅} hsame₅ hf₅ => ?_
    rw [← (hf₄.trans hf₅).memory]
    exact proceeds_loadElement hx.found hresult (hsame₅.armDepth.trans hdepth₄)
      (hbutterfly.later hf₅)
      (hr₂.later (hf₄.trans hf₅)) (hin hlt)
  · rw [if_neg hmodeIn, if_neg hmodeIn]
    refine .value (.ofEmit (inBounds_yieldsIn (hr₂.later hf₄) hr₄))
      fun {r₅ s₅ c₅} hsame₅ hf₅ hcond => ?_
    have hf₅' := hf₄.trans hf₅
    refine .act (elementOrMissed_acts (hcell₂.later hf₅') (hbutterfly.later hf₅) (hr₂.later hf₅')
      hcond hin)
      fun hsame₆ _ _ hvalue => proceeds_setBoxed hx.found hresult
        ((hsame₅.trans hsame₆).armDepth.trans hdepth₄) ?_
    rw [hf₅'.memory] at hvalue
    exact hvalue

end

/-! ## A NaN in a dense array

An array of doubles can hold the bits of any NaN, also those that wrap around to the address of the
array. -/

/-- Returns the first element of an array of doubles without holes. -/
def firstDouble : Graph where
  name := "firstDouble"
  nodes := #[
    { op := .getStack { operand := .arg 1, slot := .arg 1, format := .jsValue },
      result := .jsValue },
    { op := .jsConstant (.int32 0), result := .jsValue },
    { op := .getByVal { arrayType := .double, dense := true, speculation := .inBounds },
      result := .jsValue
      children := [{ node := ⟨0⟩, useKind := .cell }, { node := ⟨1⟩, useKind := .int32 }] },
    { op := .ret, children := [{ node := ⟨2⟩ }] }]
  blocks := #[{ index := ⟨0⟩, nodes := #[⟨0⟩, ⟨1⟩, ⟨2⟩, ⟨3⟩] }]
  numArguments := 2
  numLocals := 0

/-- An array of one double, whose butterfly is at `0x6000`. -/
def memoryOfDouble (bits : Word) : Memory :=
  (((Simulation.FrameValues.memory { arguments := [0x5000] }).write 0x5008 8 0x6000).write 0x5ff8 4
    1).write 0x6000 8 bits

namespace OneDouble

open TwoArguments

def arrayMode : ArrayMode := { arrayType := .double, speculation := .inBounds }

def get : Node where
  op := .getByVal arrayMode
  result := .jsValue
  children := [{ node := ⟨0⟩, useKind := .cell }, { node := ⟨1⟩, useKind := .int32 }]

/-- The array holds 1.5. -/
def memory : Memory :=
  ((({} : Memory).write 0x5008 8 0x6000).write 0x5ff8 4 1).write 0x6000 8 0x3ff8000000000000

/-- Where the load is entered: the array and 0 are the arguments. -/
def start (f : Function) : Config Unit := { config f 0x5000 (Value.boxInt32 0) with memory }

theorem entered {s' : State}
    (h : lowerOp ⟨2⟩ get (env (graph get .jsValue .jsValue)) (before (graph get .jsValue .jsValue)
      .jsValue) = .ok ((), s'))
    (hsize : 3 < s'.builder.func.types.size) :
    Entered (Machine.plain s'.builder.func) (env (graph get .jsValue .jsValue)) ⟨2⟩ get
      { node := ⟨0⟩, useKind := .cell } 0x5000
      (before (graph get .jsValue .jsValue) .jsValue) s' (start s'.builder.func) :=
  TwoArguments.entered h hsize (by decide) (by decide) ⟨_, rfl, by decide, by decide, nofun⟩

end OneDouble

end Lowering

end SpecJit
