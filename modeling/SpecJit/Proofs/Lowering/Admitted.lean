import SpecJit.Proofs.ExactFacts
import SpecJit.Proofs.Lowering.Forms
import SpecJit.Proofs.Lowering.MachineInt

/-!
# Operands that a fact admits

Before the code of a node, each operand has a value that the fact about it admits (`Admitted`). A
use reads the operand in some form. Where the value is not of that form, the checks of the use find
out, or the constant does, and the code leaves.
-/

namespace SpecJit

open Lir

/-! ## Words that show a value -/

/-- The word of a value that is boxed as documented. -/
theorem Datum.exists_shows (x : Datum) : ∃ w, x.Shows .jsValue w := by
  cases x with
  | double d => exact ⟨_, .inl rfl⟩
  | _ => exact ⟨_, rfl⟩

theorem Value.isInt52_toInt64 (n : Int32) : isInt52 n.toInt64 = true := by
  have hmin := n.minValue_le_toInt
  have hmax := n.toInt_le
  simp only [isInt52, int52Min, int52Max, Bool.and_eq_true, decide_eq_true_eq, Int32.toInt_toInt64]
  have hleast : Int32.minValue.toInt = -2147483648 := by decide
  have hgreatest : Int32.maxValue.toInt = 2147483647 := by decide
  omega

/-- A value that is an int32 is shown by one word. -/
theorem Datum.shows_isInt32 {x : Datum} {w v : Word} (hw : x.Shows .jsValue w)
    (hint : Value.isInt32 w = true) (hv : x.Shows .jsValue v) : v = w := by
  cases x with
  | double d =>
    rcases hw with rfl | ⟨-, rfl⟩ <;> rw [Value.isInt32_boxDouble] at hint <;> cases hint
  | _ => exact hv.trans hw.symm

/-- What is held as an int32 is a number. -/
theorem Datum.exists_number {x : Datum} {u : Word} (hu : x.Shows .int32 u) :
    ∃ k, u = ofInt32 k ∧ ∃ w, x.Shows .jsValue w ∧
    Value.asNumber? w = some (Double.ofInt k.toInt) := by
  cases x with
  | int32 n => exact ⟨n, hu, _, rfl, Value.asNumber?_boxInt32 n⟩
  | boxed w => exact ⟨_, hu.2, w, rfl, by rw [Value.asNumber?, if_pos hu.1]⟩
  | _ => exact hu.elim

namespace Lowering

variable {σ : Type} {m : Machine σ} {c c' : Config σ} {env : Env} {s s' : State} {id : NodeId}
  {node : Node} {x : Datum} {known : AbstractValue} {e : Edge} {r : Reg} {w : Word} {u : Unit}
  {n : Int32}

/-- The node has the value `x`, which the fact about it admits in whatever word it is shown. -/
structure Admitted (env : Env) (s : State) (c : Config σ) (id : NodeId) (node : Node) (x : Datum)
    (known : AbstractValue) : Prop
    extends Holds env s c id node x where
  fact : s.facts.factOf env.graph id = .ok known
  admits : ∀ w, x.Shows .jsValue w → known.Admits env.layout c.memory w
  exact : known.Exact
  /-- A NaN that cannot be boxed as it is is known of. -/
  purified : ∀ d, x = .double d → Value.isImpureNaN d.bits = true → known.ty.couldBeImpureNaN = true
  range : ∀ n, x = .int52 n ∨ node.op = .int52Constant n → Value.isInt52 n = true

/-! ## Boxed values -/

/-- An operand is boxed to a word that shows its value. -/
theorem Admitted.shows_box (hx : Admitted env s c id node x known) :
    x.Shows .jsValue (x.box known.ty) := by
  cases x with
  | int32 n => exact rfl
  | boolean b => exact rfl
  | boxed w => exact rfl
  | int52 n =>
    have hadmits := hx.admits (Value.boxInt52 n) rfl
    change Datum.box known.ty (.int52 n) = Value.boxInt52 n
    rw [Datum.box]
    split
    · rename_i hty
      -- a fact that says that the integer has 32 bits is right
      have hnumber : Value.isNumber (Value.boxInt52 n) = true :=
        Value.isNumber_of_asNumber? (Value.asNumber?_boxInt52_ofInt n)
      have hint : Value.isInt32 (Value.boxInt52 n) = true := by
        rw [← Bool.not_eq_false]
        intro hint
        have hover := SpecType.overlaps_mono (hadmits.number hnumber) hty (SpecType.subset_refl _)
        rw [Value.int32_overlaps_numberKinds hint] at hover
        cases hover
      rw [Value.isInt32_boxInt52, Value.fitsInt32] at hint
      rw [Value.boxInt52, if_pos hint]
    · rfl
  | double d =>
    change Datum.box known.ty (.double d) = Value.boxDouble d ∨ d.isNaN = true ∧
      Datum.box known.ty (.double d) = Value.boxDouble .pureNaN
    rw [Datum.box, Value.boxDouble, Value.boxDouble]
    split
    · rename_i hnan
      rw [Bool.and_eq_true] at hnan
      exact .inr ⟨hnan.2, rfl⟩
    · rename_i hnan
      refine .inl ?_
      rw [Value.purifyNaN, if_neg]
      intro himpure
      exact hnan (by rw [hx.purified d rfl himpure, Value.isNaN_of_isImpureNaN himpure]; rfl)

/-- Boxing an operand gives a word that shows its value. -/
theorem Admitted.boxedNode_runs (hx : Admitted env s c id node x known) (hc : m.At s.builder c)
    (hbox : m.BoxesInt52 c.memory) :
    ∃ w, x.Shows .jsValue w ∧ ∀ {r s'}, boxedNode id env s = .ok (r, s') →
      s'.builder.Completes m.func →
      m.Runs s.builder c s'.builder fun c' => c'.Has s'.builder r .i64 w := by
  obtain ⟨w, hw, hruns⟩ := Lowering.boxedNode_runs hc hx.toHolds hx.fact hbox
  refine ⟨w, ?_, hruns⟩
  rcases hw with hw | ⟨-, rfl⟩
  · exact hw
  · exact hx.shows_box

/-! ## Integers of 32 bits -/

/-- Node `id` is no int32: it is not held as one, and its fact and its words say so. -/
structure NotInt32 (env : Env) (s : State) (c : Config σ) (id : NodeId) : Prop where
  narrow : heldIn env s id .int32 = none
  boxed : ∀ {r}, heldIn env s id .jsValue = some r → ∃ w, c.Has s.builder r .i64 w ∧
    Value.isInt32 w = false
  constant : ∀ {node n}, env.graph.node id = .ok node → node.op ≠ .jsConstant (.int32 n)
  fact : ∃ known, s.facts.factOf env.graph id = .ok known ∧ known.isType .int32 = false

/-- An operand that is shown by an int32 is that int32. -/
theorem Admitted.holdsInt32 (hx : Admitted env s c id node x known) (hw : x.Shows .jsValue w)
    (hint : Value.isInt32 w = true) :
    HoldsInt32 env s c id (Value.unboxInt32 w) where
  narrow hr := by
    obtain ⟨v, hv, hhas⟩ := hx.shown _ _ hr
    cases x with
    | int32 k =>
      obtain rfl := hw
      obtain rfl := hv
      rwa [Value.unboxInt32_boxInt32]
    | boxed w' =>
      obtain rfl := hw
      obtain ⟨-, rfl⟩ := hv
      exact hhas
    | _ => exact hv.elim
  boxed hr := by
    obtain ⟨v, hv, hhas⟩ := hx.shown _ _ hr
    obtain rfl := Datum.shows_isInt32 hw hint hv
    exact ⟨_, hhas, hint, rfl⟩
  constant {node' k} hnode hop := by
    rw [hx.found] at hnode
    cases hnode
    rw [← Datum.shows_isInt32 hw hint (hx.constant _ (by rw [hop]; rfl))]
    exact (Value.unboxInt32_boxInt32 k).symm

/-- An operand that is not shown by an int32 is none. -/
theorem Admitted.notInt32 (hx : Admitted env s c id node x known)
    (hn : ∀ w, x.Shows .jsValue w → Value.isInt32 w = false) :
    NotInt32 env s c id where
  narrow := by
    refine hx.none_of_not_shows fun v hv => ?_
    cases x with
    | int32 k =>
      have hint := hn _ rfl
      rw [Value.isInt32_boxInt32] at hint
      cases hint
    | boxed w =>
      have hint := hn w rfl
      rw [hv.1] at hint
      cases hint
    | _ => exact hv
  boxed hr := by
    obtain ⟨v, hv, hhas⟩ := hx.shown _ _ hr
    exact ⟨v, hhas, hn v hv⟩
  constant {node' n} hnode hop := by
    rw [hx.found] at hnode
    cases hnode
    have hint := hn _ (hx.constant _ (by rw [hop]; rfl))
    change Value.isInt32 (Value.boxInt32 n) = false at hint
    rw [Value.isInt32_boxInt32] at hint
    cases hint
  fact := by
    refine ⟨known, hx.fact, ?_⟩
    obtain ⟨w, hw⟩ := x.exists_shows
    have hint := hn w hw
    have hadmits := hx.admits w hw
    rw [← Bool.not_eq_true]
    intro hty
    cases hnumber : Value.isNumber w with
    | true =>
      have hover := SpecType.overlaps_mono (hadmits.number hnumber) hty (SpecType.subset_refl _)
      rw [Value.int32_overlaps_numberKinds hint] at hover
      cases hover
    | false =>
      rw [Value.isInt32_of_subset (SpecType.subset_trans (hadmits.other hnumber) hty)] at hint
      cases hint

/-! ## Uses in machine forms

What a use reads is one of the words that show the value of the operand, or the code leaves. -/

/-- The code leaves, or it has put the word into a register, and the lowering is not inside an arm.
-/
def LeavesOrGives (m : Machine σ) (s s' : State) (c : Config σ) (r : Reg) (ty : Ty) (v : Word) :
    Prop :=
  m.Leaves s'.builder c ∨ s'.armDepth = 0 ∧ m.Runs s.builder c s'.builder fun c' =>
    c'.Has s'.builder r ty v

/-- A constant of another kind than is asked for leaves. -/
theorem badConstant_leaves (h : badConstant env s = .ok (r, s')) (hm : s'.builder.Completes m.func)
    (hc : m.At s.builder c) (hvalid : s.facts.valid = true) : m.Leaves s'.builder c := by
  obtain ⟨_, s₁, h₁, h₂⟩ := bind_ok h
  have e₁ : s.builder.Emits [] s₁.builder := Tidy.after h₁ (.refl hc.wf)
  have e₂ : s₁.builder.Emits [] s'.builder := Tidy.after h₂ (.refl e₁.after)
  exact (terminate_leaves h₁ (e₂.toExtends.completes hm) hc hvalid).grow e₂.toExtends

/-- An operand that is read as a boolean is one. -/
theorem Admitted.asBoolean_reads (h : asBoolean e env s = .ok (r, s'))
    (hm : s'.builder.Completes m.func) (hc : m.At s.builder c)
    (hx : Admitted env s c e.node node x known) (hvalid : s.facts.valid = true)
    (hdepth : s.armDepth = 0) :
    m.Leaves s'.builder c ∨ ∃ w, x.Shows .jsValue w ∧ Value.isBoolean w = true ∧
      LeavesOrGives m s s' c r .i32 (ofBool (w == Value.trueWord)) := by
  rw [asBoolean, held?_bind] at h
  cases hbool : heldIn env s e.node .boolean with
  | some r₁ =>
    rw [hbool] at h
    cases h
    obtain ⟨u, hu, hhas⟩ := hx.shown _ _ hbool
    cases x with
    | boolean b =>
      obtain rfl := hu
      refine .inr ⟨Value.boxBoolean b, rfl, by cases b <;> decide, .inr ⟨hdepth, .refl hc ?_⟩⟩
      cases b <;> exact hhas
    | boxed w =>
      obtain ⟨hw, rfl⟩ := hu
      refine .inr ⟨w, rfl, hw, .inr ⟨hdepth, .refl hc ?_⟩⟩
      rcases Value.isBoolean_iff.1 hw with rfl | rfl <;> exact hhas
    | _ => exact hu.elim
  | none =>
  rw [hbool] at h
  obtain ⟨node', hnode, h⟩ := getNode_bind_ok h
  rw [hx.found] at hnode
  cases hnode
  -- a boxed value is checked
  have hboxed (h : (do
      if (← held? e.node .jsValue).isNone then missingForm e .boolean
      let boxed ← boxedNode e.node
      checkBoolean e.node boxed
      let r ← Emit.icmpImm .eq boxed (wordImm Value.trueWord)
      record e.node .boolean r
      return r : Lower Reg) env s = .ok (r, s')) : m.Leaves s'.builder c ∨ ∃ w, x.Shows .jsValue w ∧
        Value.isBoolean w = true ∧
        LeavesOrGives m s s' c r .i32 (ofBool (w == Value.trueWord)) := by
    rw [held?_bind] at h
    cases hj : heldIn env s e.node .jsValue with
    | none => rw [hj] at h; cases h
    | some r₁ =>
      rw [hj] at h
      obtain ⟨w, hw, hr₁⟩ := hx.shown _ _ hj
      replace hr₁ : c.Has s.builder r₁ .i64 w := hr₁
      obtain ⟨r₁', s₁, h₁, h⟩ := bind_ok h
      have h₁' : (r₁', s₁) = (r₁, s) := by
        rw [boxedNode, held?_bind, hj] at h₁
        cases h₁
        rfl
      cases h₁'
      obtain ⟨_, s₂, h₂, h⟩ := bind_ok h
      obtain ⟨r₃, b₃, h₃, h⟩ := emit_bind_ok h
      obtain ⟨_, s₄, h₄, h⟩ := bind_ok h
      cases h
      have e₂ : s.builder.Emits [] s₂.builder := Tidy.after h₂ (.refl hc.wf)
      have e₃ := (inferInstance : (Emit.icmpImm .eq r₁ (wordImm Value.trueWord)).Tidy).emits _ _ _
        e₂.after h₃
      have hb₄ : s'.builder = b₃ := record_builder h₄
      have hm₃ : b₃.Completes m.func := by rw [← hb₄]; exact hm
      have hfailing : Yields m env s.builder c (do negated (← isBoolean r₁)) .i32
        (ofBool !Value.isBoolean w) :=
        .bind (.ofEmit (isBoolean_yields hr₁)) fun _ ht => .ofEmit (negated_yields ht)
      rcases typeCheck_course h₂ (e₃.toExtends.completes hm₃) hc hvalid hdepth hx.fact hfailing with
        ⟨-, hleave⟩ | ⟨hruns, hsame, hfacts⟩
      · rw [hb₄]
        exact .inl (hleave.grow e₃.toExtends)
      have hboolean : Value.isBoolean w = true := by
        rcases hfacts with ⟨hty, -⟩ | ⟨-, hpass, -⟩
        · exact Value.isBoolean_of_subset ((hx.admits w hw).kind hty (by decide))
        · simpa using hpass
      refine .inr ⟨w, hw, hboolean, .inr ⟨?_, ?_⟩⟩
      · exact (readIn_record h₄).depth.trans (hsame.armDepth.trans hdepth)
      · rw [hb₄]
        refine hruns.bind e₂.toExtends e₃.toGrows fun c₂ hc₂ hk₂ _ => ?_
        refine (Emit.icmpImm_yields (hr₁.keep e₂.toExtends hk₂)).congr ?_ (.refl _ _) hc₂ h₃ hm₃
        rw [Ty.normalize_i64, ofInt_wordImm, IntCC.eq_eval]
  cases hop : node.op with
  | jsConstant v =>
    rw [hop] at h
    cases v with
    | boolean b =>
      obtain ⟨b', hb, rfl⟩ := emit_ok h
      refine .inr ⟨Value.boxBoolean b, hx.constant _ (by rw [hop]; rfl),
        by cases b <;> decide, .inr ⟨hdepth, ?_⟩⟩
      cases b <;> exact Emit.int32_yields _ (.refl c _) hc hb hm
    | _ => exact .inl (badConstant_leaves h hm hc hvalid)
  | _ => rw [hop] at h; exact hboxed h

/-- A use as an int32 leaves, if the operand is none or the fact about it rules out int32. -/
theorem asInt32_leaves (h : asInt32 e env s = .ok (r, s')) (hm : s'.builder.Completes m.func)
    (hc : m.At s.builder c)
    (hvalid : s.facts.valid = true) (hdepth : s.armDepth = 0)
    (hnarrow : heldIn env s e.node .int32 = none)
    (hconst : ∀ {node n}, env.graph.node e.node = .ok node → node.op ≠ .jsConstant (.int32 n))
    (hknown : s.facts.factOf env.graph e.node = .ok known) (hty : known.isType .int32 = false)
    (hbad : known.isNotType .int32 = true ∨
      ∀ {r}, heldIn env s e.node .jsValue = some r → ∃ w, c.Has s.builder r .i64 w ∧
      Value.isInt32 w = false) :
    m.Leaves s'.builder c := by
  rw [asInt32, held?_bind, hnarrow] at h
  obtain ⟨node, hnode, h⟩ := getNode_bind_ok h
  have hboxed (h : (do
      if (← held? e.node .jsValue).isNone then missingForm e .int32
      let boxed ← boxedNode e.node
      checkInt32 e.node boxed
      let r ← Emit.truncate boxed
      record e.node .int32 r
      return r : Lower Reg) env s = .ok (r, s')) : m.Leaves s'.builder c := by
    rw [held?_bind] at h
    cases hj : heldIn env s e.node .jsValue with
    | none => rw [hj] at h; cases h
    | some r₁ =>
      rw [hj] at h
      obtain ⟨r₁', s₁, h₁, h⟩ := bind_ok h
      have h₁' : (r₁', s₁) = (r₁, s) := by
        rw [boxedNode, held?_bind, hj] at h₁
        cases h₁
        rfl
      cases h₁'
      obtain ⟨_, s₂, h₂, h⟩ := bind_ok h
      have e₂ : s.builder.Emits [] s₂.builder := Tidy.after h₂ (.refl hc.wf)
      have e₃ : s₂.builder.Emits [] s'.builder := Tidy.after h (.refl e₂.after)
      have hm₂ := e₃.toExtends.completes hm
      rcases hbad with hnot | hword
      · exact (typeCheck_ruledOut h₂ hm₂ hc hvalid hdepth hknown (by simp [hty]) hnot).grow
          e₃.toExtends
      · obtain ⟨w, hr₁, hw⟩ := hword hj
        have hfails : Yields m env s.builder c (Emit.icmpImm .ult r₁ (wordImm Value.numberTag)) .i32
          (ofBool true) :=
          Yields.congr (.ofEmit (notInt32_yields hr₁)) (by rw [hw]; rfl)
        rcases typeCheck_course h₂ hm₂ hc hvalid hdepth hknown hfails with ⟨-, hleave⟩ | ⟨-, -,
          ⟨hsub, -⟩ | ⟨-, hpass, -⟩⟩
        · exact hleave.grow e₃.toExtends
        · rw [hty] at hsub
          cases hsub
        · cases hpass
  cases hop : node.op with
  | jsConstant v =>
    rw [hop] at h
    cases v with
    | int32 n => exact absurd hop (hconst hnode)
    | _ => exact badConstant_leaves h hm hc hvalid
  | doubleConstant | int52Constant => rw [hop] at h; exact badConstant_leaves h hm hc hvalid
  | _ => rw [hop] at h; exact hboxed h

/-- An operand that is read as an int32 is one. -/
theorem Admitted.asInt32_reads (h : asInt32 e env s = .ok (r, s'))
    (hm : s'.builder.Completes m.func) (hc : m.At s.builder c)
    (hx : Admitted env s c e.node node x known) (hvalid : s.facts.valid = true)
    (hdepth : s.armDepth = 0) :
    m.Leaves s'.builder c ∨ ∃ w, x.Shows .jsValue w ∧ Value.isInt32 w = true ∧
      LeavesOrGives m s s' c r .i32 (ofInt32 (Value.unboxInt32 w)) := by
  by_cases hint : ∃ w, x.Shows .jsValue w ∧ Value.isInt32 w = true
  · obtain ⟨w, hw, hint⟩ := hint
    refine (asInt32_course h hm hc (hx.holdsInt32 hw hint) hvalid hdepth).imp And.left
      fun ⟨hread, _, hruns⟩ => ?_
    exact ⟨w, hw, hint, .inr ⟨hread.depth.trans hdepth, hruns⟩⟩
  · have hnot := hx.notInt32 fun w hw => Bool.eq_false_iff.2 fun hw' => hint ⟨w, hw, hw'⟩
    obtain ⟨known', hknown, hty⟩ := hnot.fact
    exact .inl (asInt32_leaves h hm hc hvalid hdepth hnot.narrow hnot.constant hknown hty
      (.inr hnot.boxed))

/-- An operand that is read as an integer of 52 bits is one. -/
theorem Admitted.asStrictInt52_reads (h : asStrictInt52 e env s = .ok (r, s'))
    (hm : s'.builder.Completes m.func) (hc : m.At s.builder c)
    (hx : Admitted env s c e.node node x known) (hdepth : s.armDepth = 0) :
    ∃ n w, x.Shows .jsValue w ∧ Value.isInt52 n = true ∧
      Value.asNumber? w = some (Double.ofInt n.toInt) ∧
      LeavesOrGives m s s' c r .i64 n.toUInt64 := by
  have hdepth' : s'.armDepth = 0 :=
    ((inferInstance : KeepsFacts (asStrictInt52 e)).kept _ _ _ _ h).2.trans hdepth
  rw [asStrictInt52, held?_bind] at h
  cases hs : heldIn env s e.node .strictInt52 with
  | some r₁ =>
    rw [hs] at h
    cases h
    obtain ⟨u, hu, hhas⟩ := hx.shown _ _ hs
    cases x with
    | int52 n =>
      obtain rfl := hu
      exact ⟨n, _, rfl, hx.range n (.inl rfl), Value.asNumber?_boxInt52_ofInt n,
        .inr ⟨hdepth', .refl hc hhas⟩⟩
    | _ => exact hu.elim
  | none =>
  rw [hs] at h
  dsimp only at h
  rw [held?_bind] at h
  cases hi : heldIn env s e.node .int52 with
  | some r₁ =>
    rw [hi] at h
    obtain ⟨u, hu, hhas⟩ := hx.shown _ _ hi
    obtain ⟨r₂, b₂, h₂, h⟩ := emit_bind_ok h
    obtain ⟨_, s₃, h₃, h⟩ := bind_ok h
    cases h
    rw [record_builder h₃] at hm
    cases x with
    | int52 n =>
      refine ⟨n, _, rfl, hx.range n (.inl rfl), Value.asNumber?_boxInt52_ofInt n,
        .inr ⟨hdepth', ?_⟩⟩
      rw [record_builder h₃]
      obtain rfl := hu
      exact (Emit.binaryImm_yields hhas).congr rfl (.refl c _) hc h₂ hm
    | _ => exact hu.elim
  | none =>
  rw [hi] at h
  obtain ⟨node', hnode, h⟩ := getNode_bind_ok h
  rw [hx.found] at hnode
  cases hnode
  -- an int32 is extended
  have hnarrow {k : Int32} {w : Word} {y : Emit Reg} (hw : x.Shows .jsValue w)
      (hnumber : Value.asNumber? w = some (Double.ofInt k.toInt))
        (hy : y.Yields m s.builder c .i64 k.toInt64.toUInt64)
      (h : (liftM y : Lower Reg) env s = .ok (r, s')) : ∃ n w, x.Shows .jsValue w ∧
        Value.isInt52 n = true ∧
        Value.asNumber? w = some (Double.ofInt n.toInt) ∧ LeavesOrGives m s s' c r .i64
          n.toUInt64 := by
    obtain ⟨b', hb, rfl⟩ := emit_ok h
    refine ⟨k.toInt64, w, hw, Value.isInt52_toInt64 k,
      by rw [hnumber, Int32.toInt_toInt64], .inr ⟨hdepth', ?_⟩⟩
    exact hy (.refl c _) hc hb hm
  have hheld {take : Option Reg → Lower Reg} (hnone : take none = missingForm e .strictInt52)
      (hsome : ∀ narrow, take (some narrow) = Emit.signExtend narrow)
        (h : (held? e.node .int32 >>= take) env s = .ok (r, s')) :
      ∃ n w, x.Shows .jsValue w ∧ Value.isInt52 n = true ∧
        Value.asNumber? w = some (Double.ofInt n.toInt) ∧
        LeavesOrGives m s s' c r .i64 n.toUInt64 := by
    rw [held?_bind] at h
    cases hj : heldIn env s e.node .int32 with
    | none => rw [hj, hnone] at h; cases h
    | some r₁ =>
      rw [hj, hsome] at h
      obtain ⟨u, hu, hhas⟩ := hx.shown _ _ hj
      obtain ⟨k, rfl, w, hw, hnumber⟩ := Datum.exists_number hu
      exact hnarrow hw hnumber ((Emit.signExtend_yields hhas).congr (by simp [extend])) h
  cases hop : node.op with
  | int52Constant k =>
    rw [hop] at h
    obtain ⟨b', hb, rfl⟩ := emit_ok h
    refine ⟨k, Value.boxInt52 k, hx.constant _ (by rw [hop]; rfl), hx.range k (.inr hop),
      Value.asNumber?_boxInt52_ofInt k,
      .inr ⟨hdepth', ?_⟩⟩
    exact (Emit.iconst_yields _).congr (by simp) (.refl c _) hc hb hm
  | jsConstant v =>
    rw [hop] at h
    cases v with
    | int32 k =>
      exact hnarrow (hx.constant _ (by rw [hop]; rfl)) (Value.asNumber?_boxInt32 k)
        ((Emit.iconst_yields _).congr (by simp)) h
    | _ => exact hheld rfl (fun _ => rfl) h
  | _ => rw [hop] at h; exact hheld rfl (fun _ => rfl) h

/-- An operand that is taken as a double is that number. -/
theorem Admitted.doubleOf_reads (h : doubleOf e env s = .ok (r, s'))
    (hm : s'.builder.Completes m.func) (hc : m.At s.builder c)
    (hx : Admitted env s c e.node node x known) : SameButCode s s' ∧ ∃ d w d', x.Shows .jsValue w ∧
      Value.asNumber? w = some d' ∧ d'.Same d ∧ m.Runs s.builder c s'.builder fun c' =>
        c'.Has s'.builder r .f64 d.bits := by
  rw [doubleOf, held?_bind] at h
  cases hd : heldIn env s e.node .double with
  | some r₁ =>
    rw [hd] at h
    cases h
    obtain ⟨u, hu, hhas⟩ := hx.shown _ _ hd
    cases x with
    | double d =>
      obtain rfl := hu
      exact ⟨.refl s, d, _, _, .inl rfl, Value.asNumber?_boxDouble d, Value.purifyNaN_same d,
        .refl hc hhas⟩
    | _ => exact hu.elim
  | none =>
  rw [hd] at h
  obtain ⟨node', hnode, h⟩ := getNode_bind_ok h
  rw [hx.found] at hnode
  cases hnode
  -- the code for the number
  have hemit {d d' : Double} {w : Word} {y : Emit Reg} (hw : x.Shows .jsValue w)
    (hnumber : Value.asNumber? w = some d')
      (hsame : d'.Same d) (hy : y.Yields m s.builder c .f64 d.bits)
        (h : (liftM y : Lower Reg) env s = .ok (r, s')) :
      SameButCode s s' ∧ ∃ d w d', x.Shows .jsValue w ∧ Value.asNumber? w = some d' ∧ d'.Same d ∧
        m.Runs s.builder c s'.builder fun c' => c'.Has s'.builder r .f64 d.bits := by
    obtain ⟨b', hb, rfl⟩ := emit_ok h
    exact ⟨⟨rfl, rfl, rfl, rfl, rfl, rfl, rfl, rfl⟩, d, w, d', hw, hnumber, hsame,
      hy (.refl c _) hc hb hm⟩
  have hheld {take : Option Reg → Lower Reg} (hnone : take none = missingForm e .double)
      (hsome : ∀ narrow, take (some narrow) = Emit.intToDouble true narrow)
        (h : (held? e.node .int32 >>= take) env s = .ok (r, s')) :
      SameButCode s s' ∧ ∃ d w d', x.Shows .jsValue w ∧ Value.asNumber? w = some d' ∧ d'.Same d ∧
        m.Runs s.builder c s'.builder fun c' => c'.Has s'.builder r .f64 d.bits := by
    rw [held?_bind] at h
    cases hj : heldIn env s e.node .int32 with
    | none => rw [hj, hnone] at h; cases h
    | some r₁ =>
      rw [hj, hsome] at h
      obtain ⟨u, hu, hhas⟩ := hx.shown _ _ hj
      obtain ⟨k, rfl, w, hw, hnumber⟩ := Datum.exists_number hu
      replace hhas : c.Has s.builder r₁ .i32 (ofInt32 k) := hhas
      exact hemit hw hnumber (.refl _) ((Emit.intToDouble_yields hhas).congr
        (by simp [Lir.intToDouble])) h
  cases hop : node.op with
  | doubleConstant d =>
    rw [hop] at h
    exact hemit (hx.constant _ (by rw [hop]; rfl)) (Value.asNumber?_boxNumber d)
      (Value.purifyNaN_same d) (Emit.fconst_yields d) h
  | int52Constant n =>
    rw [hop] at h
    exact hemit (hx.constant _ (by rw [hop]; rfl)) (Value.asNumber?_boxInt52_ofInt n) (.refl _)
      (Emit.fconst_yields _) h
  | jsConstant v =>
    rw [hop] at h
    have hw : x.Shows .jsValue (Value.ofFrozen v) := hx.constant _ (by rw [hop]; rfl)
    cases v with
    | int32 n => exact hemit hw (Value.asNumber?_boxInt32 n) (.refl _) (Emit.fconst_yields _) h
    | double d =>
      exact hemit hw (Value.asNumber?_boxDouble d) (Value.purifyNaN_same d) (Emit.fconst_yields _) h
    | _ => cases h
  | _ => rw [hop] at h; exact hheld rfl (fun _ => rfl) h

/-- An operand that is read as a double leaves, or is that number. -/
theorem Admitted.asDouble_reads (h : asDouble e env s = .ok (r, s'))
    (hm : s'.builder.Completes m.func) (hc : m.At s.builder c)
    (hx : Admitted env s c e.node node x known) (hvalid : s.facts.valid = true)
    (hdepth : s.armDepth = 0) :
    m.Leaves s'.builder c ∨ ∃ d w d', x.Shows .jsValue w ∧ Value.asNumber? w = some d' ∧ d'.Same d ∧
      LeavesOrGives m s s' c r .f64 d.bits := by
  obtain ⟨r₁, s₁, h₁, h⟩ := bind_ok h
  have e₁ : s.builder.Emits [] s₁.builder := Tidy.after h₁ (.refl hc.wf)
  -- a check leaves or goes on
  have hchecked {mask : SpecType} {y : Lower Reg} [Tidy y] [Quiet y] {t : Double → Bool}
      (hy : ∀ {b c d}, c.Has b r₁ .f64 d.bits → Yields m env b c y .i32 (ofBool (t d)))
      (h : (typeCheck e.node mask .badType none y >>= fun _ => pure r₁) env s₁ = .ok (r, s')) :
        m.Leaves s'.builder c ∨
        ∃ d w d', x.Shows .jsValue w ∧ Value.asNumber? w = some d' ∧ d'.Same d ∧
        LeavesOrGives m s s' c r .f64 d.bits := by
    obtain ⟨_, s₂, h₂, h⟩ := bind_ok h
    cases h
    have e₂ : s₁.builder.Emits [] s'.builder := Tidy.after h₂ (.refl e₁.after)
    obtain ⟨hsame₁, d, w, d', hw, hnumber, hsame, hruns₁⟩ :=
      hx.doubleOf_reads h₁ (e₂.toExtends.completes hm) hc
    obtain ⟨c₁, hgoes, hc₁, hk, hr⟩ := hruns₁
    have hruns₁ : m.Runs s.builder c s₁.builder (· = c₁) := ⟨c₁, hgoes, hc₁, hk, rfl⟩
    rcases typeCheck_course h₂ hm hc₁ (by rw [hsame₁.facts]; exact hvalid)
      (hsame₁.armDepth.trans hdepth)
      (by rw [hsame₁.facts]; exact hx.fact) (hy hr) with ⟨-, hleave⟩ | ⟨hruns₂, hsame₂, -⟩
    · exact .inl (hruns₁.leaves e₂.toExtends fun _ _ _ hc' => hc' ▸ hleave)
    · refine .inr ⟨d, w, d', hw, hnumber, hsame,
        .inr ⟨hsame₂.armDepth.trans (hsame₁.armDepth.trans hdepth), ?_⟩⟩
      refine hruns₁.bind e₁.toExtends e₂.toGrows fun c' _ _ hc' => ?_
      subst hc'
      exact hruns₂.mono fun c₂ hk₂ _ => hr.keep e₂.toExtends hk₂
  have hplain (h : (pure r₁ : Lower Reg) env s₁ = .ok (r, s')) : m.Leaves s'.builder c ∨
      ∃ d w d', x.Shows .jsValue w ∧ Value.asNumber? w = some d' ∧ d'.Same d ∧
      LeavesOrGives m s s' c r .f64 d.bits := by
    cases h
    obtain ⟨hsame₁, d, w, d', hw, hnumber, hsame, hruns⟩ := hx.doubleOf_reads h₁ hm hc
    exact .inr ⟨d, w, d', hw, hnumber, hsame, .inr ⟨hsame₁.armDepth.trans hdepth, hruns⟩⟩
  cases hu : e.useKind with
  | doubleRepReal =>
    rw [hu] at h
    exact hchecked (t := fun d => FloatCC.unordered.eval d d)
      (fun hr => .ofEmit (Emit.fcmp_yields hr hr)) h
  | doubleRepMachineInt =>
    rw [hu] at h
    exact hchecked (fun hr => .ofEmit (isNotInt52_yields hr)) h
  | _ => rw [hu] at h; exact hplain h

/-- The word of an operand that is used boxed, before its use is checked. -/
theorem Admitted.asValue_reads (h : asValue e env s = .ok (r, s'))
    (hm : s'.builder.Completes m.func) (hc : m.At s.builder c)
    (hx : Admitted env s c e.node node x known) (hbox : m.BoxesInt52 c.memory) :
    ∃ w s₁ c₁, x.Shows .jsValue w ∧ s₁.facts = s.facts ∧ s₁.armDepth = s.armDepth ∧
      s.builder.Emits [] s₁.builder ∧
      s₁.builder.Emits [] s'.builder ∧ m.Runs s.builder c s₁.builder (· = c₁) ∧ m.At s₁.builder c₁ ∧
      c.Follows s.builder c₁ s₁.builder ∧ c₁.Has s₁.builder r .i64 w ∧
      checkUse e r env s₁ = .ok ((), s') := by
  obtain ⟨r₁, s₁, h₁, h⟩ := bind_ok h
  obtain ⟨_, s₂, h₂, h⟩ := bind_ok h
  cases h
  have e₁ : s.builder.Emits [] s₁.builder := Tidy.after h₁ (.refl hc.wf)
  have e₂ : s₁.builder.Emits [] s'.builder := Tidy.after h₂ (.refl e₁.after)
  obtain ⟨hfacts, hdepth⟩ := (inferInstance : KeepsFacts (boxedNode e.node)).kept _ _ _ _ h₁
  obtain ⟨w, hw, hruns⟩ := hx.boxedNode_runs hc hbox
  obtain ⟨c₁, hgoes, hc₁, hk, hr⟩ := hruns h₁ (e₂.toExtends.completes hm)
  exact ⟨w, s₁, c₁, hw, hfacts, hdepth, e₁, e₂, ⟨c₁, hgoes, hc₁, hk, rfl⟩, hc₁, ⟨e₁.toExtends, hk⟩,
    hr, h₂⟩

end Lowering

end SpecJit
