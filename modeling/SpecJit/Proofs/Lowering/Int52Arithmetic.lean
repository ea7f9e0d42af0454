import SpecJit.Proofs.CheckedArithmetic
import SpecJit.Proofs.Lowering.Arithmetic

/-!
# Arithmetic on integers of 52 bits

Integers of 52 bits are kept shifted left by 12, and a product takes one factor shifted and the
other one as it is. So the code computes the exact result shifted, and checks for overflows of the
machine word; `lowerArith_computes` says that it comes to what checks for 52 bits on the exact
result would come to, and `int52_arithmetic_exact` when it leaves, and by which exit.
-/

namespace SpecJit.Lowering

open Lir

/-! ## Uses -/

section Uses

variable {σ : Type} {m : Machine σ} {env : Env} {s s' : State} {id : NodeId} {node : Node}
  {e : Edge} {op : ArithOp} {mode : ArithMode} {r : Reg}

theorem ne_of_asStrictInt52 (h : asStrictInt52 e env s = .ok (r, s')) (hready : Ready s id)
    (hnode : env.graph.node id = .ok node) (hop : node.op = .arith op mode) : id ≠ e.node := by
  rintro rfl
  rw [asStrictInt52, held?_bind, hready.heldIn] at h
  dsimp only at h
  rw [held?_bind, hready.heldIn] at h
  obtain ⟨node', hnode', h⟩ := getNode_bind_ok h
  rw [hnode] at hnode'
  cases hnode'
  rw [hop] at h
  dsimp only at h
  rw [held?_bind, hready.heldIn] at h
  cases h

theorem ne_of_asInt52 (h : asInt52 e env s = .ok (r, s')) (hready : Ready s id)
    (hnode : env.graph.node id = .ok node) (hop : node.op = .arith op mode) : id ≠ e.node := by
  rintro rfl
  rw [asInt52, held?_bind, hready.heldIn] at h
  obtain ⟨strict, s₁, h₁, -⟩ := bind_ok h
  exact ne_of_asStrictInt52 h₁ hready hnode hop rfl

theorem asStrictInt52_readsAs (hnode : env.graph.node id = .ok node)
    (hop : node.op = .arith op mode) :
    ReadsAs m env id asStrictInt52 (IsInt52 env) .i64 Int64.toUInt64 := by
  intro e r s s' c n h hm hc hn hready
  obtain ⟨hread, hruns⟩ := asStrictInt52_reads h hm hc hn
  have hfacts : s'.facts = s.facts := (KeepsFacts.kept _ _ _ _ h).1
  exact ⟨hready.read hread (ne_of_asStrictInt52 h hready hnode hop)
    (by rw [hfacts]; exact hready.valid), hread.block, hruns⟩

theorem asInt52_readsAs (hnode : env.graph.node id = .ok node) (hop : node.op = .arith op mode) :
    ReadsAs m env id asInt52 (IsInt52 env) .i64 Value.shiftInt52 := by
  intro e r s s' c n h hm hc hn hready
  obtain ⟨hread, hruns⟩ := asInt52_reads h hm hc hn
  have hfacts : s'.facts = s.facts := (KeepsFacts.kept _ _ _ _ h).1
  exact ⟨hready.read hread (ne_of_asInt52 h hready hnode hop) (by rw [hfacts]; exact hready.valid),
    hread.block, hruns⟩

end Uses

/-! ## Code -/

section Code

variable {σ : Type} {m : Machine σ} {env : Env} {b : Builder} {s s' : State} {c : Config σ}
  {id : NodeId} {node : Node} {op : ArithOp} {mode : ArithMode} {lhs rhs : Reg} {v w : Word}
  {x y : Int64} {u : Unit}

theorem eitherNegative_int64 (hl : c.Has b lhs .i64 v) (hr : c.Has b rhs .i64 w) :
    (eitherNegative lhs rhs).Yields m b c .i32
      (ofBool (decide (v.toInt64.toInt < 0 ∨ w.toInt64.toInt < 0))) := by
  refine (Emit.binary_yields hl hr).bind fun _ hor => (Emit.negative_int64 hor).congr ?_
  simp only [Ty.normalize_i64, BinaryOp.eval, binary64, ← Int64.toInt_toBitVec,
    Int64.toInt64_toUInt64, Int64.toBitVec_or, toInt_or_neg_iff]

/-- Sums and differences of shifted integers. -/
theorem lowerAddSub_words {instruction : BinaryOp} {overflow : OverflowOp} {double : FBinaryOp}
    (h : lowerAddSub id node mode instruction overflow double env s = .ok (u, s'))
    (hm : s'.builder.Completes m.func) (hc : m.At s.builder c)
    (hargs : Operands (IsInt52 env s c) node x y) (hready : Ready s id)
    (hnode : env.graph.node id = .ok node) (hop : node.op = .arith op mode)
    (hresult : node.result = .int52) :
    Results m id .int52 s s' c
      (if mode.checksOverflow && overflow.eval .i64 (Value.shiftInt52 x) (Value.shiftInt52 y)
        then .error .int52Overflow
        else .ok (instruction.eval .i64 (Value.shiftInt52 x) (Value.shiftInt52 y))) := by
  rw [lowerAddSub, hresult] at h
  have hreads : ReadsAs m env id asInt52 (IsInt52 env) .i64 Value.shiftInt52 :=
    asInt52_readsAs hnode hop
  refine .ofReads h hm hc (fun h₁ hm₁ => hreads.both hreads h₁ hm₁ hc hargs hready)
    fun ⟨hl, hr⟩ => ?_
  refine .guard (checkOverflow_guards hl hr) fun _ _ _ hf => ?_
  exact .bind (.ofEmit (Emit.binary_yields (hl.later hf) (hr.later hf))) fun _ hsum =>
    finishes_record hsum

/-- Products of a shifted integer by one as it is. -/
theorem lowerMul_words (h : lowerMul id node mode env s = .ok (u, s'))
    (hm : s'.builder.Completes m.func) (hc : m.At s.builder c)
    (hargs : Operands (IsInt52 env s c) node x y) (hready : Ready s id)
    (hnode : env.graph.node id = .ok node) (hop : node.op = .arith op mode)
    (hresult : node.result = .int52) :
    Results m id .int52 s s' c
      (if mode.checksOverflow && OverflowOp.mul.eval .i64 (Value.shiftInt52 x) y.toUInt64
        then .error .int52Overflow
        else if mode.checksNegativeZero &&
        (BinaryOp.mul.eval .i64 (Value.shiftInt52 x) y.toUInt64 == 0 &&
          decide ((Value.shiftInt52 x).toInt64.toInt < 0 ∨ y.toUInt64.toInt64.toInt < 0))
            then .error .negativeZero
        else .ok (BinaryOp.mul.eval .i64 (Value.shiftInt52 x) y.toUInt64)) := by
  rw [lowerMul, hresult] at h
  have h : ((do
      let lhs ← asInt52 (← node.child 0)
      let rhs ← asStrictInt52 (← node.child 1)
      return (lhs, rhs) : Lower (Reg × Reg)) >>= fun p => multiply mode .int52Overflow p.1 p.2 >>=
        fun r => record id .int52 r)
      env s = .ok (u, s') := by
    simpa only [bind_assoc, pure_bind] using h
  refine .ofReads h hm hc (fun h₁ hm₁ => (asInt52_readsAs hnode hop).both
    (asStrictInt52_readsAs hnode hop) h₁ hm₁ hc hargs hready)
    fun ⟨hl, hr⟩ => ?_
  refine multiply_finishes hl hr (fun hf => Emit.binary_yields (hl.later hf) (hr.later hf))
    Emit.eq_zero_int64
    (fun hf => eitherNegative_int64 (hl.later hf) (hr.later hf)) fun hproduct => ?_
  exact finishes_record hproduct

set_option synthInstance.maxSize 400 in
/-- Negations of shifted integers. -/
theorem lowerNegate_words (h : lowerNegate id node mode env s = .ok (u, s'))
    (hm : s'.builder.Completes m.func) (hc : m.At s.builder c)
    (hargs : Operands (IsInt52 env s c) node x y) (hready : Ready s id)
    (hnode : env.graph.node id = .ok node) (hop : node.op = .arith op mode)
    (hresult : node.result = .int52) :
    Results m id .int52 s s' c
      (if mode.checksOverflow && OverflowOp.sub.eval .i64 0 (Value.shiftInt52 x) then .error
        .int52Overflow
        else if mode.checksNegativeZero && (Value.shiftInt52 x == 0) then .error .negativeZero
        else .ok (UnaryOp.neg.eval .i64 (Value.shiftInt52 x))) := by
  rw [lowerNegate, hresult] at h
  dsimp only at h
  rw [← bind_assoc] at h
  refine .ofReads h hm hc (fun h₁ hm₁ => (asInt52_readsAs hnode hop).first h₁ hm₁ hc hargs hready)
    fun hv => ?_
  have hrest {b₀ : Builder} {c' : Config σ} {value : Reg}
    (hv : c'.Has b₀ value .i64 (Value.shiftInt52 x)) :
      Finishes m env b₀ c' id .int52
        (do checkNegatedZero mode value; record id .int52 (← Emit.unary .neg value))
        (if mode.checksNegativeZero && (Value.shiftInt52 x == 0) then .error .negativeZero
          else .ok (UnaryOp.neg.eval .i64 (Value.shiftInt52 x))) := by
    refine .guard (checkNegatedZero_guards (Emit.eq_zero_int64 hv)) fun _ _ _ hf₁ => ?_
    exact .bind (.ofEmit (Emit.unary_yields (hv.later hf₁))) fun _ hnegated =>
      finishes_record hnegated
  refine .ite (fun _ => ?_) fun _ => hrest hv
  refine .bind (.ofEmit (Emit.iconst_yields _)) fun hf₁ hzero => ?_
  refine .bind (.ofEmit (Emit.overflows_yields hzero (hv.later hf₁))) fun hf₂ ht => ?_
  exact .guard (guards_speculate ht) fun _ _ _ hf₃ => hrest (hv.later (hf₁.trans (hf₂.trans hf₃)))

/-- The code comes to the outcome of the exact result. -/
theorem lowerArith_outcome (h : lowerArith id node op mode env s = .ok (u, s'))
    (hm : s'.builder.Completes m.func) (hc : m.At s.builder c)
    (hargs : Operands (IsInt52 env s c) node x y) (hready : Ready s id)
    (hnode : env.graph.node id = .ok node) (hop : node.op = .arith op mode)
    (hresult : node.result = .int52) (hx : Value.isInt52 x = true) (hy : Value.isInt52 y = true) :
    ∃ z negativeZero, op.Gives x.toInt y.toInt z ∧
      (negativeZero = true ↔ op.GivesNegativeZero x.toInt y.toInt) ∧
      Results m id .int52 s s' c ((outcome52 mode z negativeZero).map Value.shiftInt52) := by
  cases op with
  | add =>
    refine ⟨x.toInt + y.toInt, false, ArithOp.gives_add.2 rfl, by simp, ?_⟩
    rw [← add_shifted hx hy]
    exact lowerAddSub_words h hm hc hargs hready hnode hop hresult
  | sub =>
    refine ⟨x.toInt - y.toInt, false, ArithOp.gives_sub.2 rfl, by simp, ?_⟩
    rw [← sub_shifted hx hy]
    exact lowerAddSub_words h hm hc hargs hready hnode hop hresult
  | mul =>
    refine ⟨x.toInt * y.toInt, _, ArithOp.gives_mul.2 rfl,
      decide_eq_true_iff.trans ArithOp.givesNegativeZero_mul.symm, ?_⟩
    rw [← mul_shifted hx]
    exact lowerMul_words h hm hc hargs hready hnode hop hresult
  | negate =>
    refine ⟨-x.toInt, _, ArithOp.gives_negate.2 rfl,
      decide_eq_true_iff.trans ArithOp.givesNegativeZero_negate.symm, ?_⟩
    rw [← negate_shifted hx]
    exact lowerNegate_words h hm hc hargs hready hnode hop hresult
  | div =>
    rw [lowerArith, lowerDiv, hresult] at h
    cases h
  | mod =>
    rw [lowerArith, lowerMod, hresult] at h
    cases h
  | abs =>
    rw [lowerArith, lowerAbs, hresult] at h
    cases h

end Code

/-! ## Exactness -/

section Exactness

variable {σ : Type} {m : Machine σ} {env : Env} {s s' : State} {c : Config σ} {id : NodeId}
  {node : Node} {op : ArithOp} {mode : ArithMode} {a b : Int64} {u : Unit}

/-- Checked arithmetic on integers of 52 bits leaves for an overflow exactly if the exact result has
more than 52 bits, and for the negative zero exactly if that is the exact result and is checked.
Otherwise it evaluates to the exact result, shifted, and boxed as the integer that it is. -/
theorem int52_arithmetic_exact (hnode : env.graph.node id = .ok node)
    (hop : node.op = .arith op mode) (hmode : mode.checksOverflow = true)
    (hresult : node.result = .int52) (h : lowerOp id node env s = .ok (u, s'))
    (hm : s'.builder.Completes m.func) (hc : m.At s.builder c) (hready : Ready s id)
    (hself : env.dominators.dominates s.block s.block = true)
    (hargs : Operands (IsInt52 env s c) node a b) (ha : Value.isInt52 a = true)
    (hb : Value.isInt52 b = true) (hbox : m.BoxesInt52 c.memory) :
    ∃ z : Int, op.Gives a.toInt b.toInt z ∧
      (LeavesBy m .int52Overflow s' c ↔ z < -2 ^ 51 ∨ 2 ^ 51 ≤ z) ∧
      (LeavesBy m .negativeZero s' c ↔ mode.checksNegativeZero = true ∧ op.GivesNegativeZero a.toInt
        b.toInt) ∧
      (-2 ^ 51 ≤ z ∧ z < 2 ^ 51 → ¬ (mode.checksNegativeZero = true ∧ op.GivesNegativeZero a.toInt
        b.toInt) →
        ∃ n : Int64, n.toInt = z ∧ (Value.shiftInt52 n).toInt64 >>> 12 = n ∧ EvaluatesInt52 m env s
          c s' id n) := by
  rw [lowerOp, hop] at h
  have : Tidy (lowerArith id node op mode) := Staged.obeys inferInstance
  have e : s.builder.Emits [] s'.builder := Tidy.after h (.refl hc.wf)
  obtain ⟨z, negativeZero, hexact, hnegative, hresults⟩ :=
    lowerArith_outcome h hm hc hargs hready hnode hop hresult ha hb
  have hzero : negativeZero = true → z = 0 := fun ht => hexact.eq_zero (hnegative.1 ht)
  refine ⟨z, hexact, ?_, ?_, fun hrange hsigned => ?_⟩
  · rw [hresults.leavesBy_map_iff, outcome52_eq_overflow_iff hmode]
  · rw [hresults.leavesBy_map_iff, outcome52_eq_negativeZero_iff hzero, hnegative]
  · obtain ⟨hz, hint⟩ := Value.toInt_ofInt52 hrange
    rw [← hnegative] at hsigned
    rw [outcome52_eq_ok hrange hsigned] at hresults
    exact ⟨Int64.ofInt z, hz, Value.shiftInt52_sshr hint, hresults.evaluatesInt52 hint e hself hnode
      (by rw [hop]; rfl) hbox⟩

end Exactness

/-! ## The least product -/

namespace LeastProduct

open TwoArguments

def node : Node where
  op := .arith .mul .checkOverflowAndNegativeZero
  result := .int52
  children := [{ node := ⟨0⟩, useKind := .int52Rep }, { node := ⟨1⟩, useKind := .int52Rep }]

def graph : Graph := TwoArguments.graph node .int52 .int52

/-- The factors are 2 to the 26th and, negated, 2 to the 25th. -/
def config (f : Function) : Config Unit :=
  TwoArguments.config f (Value.shiftInt52 0x4000000) (Value.shiftInt52 (-0x2000000))

theorem operands {f : Function} (hf : 3 < f.types.size) :
    Operands (IsInt52 (env graph) (before graph .int52) (config f)) node 0x4000000
      (-0x2000000) where
  first h := by
    cases h
    exact .ofShifted (by decide) rfl rfl (fun form => by cases form <;> rfl) (config_has hf).1
  second h := by
    cases h
    exact .ofShifted (by decide) rfl rfl (fun form => by cases form <;> rfl) (config_has hf).2
  same h h' hsame := by
    cases h
    cases h'
    cases hsame

end LeastProduct

/-- The least integer of 52 bits is a product. -/
theorem int52_arithmetic_least_product :
    ∃ s', lowerOp ⟨2⟩ LeastProduct.node (TwoArguments.env LeastProduct.graph)
      (TwoArguments.before LeastProduct.graph .int52) =
        .ok ((), s') ∧
      EvaluatesInt52 (Machine.plain s'.builder.func) (TwoArguments.env LeastProduct.graph)
        (TwoArguments.before LeastProduct.graph .int52) (LeastProduct.config s'.builder.func) s' ⟨2⟩
          (-0x8000000000000) := by
  have hcheck : (match lowerOp ⟨2⟩ LeastProduct.node (TwoArguments.env LeastProduct.graph)
        (TwoArguments.before LeastProduct.graph .int52) with
      | .error _ => false
      | .ok (_, s') => decide (3 < s'.builder.func.types.size)) = true := by decide +kernel
  split at hcheck
  · cases hcheck
  · rename_i u s' h
    have hsize : 3 < s'.builder.func.types.size := of_decide_eq_true hcheck
    obtain ⟨z, hexact, -, -, hevaluates⟩ :=
      int52_arithmetic_exact rfl rfl rfl rfl h s'.builder.completes_self
      (TwoArguments.before_at _ _ _ _ _) (TwoArguments.before_ready _ _) (by decide +kernel)
        (LeastProduct.operands hsize)
      (by decide) (by decide) (Machine.plain_boxesInt52 _ _)
    obtain rfl : z = -0x8000000000000 := (ArithOp.gives_mul.1 hexact).symm.trans (by decide +kernel)
    obtain ⟨n, hn, -, heval⟩ := hevaluates (by decide) (by
      rw [ArithOp.givesNegativeZero_mul]
      decide)
    obtain rfl : n = -0x8000000000000 := Int64.toInt_inj.1 hn
    exact ⟨s', h, heval⟩

end SpecJit.Lowering
