import SpecJit.Proofs.CheckedArithmetic
import SpecJit.Proofs.Lowering.Arithmetic

/-!
# Arithmetic on int32 values

The code of an operation reads its uses as int32 values, makes the checks of its mode one after the
other and computes the result, so that it comes to the outcome of the operation
(`lowerArith_results`). `int32_arithmetic_exact` puts this in terms of exact results: code with
checks evaluates to the exact result or leaves, and code without them never leaves and wraps.
-/

namespace SpecJit.Lowering

open Lir

section Checks

variable {σ : Type} {m : Machine σ} {env : Env} {b : Builder} {c : Config σ} {mode : ArithMode}
  {lhs rhs : Reg} {x y : Int32}

/-- The divisions that have no int32 as their result: by 0, and of the least int32 by -1. -/
theorem checkDivision_guards (hl : c.Has b lhs .i32 (ofInt32 x)) (hr : c.Has b rhs .i32 (ofInt32 y))
    :
    Guards m env b c (checkDivision mode lhs rhs) .overflow
      (mode.checksOverflow && (y == 0 || (x == Int32.minValue && y == -1))) := by
  refine .ite fun _ => .bind (.ofEmit (Emit.eq_int32 hr)) fun hf₁ hzero => ?_
  refine .bind (.ofEmit (Emit.eq_int32 (hl.later hf₁))) fun hf₂ hmin => ?_
  refine .bind (.ofEmit (Emit.eq_int32 (hr.later (hf₁.trans hf₂)))) fun hf₃ hone => ?_
  refine .bind
    (.ofEmit ((Emit.binary_yields (hmin.later hf₃) hone).congr (BinaryOp.and_ofBool _ _)))
      fun hf₄ hboth => ?_
  have hzero' := hzero.later (hf₂.trans (hf₃.trans hf₄))
  exact .bind (.ofEmit ((Emit.binary_yields hzero' hboth).congr (BinaryOp.or_ofBool _ _)))
    fun _ hr => guards_speculate hr

theorem eitherNegative_int32 (hl : c.Has b lhs .i32 (ofInt32 x)) (hr : c.Has b rhs .i32 (ofInt32 y))
    :
    (eitherNegative lhs rhs).Yields m b c .i32 (ofBool (decide (x.toInt < 0 ∨ y.toInt < 0))) := by
  refine (Emit.binary_int32 hl hr).bind fun _ hor => (Emit.negative_int32 hor).congr ?_
  simp only [binary32, ← Int32.toInt_toBitVec, Int32.toBitVec_or, toInt_or_neg_iff]

end Checks

/-! ## Uses -/

section Uses

variable {σ : Type} {m : Machine σ} {env : Env} {s s' : State} {c : Config σ} {id : NodeId}
  {node : Node} {e : Edge} {op : ArithOp} {mode : ArithMode} {r : Reg}

/-- A node of arithmetic whose code is to be built is not its own use. -/
theorem ne_of_asInt32 (h : asInt32 e env s = .ok (r, s')) (hready : Ready s id)
    (hnode : env.graph.node id = .ok node) (hop : node.op = .arith op mode) : id ≠ e.node := by
  rintro rfl
  rw [asInt32, held?_bind, hready.heldIn] at h
  obtain ⟨node', hnode', h⟩ := getNode_bind_ok h
  rw [hnode] at hnode'
  cases hnode'
  rw [hop] at h
  dsimp only at h
  rw [held?_bind, hready.heldIn] at h
  cases h

theorem asInt32_readsAs (hnode : env.graph.node id = .ok node) (hop : node.op = .arith op mode) :
    ReadsAs m env id asInt32 (IsInt32 env) .i32 ofInt32 := by
  intro e r s s' c n h hm hc hn hready
  obtain ⟨hread, hvalid, hruns⟩ := asInt32_reads h hm hc hn hready.valid hready.depth
  exact ⟨hready.read hread (ne_of_asInt32 h hready hnode hop) hvalid, hread.block, hruns⟩

end Uses

/-! ## Code -/

section Code

variable {σ : Type} {m : Machine σ} {env : Env} {s s' : State} {c : Config σ} {id : NodeId}
  {node : Node} {op : ArithOp} {mode : ArithMode} {a b x y : Int32} {u : Unit}

/-- A sum or a difference of two int32 values, with its check. -/
theorem addSub_finishes {instruction : BinaryOp} {overflow : OverflowOp} {b : Builder} {l r : Reg}
    (hl : c.Has b l .i32 (ofInt32 x)) (hr : c.Has b r .i32 (ofInt32 y))
    (hnode : env.graph.node id = .ok node) (hresult : node.result = .int32)
    (hneeded : env.exitOnly.contains id = false) :
    Finishes m env b c id .int32 (do
      if (← read).exitOnly.contains id then return
      checkOverflow mode .overflow overflow l r
      setResult id (← Emit.binary instruction l r)) (if mode.checksOverflow &&
        overflow.eval .i32 (ofInt32 x) (ofInt32 y) then
        .error .overflow else .ok (ofInt32 (binary32 instruction x y))) := by
  refine .ofRead ?_
  rw [if_neg (by rw [hneeded]; exact Bool.false_ne_true)]
  refine .guard (checkOverflow_guards hl hr) fun _ _ _ hf => ?_
  refine .bind (.ofEmit (Emit.binary_int32 (hl.later hf) (hr.later hf))) fun _ hsum => ?_
  exact finishes_setResult hnode (by rw [hresult]; rfl) hsum

/-- A product of two int32 values, with its checks. -/
theorem mul_finishes {b : Builder} {l r : Reg} (hl : c.Has b l .i32 (ofInt32 x))
    (hr : c.Has b r .i32 (ofInt32 y)) (hnode : env.graph.node id = .ok node)
    (hresult : node.result = .int32) :
    Finishes m env b c id .int32 (do setResult id (← multiply mode .overflow l r))
      (if mode.checksOverflow && OverflowOp.mul.eval .i32 (ofInt32 x) (ofInt32 y) then .error
        .overflow
        else if mode.checksNegativeZero && (x * y == 0 && decide (x.toInt < 0 ∨ y.toInt < 0))
          then .error .negativeZero
        else .ok (ofInt32 (x * y))) := by
  refine multiply_finishes hl hr (fun hf => Emit.binary_int32 (hl.later hf) (hr.later hf))
    Emit.eq_int32
    (fun hf => eitherNegative_int32 (hl.later hf) (hr.later hf)) fun hproduct => ?_
  exact finishes_setResult hnode (by rw [hresult]; rfl) hproduct

theorem lowerAddSub_results {instruction : BinaryOp} {overflow : OverflowOp} {double : FBinaryOp}
    (h : lowerAddSub id node mode instruction overflow double env s = .ok (u, s'))
    (hm : s'.builder.Completes m.func) (hc : m.At s.builder c)
    (hargs : Operands (IsInt32 env s c) node a b) (hready : Ready s id)
    (hnode : env.graph.node id = .ok node) (hop : node.op = .arith op mode)
    (hresult : node.result = .int32) (hneeded : env.exitOnly.contains id = false) :
    Results m id .int32 s s' c (if mode.checksOverflow && overflow.eval .i32 (ofInt32 a) (ofInt32 b)
      then .error .overflow
      else .ok (ofInt32 (binary32 instruction a b))) := by
  rw [lowerAddSub, hresult] at h
  have hreads : ReadsAs m env id asInt32 (IsInt32 env) .i32 ofInt32 := asInt32_readsAs hnode hop
  exact .ofReads h hm hc (fun h₁ hm₁ => hreads.both hreads h₁ hm₁ hc hargs hready) fun hregs =>
    addSub_finishes hregs.1 hregs.2 hnode hresult hneeded

theorem lowerMul_results (h : lowerMul id node mode env s = .ok (u, s'))
    (hm : s'.builder.Completes m.func) (hc : m.At s.builder c)
    (hargs : Operands (IsInt32 env s c) node a b) (hready : Ready s id)
    (hnode : env.graph.node id = .ok node) (hop : node.op = .arith op mode)
    (hresult : node.result = .int32) :
    Results m id .int32 s s' c (if mode.checksOverflow && OverflowOp.mul.eval .i32 (ofInt32 a)
      (ofInt32 b) then .error .overflow
      else if mode.checksNegativeZero && (a * b == 0 && decide (a.toInt < 0 ∨ b.toInt < 0))
        then .error .negativeZero
      else .ok (ofInt32 (a * b))) := by
  rw [lowerMul, hresult] at h
  have hreads : ReadsAs m env id asInt32 (IsInt32 env) .i32 ofInt32 := asInt32_readsAs hnode hop
  exact .ofReads h hm hc (fun h₁ hm₁ => hreads.both hreads h₁ hm₁ hc hargs hready) fun hregs =>
    mul_finishes hregs.1 hregs.2 hnode hresult

set_option synthInstance.maxSize 400 in
theorem lowerDiv_results (h : lowerDiv id node mode env s = .ok (u, s'))
    (hm : s'.builder.Completes m.func) (hc : m.At s.builder c)
    (hargs : Operands (IsInt32 env s c) node a b) (hready : Ready s id)
    (hnode : env.graph.node id = .ok node) (hop : node.op = .arith op mode)
    (hresult : node.result = .int32) :
    Results m id .int32 s s' c (if mode.checksOverflow &&
      (b == 0 || (a == Int32.minValue && b == -1)) then .error .overflow
      else if mode.checksNegativeZero && (a == 0 && decide (b.toInt < 0)) then .error .negativeZero
      else if mode.checksOverflow && a / b * b != a then .error .overflow
      else .ok (ofInt32 (a / b))) := by
  rw [lowerDiv, hresult] at h
  have hreads : ReadsAs m env id asInt32 (IsInt32 env) .i32 ofInt32 := asInt32_readsAs hnode hop
  refine .ofReads h hm hc (fun h₁ hm₁ => hreads.both hreads h₁ hm₁ hc hargs hready)
    fun ⟨hl, hr⟩ => ?_
  refine .guard (checkDivision_guards hl hr) fun _ _ _ hf₁ => ?_
  refine .guard (checkNegativeZero_guards (Emit.eq_int32 (hl.later hf₁))
    (Emit.negative_int32 (hr.later hf₁))) fun _ _ _ hf₂ => ?_
  refine .bind (.ofEmit (Emit.binary_int32 (hl.later (hf₁.trans hf₂)) (hr.later (hf₁.trans hf₂))))
    fun hf₃ hquotient => ?_
  have hf := hf₁.trans (hf₂.trans hf₃)
  have hform : node.result.form? = some .int32 := by rw [hresult]; rfl
  -- the division is exact
  refine .ite (fun _ => ?_) fun _ => finishes_setResult hnode hform hquotient
  refine .bind (.ofEmit (Emit.binary_int32 hquotient (hr.later hf))) fun hf₄ hproduct => ?_
  refine .bind (.ofEmit (Emit.ne_int32 hproduct (hl.later (hf.trans hf₄)))) fun hf₅ hinexact => ?_
  refine .guard (guards_speculate hinexact) fun _ _ _ hf₆ => ?_
  exact finishes_setResult hnode hform (hquotient.later (hf₄.trans (hf₅.trans hf₆)))

theorem lowerMod_results (h : lowerMod id node mode env s = .ok (u, s'))
    (hm : s'.builder.Completes m.func) (hc : m.At s.builder c)
    (hargs : Operands (IsInt32 env s c) node a b) (hready : Ready s id)
    (hnode : env.graph.node id = .ok node) (hop : node.op = .arith op mode)
    (hresult : node.result = .int32) :
    Results m id .int32 s s' c (if mode.checksOverflow &&
      (b == 0 || (a == Int32.minValue && b == -1)) then .error .overflow
      else if mode.checksNegativeZero && (binary32 .srem a b == 0 && decide (a.toInt < 0))
        then .error .negativeZero
      else .ok (ofInt32 (binary32 .srem a b))) := by
  rw [lowerMod, hresult] at h
  have hreads : ReadsAs m env id asInt32 (IsInt32 env) .i32 ofInt32 := asInt32_readsAs hnode hop
  refine .ofReads h hm hc (fun h₁ hm₁ => hreads.both hreads h₁ hm₁ hc hargs hready)
    fun ⟨hl, hr⟩ => ?_
  refine .guard (checkDivision_guards hl hr) fun _ _ _ hf₁ => ?_
  refine .bind (.ofEmit (Emit.binary_int32 (hl.later hf₁) (hr.later hf₁))) fun hf₂ hremainder => ?_
  have hnegative := Emit.negative_int32 (m := m) (hl.later (hf₁.trans hf₂))
  refine .guard (checkNegativeZero_guards (Emit.eq_int32 hremainder) hnegative) fun _ _ _ hf₃ => ?_
  exact finishes_setResult hnode (by rw [hresult]; rfl) (hremainder.later hf₃)

theorem lowerNegate_results (h : lowerNegate id node mode env s = .ok (u, s'))
    (hm : s'.builder.Completes m.func) (hc : m.At s.builder c)
    (hargs : Operands (IsInt32 env s c) node a b) (hready : Ready s id)
    (hnode : env.graph.node id = .ok node) (hop : node.op = .arith op mode)
    (hresult : node.result = .int32) :
    Results m id .int32 s s' c (if mode.checksOverflow && a == Int32.minValue then .error .overflow
      else if mode.checksNegativeZero && a == 0 then .error .negativeZero
        else .ok (ofInt32 (-a))) := by
  rw [lowerNegate, hresult] at h
  dsimp only at h
  rw [← bind_assoc] at h
  have hreads : ReadsAs m env id asInt32 (IsInt32 env) .i32 ofInt32 := asInt32_readsAs hnode hop
  refine .ofReads h hm hc (fun h₁ hm₁ => hreads.first h₁ hm₁ hc hargs hready) fun hv => ?_
  have hrest {b₀ : Builder} {c' : Config σ} {value : Reg} (hv : c'.Has b₀ value .i32 (ofInt32 a)) :
      Finishes m env b₀ c' id .int32
        (do checkNegatedZero mode value; setResult id (← Emit.unary .neg value))
        (if mode.checksNegativeZero && a == 0 then .error .negativeZero
          else .ok (ofInt32 (-a))) := by
    refine .guard (checkNegatedZero_guards (Emit.eq_int32 hv)) fun _ _ _ hf₁ => ?_
    refine .bind (.ofEmit (Emit.neg_int32 (hv.later hf₁))) fun _ hnegated => ?_
    exact finishes_setResult hnode (by rw [hresult]; rfl) hnegated
  refine .ite (fun _ => ?_) fun _ => hrest hv
  refine .bind (.ofEmit (Emit.eq_int32 hv)) fun hf₁ hmin => ?_
  exact .guard (guards_speculate hmin) fun _ _ _ hf₂ => hrest (hv.later (hf₁.trans hf₂))

theorem lowerAbs_results (h : lowerAbs id node mode env s = .ok (u, s'))
    (hm : s'.builder.Completes m.func) (hc : m.At s.builder c)
    (hargs : Operands (IsInt32 env s c) node a b) (hready : Ready s id)
    (hnode : env.graph.node id = .ok node) (hop : node.op = .arith op mode)
    (hresult : node.result = .int32) :
    Results m id .int32 s s' c (if mode.checksOverflow &&
      decide (((a ^^^ a >>> 31) - a >>> 31).toInt < 0) then .error .overflow
      else .ok (ofInt32 ((a ^^^ a >>> 31) - a >>> 31))) := by
  rw [lowerAbs, hresult] at h
  dsimp only at h
  rw [← bind_assoc] at h
  have hreads : ReadsAs m env id asInt32 (IsInt32 env) .i32 ofInt32 := asInt32_readsAs hnode hop
  refine .ofReads h hm hc (fun h₁ hm₁ => hreads.first h₁ hm₁ hc hargs hready) fun hv => ?_
  refine .bind (.ofEmit (Emit.binaryImm_int32 hv)) fun hf₁ hsign => ?_
  refine .bind (.ofEmit (Emit.binary_int32 (hv.later hf₁) hsign)) fun hf₂ hflipped => ?_
  refine .bind (.ofEmit (Emit.binary_int32 hflipped (hsign.later hf₂))) fun hf₃ hr => ?_
  have hform : node.result.form? = some .int32 := by rw [hresult]; rfl
  refine .ite (fun _ => ?_) fun _ => finishes_setResult hnode hform hr
  refine .bind (.ofEmit (Emit.negative_int32 hr)) fun hf₄ hnegative => ?_
  exact .guard (guards_speculate hnegative) fun _ _ _ hf₅ => finishes_setResult hnode hform
    (hr.later (hf₄.trans hf₅))

/-- The code of arithmetic that code needs comes to the outcome of the operation. -/
theorem lowerArith_results (h : lowerArith id node op mode env s = .ok (u, s'))
    (hm : s'.builder.Completes m.func) (hc : m.At s.builder c)
    (hargs : Operands (IsInt32 env s c) node a b) (hready : Ready s id)
    (hnode : env.graph.node id = .ok node) (hop : node.op = .arith op mode)
    (hresult : node.result = .int32) (hneeded : env.exitOnly.contains id = false) :
    Results m id .int32 s s' c ((op.outcome32 mode a b).map ofInt32) := by
  cases op with
  | add =>
    have hresults := lowerAddSub_results h hm hc hargs hready hnode hop hresult hneeded
    rw [OverflowOp.eval_int32] at hresults
    simp only [ArithOp.outcome32, map_checked]
    exact hresults
  | sub =>
    have hresults := lowerAddSub_results h hm hc hargs hready hnode hop hresult hneeded
    rw [OverflowOp.eval_int32] at hresults
    simp only [ArithOp.outcome32, map_checked]
    exact hresults
  | mul =>
    have hresults := lowerMul_results h hm hc hargs hready hnode hop hresult
    rw [OverflowOp.eval_int32] at hresults
    simp only [ArithOp.outcome32, map_checked]
    exact hresults
  | div =>
    have hresults := lowerDiv_results h hm hc hargs hready hnode hop hresult
    simp only [ArithOp.outcome32, map_checked]
    exact hresults
  | mod =>
    have hresults := lowerMod_results h hm hc hargs hready hnode hop hresult
    simp only [ArithOp.outcome32, map_checked]
    exact hresults
  | negate =>
    have hresults := lowerNegate_results h hm hc hargs hready hnode hop hresult
    simp only [ArithOp.outcome32, map_checked]
    exact hresults
  | abs =>
    have hresults := lowerAbs_results h hm hc hargs hready hnode hop hresult
    simp only [ArithOp.outcome32, map_checked]
    exact hresults

/-! ## Sums that only exits need -/

/-- Only sums without checks are left to exits. -/
theorem plain_of_exitOnly (hgraph : env.exitOnly = env.graph.exitOnlyNodes)
    (hnode : env.graph.node id = .ok node) (hop : node.op = .arith op mode)
    (h : env.exitOnly.contains id = true) :
    (op = .add ∨ op = .sub) ∧ mode.checksOverflow = false := by
  have hfound : env.graph.node? id = some node := Fault.ofOption_eq_ok.1 hnode
  rw [List.contains_iff_mem, hgraph, Graph.exitOnlyNodes, List.mem_filter, hfound, Option.any_some,
    Bool.and_eq_true, Node.isPlainSum, hop] at h
  obtain ⟨-, hplain, -⟩ := h
  cases op <;> simp_all

theorem lowerAddSub_skips {instruction : BinaryOp} {overflow : OverflowOp} {double : FBinaryOp}
    (h : lowerAddSub id node mode instruction overflow double env s = .ok (u, s'))
    (hm : s'.builder.Completes m.func) (hc : m.At s.builder c)
    (hargs : Operands (IsInt32 env s c) node a b) (hready : Ready s id)
    (hnode : env.graph.node id = .ok node) (hop : node.op = .arith op mode)
    (hresult : node.result = .int32) (hskipped : env.exitOnly.contains id = true) :
    m.Runs s.builder c s'.builder fun _ => True := by
  rw [lowerAddSub, hresult] at h
  obtain ⟨⟨l, r⟩, s₁, h₁, h⟩ := bind_ok h
  change (if env.exitOnly.contains id then pure () else _ : Lower Unit) env s₁ = _ at h
  rw [if_pos hskipped] at h
  cases h
  have hreads : ReadsAs m env id asInt32 (IsInt32 env) .i32 ofInt32 := asInt32_readsAs hnode hop
  obtain ⟨-, -, hruns⟩ := hreads.both hreads h₁ hm hc hargs hready
  exact hruns.mono fun _ _ _ => trivial

end Code

/-! ## Exactness -/

section Exactness

variable {σ : Type} {m : Machine σ} {env : Env} {s s' : State} {c : Config σ} {id : NodeId}
  {node : Node} {op : ArithOp} {mode : ArithMode} {a b : Int32} {u : Unit}

/-- The code evaluates the node to an int32 that is right. If there is none, and only then, it
leaves by an exit of one of the kinds. -/
structure EvaluatesOrLeaves (m : Machine σ) (env : Env) (s : State) (c : Config σ) (s' : State)
    (id : NodeId) (Right : Int32 → Prop) (kinds : List ExitKind) : Prop where
  evaluates : ∀ n, Right n → EvaluatesInt32 m env s c s' id n
  only : ∀ n, EvaluatesInt32 m env s c s' id n → ∃ k, Right k
  leaves : (¬ ∃ n, Right n) → ∃ kind ∈ kinds, LeavesBy m kind s' c

theorem Results.evaluatesOrLeaves {o : Except ExitKind Int32} {Right : Int32 → Prop}
    {kinds : List ExitKind} (h : Results m id .int32 s s' c (o.map ofInt32))
    (e : s.builder.Emits [] s'.builder) (hself : env.dominators.dominates s.block s.block = true)
    (hnode : env.graph.node id = .ok node) (hop : node.op = .arith op mode)
    (hok : ∀ n, o = .ok n ↔ Right n) (herror : ∀ kind, o = .error kind → kind ∈ kinds) :
    EvaluatesOrLeaves m env s c s' id Right kinds := by
  cases o with
  | ok n =>
    have heval : EvaluatesInt32 m env s c s' id n :=
      h.evaluatesInt32 e hself hnode (by rw [hop]; rfl)
    have hright : Right n := (hok n).1 rfl
    refine ⟨fun k hk => ?_, fun _ _ => ⟨n, hright⟩, fun hnone => absurd ⟨n, hright⟩ hnone⟩
    cases (hok k).2 hk
    exact heval
  | error kind =>
    have hleave : LeavesBy m kind s' c := h
    refine ⟨fun k hk => ?_, fun n heval => absurd hleave.leaves heval.not_leaves,
      fun _ => ⟨kind, herror kind rfl, hleave⟩⟩
    cases (hok k).2 hk

/-- Arithmetic on int32 values that checks for overflows evaluates to the exact result, boxed as an
int32, exactly if it is an int32 that the mode lets pass, and leaves otherwise. Without checks the
result wraps, and is 0 where there is none; a sum that no code needs is left to the exits that do.
-/
theorem int32_arithmetic_exact (hgraph : env.exitOnly = env.graph.exitOnlyNodes)
    (hnode : env.graph.node id = .ok node) (hop : node.op = .arith op mode)
    (hresult : node.result = .int32) (h : lowerOp id node env s = .ok (u, s'))
    (hm : s'.builder.Completes m.func) (hc : m.At s.builder c) (hready : Ready s id)
    (hself : env.dominators.dominates s.block s.block = true)
    (hargs : Operands (IsInt32 env s c) node a b) :
    (mode = .checkOverflowAndNegativeZero → EvaluatesOrLeaves m env s c s' id
      (fun n => op.Gives a.toInt b.toInt n.toInt ∧ ¬ op.GivesNegativeZero a.toInt b.toInt)
        [.overflow, .negativeZero]) ∧
    (mode = .checkOverflow → EvaluatesOrLeaves m env s c s' id
      (fun n => op.Gives a.toInt b.toInt n.toInt ∧ ¬ (op = .mod ∧ a = Int32.minValue ∧ b = -1))
        [.overflow]) ∧
    (mode = .unchecked ∨ mode = .doOverflow → ¬ m.Leaves s'.builder c ∧
      (id ∉ env.exitOnly → EvaluatesInt32 m env s c s' id (op.wrapped a.toInt b.toInt))) ∧
    (op = .abs → mode.checksOverflow = true → (LeavesBy m .overflow s' c ↔ a = Int32.minValue))
      := by
  rw [lowerOp, hop] at h
  have : Tidy (lowerArith id node op mode) := Staged.obeys inferInstance
  have e : s.builder.Emits [] s'.builder := Tidy.after h (.refl hc.wf)
  have hchecked (hmode : mode.checksOverflow = true) : Results m id .int32 s s' c
    ((op.outcome32 mode a b).map ofInt32) := by
    refine lowerArith_results h hm hc hargs hready hnode hop hresult ?_
    by_contra hskipped
    simpa [hmode] using (plain_of_exitOnly hgraph hnode hop (by simpa using hskipped)).2
  have hunchecked (hmode : mode.checksOverflow = false) : ¬ m.Leaves s'.builder c ∧
      (id ∉ env.exitOnly → EvaluatesInt32 m env s c s' id (op.wrapped a.toInt b.toInt)) := by
    cases hskipped : env.exitOnly.contains id with
    | true =>
      have hruns : m.Runs s.builder c s'.builder fun _ => True := by
        obtain ⟨rfl | rfl, -⟩ := plain_of_exitOnly hgraph hnode hop hskipped
        · exact lowerAddSub_skips h hm hc hargs hready hnode hop hresult hskipped
        · exact lowerAddSub_skips h hm hc hargs hready hnode hop hresult hskipped
      exact ⟨hruns.not_leaves, fun hneeded => absurd (List.contains_iff_mem.1 hskipped) hneeded⟩
    | false =>
      have hresults := lowerArith_results h hm hc hargs hready hnode hop hresult hskipped
      rw [ArithOp.outcome32_wrapped hmode] at hresults
      have heval := hresults.evaluatesInt32 e hself hnode (by rw [hop]; rfl)
      exact ⟨heval.not_leaves, fun _ => heval⟩
  refine ⟨?_, ?_, ?_, ?_⟩
  · rintro rfl
    refine (hchecked rfl).evaluatesOrLeaves e hself hnode hop (fun n => ?_) fun kind hkind => ?_
    · rw [ArithOp.outcome32_eq_ok_iff rfl]
      refine ⟨fun hp => ⟨hp.exact, hp.signed rfl⟩, fun hp => ⟨hp.1, fun _ => hp.2, ?_⟩⟩
      rintro ⟨rfl, rfl, rfl⟩
      exact hp.2 (ArithOp.givesNegativeZero_mod.2 (by decide))
    · rcases ArithOp.outcome32_eq_error hkind with rfl | ⟨-, rfl⟩ <;> simp
  · rintro rfl
    refine (hchecked rfl).evaluatesOrLeaves e hself hnode hop (fun n => ?_) fun kind hkind => ?_
    · rw [ArithOp.outcome32_eq_ok_iff rfl]
      refine ⟨fun hp => ⟨hp.exact, hp.divides⟩, fun hp => ⟨hp.1, fun hmode => ?_, hp.2⟩⟩
      cases hmode
    · rcases ArithOp.outcome32_eq_error hkind with rfl | ⟨hmode, -⟩
      · exact List.mem_singleton_self _
      · cases hmode
  · rintro (rfl | rfl)
    · exact hunchecked rfl
    · exact hunchecked rfl
  · rintro rfl hmode
    rw [(hchecked hmode).leavesBy_map_iff, ArithOp.abs_eq_error_iff]
    simp [hmode]

end Exactness

/-! ## A quotient -/

namespace Quotient

open TwoArguments

def node : Node where
  op := .arith .div .checkOverflowAndNegativeZero
  result := .int32
  children := [{ node := ⟨0⟩, useKind := .int32 }, { node := ⟨1⟩, useKind := .int32 }]

def graph : Graph := TwoArguments.graph node .jsValue .jsValue

theorem operands {f : Function} (hf : 3 < f.types.size) :
    Operands (IsInt32 (env graph) (before graph .jsValue)
      (config f (Value.boxInt32 6) (Value.boxInt32 (-2)))) node 6 (-2) where
  first h := by
    cases h
    exact .ofBoxed rfl rfl (fun form => by cases form <;> rfl) (config_has hf).1
      ⟨_, rfl, by decide +kernel, by decide +kernel, fun _ hc => by cases hc⟩
  second h := by
    cases h
    exact .ofBoxed rfl rfl (fun form => by cases form <;> rfl) (config_has hf).2
      ⟨_, rfl, by decide +kernel, by decide +kernel, fun _ hc => by cases hc⟩
  same h h' hsame := by
    cases h
    cases h'
    cases hsame

end Quotient

/-- 6 divided by -2 is -3. -/
theorem int32_arithmetic_quotient :
    ∃ s', lowerOp ⟨2⟩ Quotient.node (TwoArguments.env Quotient.graph)
      (TwoArguments.before Quotient.graph .jsValue) = .ok ((), s') ∧
      EvaluatesInt32 (Machine.plain s'.builder.func) (TwoArguments.env Quotient.graph)
        (TwoArguments.before Quotient.graph .jsValue)
        (TwoArguments.config s'.builder.func (Value.boxInt32 6) (Value.boxInt32 (-2))) s' ⟨2⟩
          (-3) := by
  have hcheck : (match lowerOp ⟨2⟩ Quotient.node (TwoArguments.env Quotient.graph)
    (TwoArguments.before Quotient.graph .jsValue) with
      | .error _ => false
      | .ok (_, s') => decide (3 < s'.builder.func.types.size)) = true := by decide +kernel
  split at hcheck
  · cases hcheck
  · rename_i u s' h
    have hsize : 3 < s'.builder.func.types.size := of_decide_eq_true hcheck
    have hexact :=
      (int32_arithmetic_exact (m := Machine.plain _) rfl rfl rfl rfl h
        s'.builder.completes_self (TwoArguments.before_at _ _ _ _ _)
      (TwoArguments.before_ready _ _) (by decide +kernel) (Quotient.operands hsize)).1 rfl
    refine ⟨s', h, hexact.evaluates (-3) ⟨?_, ?_⟩⟩
    · rw [ArithOp.gives_div]
      decide
    · rw [ArithOp.givesNegativeZero_div]
      decide

end SpecJit.Lowering
