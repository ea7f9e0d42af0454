import SpecJit.Proofs.IntegralDouble
import SpecJit.Proofs.Lir.Yields
import SpecJit.Proofs.Lowering.RoundTrip

/-!
# The check for integers of 52 bits

The code that tests a double for an integer of 52 bits computes `Value.doubleAsInt52?`
(`isNotInt52_yields`). A check of a constant does not come to that: the kind of a constant already
says whether the check is left out or fails, and there the least integer and the negative zero are
on the wrong side.
-/

namespace SpecJit

open Lir

variable {σ : Type} {m : Machine σ} {b : Builder} {c : Config σ} {value : Reg} {d : Double}

/-- Among the doubles equal to an integer, the sign tells the negative zero from zero. -/
theorem Value.isNegativeZero_eq (h : (Double.ofInt d.toInt64.toInt).numEq d = true) :
    d.isNegativeZero = (d.toInt64.toUInt64 == 0 && d.isNegative) := by
  have hlt := d.bits.toNat_lt
  rw [Bool.eq_iff_iff, Bool.and_eq_true, beq_iff_eq, Double.isNegativeZero_iff,
    Double.isNegative_iff]
  constructor
  · intro hz
    obtain rfl : d = .zero true := Double.eq_of_toNat hz
    exact ⟨by decide, by decide⟩
  · rintro ⟨hn, hneg⟩
    have hzero : d.toInt64 = 0 := by rw [← Int64.toInt64_toUInt64 d.toInt64, hn]; rfl
    have hkey : (Double.ofInt 0).orderKey = 0 := by decide
    rw [hzero] at h
    simp only [Double.numEq, Int64.toInt_zero, hkey, Bool.and_eq_true, beq_iff_eq] at h
    have hmagnitude := h.2
    rw [Double.orderKey, Double.toNat_and_magnitude] at hmagnitude
    split at hmagnitude <;> omega

namespace Lowering

/-- The integer is out of range, as the code tests it. -/
theorem outOfRange_eval (n : Int64) :
    IntCC.ugt.eval .i64 (n.toUInt64 + (Int64.ofInt (-Value.int52Min)).toUInt64)
    (Int64.ofInt (Value.int52Max - Value.int52Min)).toUInt64 = !Value.isInt52 n := by
  have hlt := n.toUInt64.toNat_lt
  have hword : n.toInt = if 2 * n.toUInt64.toNat < 2 ^ 64 then (n.toUInt64.toNat : Int)
    else n.toUInt64.toNat - (2 ^ 64 : Nat) :=
    BitVec.toInt_eq_toNat_cond n.toBitVec
  have hbias : (Int64.ofInt (-Value.int52Min)).toUInt64.toNat = 2 ^ 51 := by decide
  have hsize : (Int64.ofInt (Value.int52Max - Value.int52Min)).toUInt64.toNat = 2 ^ 52 - 1 := by
    decide
  rw [Bool.eq_iff_iff, Bool.not_eq_true', ← Bool.not_eq_true, Value.isInt52_iff]
  simp only [IntCC.eval, IntCC.holds, decide_eq_true_eq, UInt64.toNat_add, hbias, hsize]
  split at hword <;> omega

/-- The sign of a double, as the code tests it. -/
theorem decide_toInt_neg (d : Double) : decide (d.bits.toInt64.toInt < 0) = d.isNegative := by
  have hlt := d.bits.toNat_lt
  have hword : d.bits.toInt64.toInt = if 2 * d.bits.toNat < 2 ^ 64 then (d.bits.toNat : Int)
    else d.bits.toNat - (2 ^ 64 : Nat) :=
    BitVec.toInt_eq_toNat_cond d.bits.toBitVec
  rw [Bool.eq_iff_iff, decide_eq_true_iff, Double.isNegative_iff]
  split at hword <;> omega

set_option synthInstance.maxSize 1000 in
theorem isNotInt52_yields {ty : Ty} (h : c.Has b value ty d.bits) :
    (isNotInt52 value).Yields m b c .i32 (ofBool !(Value.doubleAsInt52? d).isSome) := by
  refine (Emit.doubleToInt_yields h).bind fun hf₁ hinteger => ?_
  refine (Emit.intToDouble_yields hinteger).bind fun hf₂ hback => ?_
  refine (Emit.fcmp_yields hback (h.later (hf₁.trans hf₂))).bind fun hf₃ hlossy => ?_
  refine (Emit.binaryImm_yields (hinteger.later (hf₂.trans hf₃))).bind fun hf₄ hbiased => ?_
  refine (Emit.icmpImm_yields hbiased).bind fun hf₅ hrange => ?_
  refine (Emit.eq_zero_int64 (hinteger.later (hf₂.trans (hf₃.trans (hf₄.trans hf₅))))).bind
    fun hf₆ hzero => ?_
  refine (Emit.bitcastToInt_yields
    (h.later (hf₁.trans (hf₂.trans (hf₃.trans (hf₄.trans (hf₅.trans hf₆))))))).bind
    fun hf₇ hbits => ?_
  refine (Emit.negative_int64 hbits).bind fun hf₈ hnegative => ?_
  refine (Emit.binary_yields (hzero.later (hf₇.trans hf₈)) hnegative).bind fun hf₉ hnegativeZero =>
    ?_
  refine (Emit.binary_yields
    (hlossy.later (hf₄.trans (hf₅.trans (hf₆.trans (hf₇.trans (hf₈.trans hf₉))))))
    (hrange.later (hf₆.trans (hf₇.trans (hf₈.trans hf₉))))).bind fun hf₁₀ hbad => ?_
  refine (Emit.binary_yields hbad (hnegativeZero.later hf₁₀)).congr ?_
  simp only [BinaryOp.and_ofBool, BinaryOp.or_ofBool, Ty.normalize_i64, BinaryOp.add_eval,
    doubleToInt, intToDouble, FloatCC.eval, Int64.toInt64_toUInt64, outOfRange_eval]
  change ofBool (!(Double.ofInt d.toInt64.toInt).numEq d || !Value.isInt52 d.toInt64 ||
    d.toInt64.toUInt64 == 0 && decide (d.bits.toInt64.toInt < 0)) = ofBool
      !(Value.doubleAsInt52? d).isSome
  rw [decide_toInt_neg, Value.doubleAsInt52?]
  congr 1
  cases heq : (Double.ofInt d.toInt64.toInt).numEq d with
  | false => simp
  | true =>
    rw [← Value.isNegativeZero_eq heq]
    cases Value.isInt52 d.toInt64 <;> cases d.isNegativeZero <;> simp

theorem isNotInt52_defines : (isNotInt52 value).Defines b .i32 := by
  refine .bind Emit.define_defines fun _ hinteger => .bind Emit.define_defines fun e₁ _ =>
    .bind Emit.define_defines fun e₂ hlossy => ?_
  refine (Emit.binaryImm_defines (e₂.types _ _ (e₁.types _ _ hinteger))).bind fun e₃ hbiased => ?_
  refine (Emit.icmpImm_defines hbiased).bind fun e₄ _ => ?_
  refine (Emit.icmpImm_defines
    (e₄.types _ _ (e₃.types _ _ (e₂.types _ _ (e₁.types _ _ hinteger))))).bind fun e₅ hzero => ?_
  refine .bind Emit.define_defines fun e₆ hbits => ?_
  refine (Emit.icmpImm_defines hbits).bind fun e₇ _ => ?_
  refine (Emit.binary_defines (e₇.types _ _ (e₆.types _ _ hzero))).bind fun e₈ _ => ?_
  refine (Emit.binary_defines
    (e₈.types _ _
      (e₇.types _ _ (e₆.types _ _ (e₅.types _ _ (e₄.types _ _ (e₃.types _ _ hlossy))))))).bind
    fun _ hbad => ?_
  exact Emit.binary_defines hbad

/-! ## Checks of constants -/

section

variable {env : Env} {s s' : State} {e : Edge} {node : Node} {known : AbstractValue} {r : Reg}

/-- The check of a constant is decided by the kind of the constant: it is left out, or it leaves. -/
theorem asDouble_constant (h : asDouble e env s = .ok (r, s'))
    (hk : e.useKind = .doubleRepMachineInt) (hm : s'.builder.Completes m.func)
    (hc : m.At s.builder c) (hop : node.op = .doubleConstant d) (hnan : d.isNaN = false)
    (hheld : Holds env s c e.node node (Source.doubleConstant d).datum)
    (hvalid : s.facts.valid = true) (hdepth : s.armDepth = 0)
    (hknown : s.facts.factOf env.graph e.node = .ok known) (hty : known.ty = .ofDouble d) :
    if SpecType.ofDouble d = .int52AsDouble then m.Runs s.builder c s'.builder fun c' =>
      c'.Has s'.builder r .f64 d.bits
    else m.Leaves s'.builder c := by
  obtain ⟨r₁, s₁, h₁, h₂⟩ := bind_ok h
  rw [hk] at h₂
  obtain ⟨_, s₂, h₂, h₃⟩ := bind_ok h₂
  cases h₃
  have e₁ : s.builder.Emits [] s₁.builder := Tidy.after h₁ (.refl hc.wf)
  have e₂ : s₁.builder.Emits [] s'.builder := Tidy.after h₂ (.refl e₁.after)
  obtain ⟨hread, hfacts, hdepth₁⟩ :=
    doubleOf_runs (x := .doubleConstant d) h₁ (e₂.toExtends.completes hm) hc (.inr rfl)
    ⟨hop, hnan⟩ hheld
  rw [← hfacts] at hvalid hknown
  split
  · rename_i hd
    have hsub : known.isType .int52AsDouble = true := by
      rw [AbstractValue.isType, hty, hd]
      decide
    rw [(typeCheck_leftOut h₂ hknown hsub).1]
    exact hread
  · rename_i hd
    have hnot : known.isNotType .int52AsDouble = true := by
      rw [AbstractValue.isNotType, hty, (SpecType.ofDouble_eq_or hnan).resolve_left hd]
      decide
    have hsub : known.isType .int52AsDouble ≠ true := by
      rw [AbstractValue.isType, hty, (SpecType.ofDouble_eq_or hnan).resolve_left hd]
      decide
    exact hread.leaves e₂.toExtends fun c₁ hc₁ _ _ =>
      typeCheck_ruledOut h₂ hm hc₁ hvalid (hdepth₁.trans hdepth) hknown hsub hnot

/-- The ways to tell an integer of 52 bits from another double. Profiling and the emitted test agree
with `doubleAsInt52?`. The kind of a constant, and a check of one, differ from it on the least
integer and on the negative zero, and only there. -/
theorem machineInt_tests (hnan : d.isNaN = false) :
    (Value.specType (Value.boxDouble d) = .int52AsDouble ↔ (Value.doubleAsInt52? d).isSome = true) ∧
    Emit.Computes isNotInt52 .f64 Double.bits .i32
      (fun x => ofBool !(Value.doubleAsInt52? x).isSome) ∧
    (SpecType.ofDouble d = .int52AsDouble ↔
      (Value.doubleAsInt52? d).isSome = true ∧ d ≠ Double.leastInt52 ∨ d = Double.zero true) ∧
    (Value.specType (Value.boxDouble d) = .ofDouble d ↔ d ≠ Double.leastInt52 ∧
      d ≠ Double.zero true) ∧
    ∀ {σ : Type} {m : Machine σ} {c : Config σ} {env : Env} {s s' : State} {e : Edge} {node
      : Node} {known : AbstractValue}
      {r : Reg}, asDouble e env s = .ok (r, s') → e.useKind = .doubleRepMachineInt →
        s'.builder.Completes m.func →
      m.At s.builder c → node.op = .doubleConstant d → Holds env s c e.node node
        (Source.doubleConstant d).datum →
      s.facts.valid = true → s.armDepth = 0 → s.facts.factOf env.graph e.node = .ok known →
      known.ty = .ofDouble d →
      ((m.Runs s.builder c s'.builder fun c' => c'.Has s'.builder r .f64 d.bits) ↔
        (Value.doubleAsInt52? d).isSome = true ∧ d ≠ Double.leastInt52 ∨ d = Double.zero true) ∧
      (m.Leaves s'.builder c ↔
        ¬ ((Value.doubleAsInt52? d).isSome = true ∧ d ≠ Double.leastInt52 ∨ d = Double.zero true))
          := by
  refine ⟨?_, .intro (fun _ => isNotInt52_defines) fun _ h => isNotInt52_yields h,
    SpecType.ofDouble_eq_int52AsDouble_iff hnan,
    Value.specType_boxDouble_eq_iff hnan, ?_⟩
  · rw [Value.specType_boxDouble hnan]
    cases (Value.doubleAsInt52? d).isSome <;> decide
  · intro σ m c env s s' e node known r h hk hm hc hop hheld hvalid hdepth hknown hty
    have hcourse := asDouble_constant h hk hm hc hop hnan hheld hvalid hdepth hknown hty
    rw [← SpecType.ofDouble_eq_int52AsDouble_iff hnan]
    split at hcourse
    · rename_i hd
      exact ⟨iff_of_true hcourse hd, iff_of_false hcourse.not_leaves (not_not_intro hd)⟩
    · rename_i hd
      exact ⟨iff_of_false (fun hruns => hruns.not_leaves hcourse) hd, iff_of_true hcourse hd⟩

end

/-- Returns a constant after the check that it is an integer of 52 bits. -/
def checkedConstant (d : Double) : Graph where
  name := "checkedConstant"
  nodes := #[
    { op := .doubleConstant d, result := .double },
    { op := .check, children := [{ node := ⟨0⟩, useKind := .doubleRepMachineInt }] },
    { op := .ret, children := [{ node := ⟨0⟩ }] }]
  blocks := #[{ index := ⟨0⟩, nodes := #[⟨0⟩, ⟨1⟩, ⟨2⟩] }]
  numArguments := 1
  numLocals := 0

namespace CheckedSeven

def env : Env where
  graph := checkedConstant (.ofInt 7)
  options := {}
  layout := {}
  dominators := { parents := #[some ⟨0⟩], numbers := #[some 0] }
  availabilityHeads := #[]
  phiParams := []
  exitOnly := []
  context := ⟨0⟩
  frame := ⟨1⟩

/-- What is known of the constant. -/
def known : AbstractValue :=
  { AbstractValue.ofType (.ofDouble (.ofInt 7)) with value := some (.double (.ofInt 7)) }

/-- Before the check. -/
def before : State where
  builder := {
    func := { name := "checkedConstant", blocks := #[{}], types := #[.i64, .i64] }
    terminated := #[false]
    current := ⟨0⟩ }
  facts := { blocks := #[], current := (Facts.empty env.graph).set ⟨0⟩ known, valid := true }
  availability := .empty env.graph

def use : Edge := { node := ⟨0⟩, useKind := .doubleRepMachineInt }

def node : Node := { op := .doubleConstant (.ofInt 7), result := .double }

def config : Config Simulation.RuntimeState where
  registers := #[none, none, none]
  memory := {}
  runtimeState := {}

theorem before_at (f : Function) (h : f.types.size = 3) :
    (simulator f).At before.builder config where
  wf := ⟨rfl, by decide⟩
  isOpen := rfl
  block := rfl
  position blk hb := by cases hb; rfl
  registers := h.symm

theorem before_holds :
    Holds env before config ⟨0⟩ node (Source.doubleConstant (.ofInt 7)).datum where
  found := rfl
  shown form r hr := by cases hr
  constant w hw := by cases hw; rfl
  boxed w _ hw := by cases hw

end CheckedSeven

/-- The check lets an integer pass. -/
theorem machineInt_tests_seven :
    ∃ r s', asDouble CheckedSeven.use CheckedSeven.env CheckedSeven.before = .ok (r, s') ∧
    (simulator s'.builder.func).Runs CheckedSeven.before.builder CheckedSeven.config
      s'.builder
      fun c' => c'.Has s'.builder r .f64 (Double.ofInt 7).bits := by
  have hcheck : ((asDouble CheckedSeven.use CheckedSeven.env CheckedSeven.before).toOption.any
    fun p => p.2.builder.func.types.size == 3) = true := by decide +kernel
  obtain ⟨⟨r, s'⟩, hsome, hsize⟩ := (Option.any_eq_true _ _).1 hcheck
  have h : asDouble CheckedSeven.use CheckedSeven.env CheckedSeven.before = .ok (r, s') := by
    cases hx : asDouble CheckedSeven.use CheckedSeven.env CheckedSeven.before with
    | error f => rw [hx] at hsome; cases hsome
    | ok p => rw [hx] at hsome; cases hsome; rfl
  obtain ⟨-, -, -, -, hchecks⟩ := machineInt_tests (d := .ofInt 7) (by decide)
  have hknown : CheckedSeven.before.facts.factOf CheckedSeven.env.graph
    ⟨0⟩ = .ok CheckedSeven.known := rfl
  have hpasses :=
    (hchecks h rfl s'.builder.completes_self (CheckedSeven.before_at _ (beq_iff_eq.1 hsize)) rfl
    CheckedSeven.before_holds rfl rfl hknown rfl).1
  exact ⟨r, s', h, hpasses.2 (.inl ⟨by decide, by decide⟩)⟩

/-- The check fails for the least integer, and lets the negative zero pass. -/
theorem checkedConstant_misjudged :
    (Value.doubleAsInt52? Double.leastInt52).isSome = true ∧
    SpecType.ofDouble Double.leastInt52 ≠ .int52AsDouble ∧
      simulated (checkedConstant Double.leastInt52) {} = some (.exited ⟨0⟩ []) ∧
      (Value.doubleAsInt52? (Double.zero true)).isSome = false ∧
      SpecType.ofDouble (Double.zero true) = .int52AsDouble ∧
      simulated (checkedConstant (Double.zero true))
        {} = some (.returned (Value.boxDouble (Double.zero true))) := by
  refine ⟨by
    decide +kernel, by
      decide +kernel, by decide +kernel, by decide +kernel, by decide +kernel, by decide +kernel⟩

end Lowering

end SpecJit
