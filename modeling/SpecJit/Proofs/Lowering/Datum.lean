import SpecJit.Simulation
import SpecJit.Proofs.Lir.Integers
import SpecJit.Proofs.Lowering.Checks

/-!
# The value of a node and the forms that show it

A node has one value, a `Datum` in the form in which its operation yields it. The lowering may hold
the node in several forms at once; `Holds` says that each register of these shows the value. Boxing
the node gives the word `Datum.box`, which follows what the facts say of the node (`boxHeld_runs`).
-/

namespace SpecJit

open Lir

/-- The machine type of a form. -/
def Form.type : Form → Ty
  | .int32 | .boolean => .i32
  | .double => .f64
  | .int52 | .strictInt52 | .jsValue | .storage => .i64

/-- The value of a node. -/
inductive Datum where
  | int32 (n : Int32)
  | int52 (n : Int64)
  | double (d : Double)
  | boolean (b : Bool)
  | boxed (w : Word)

namespace Datum

/-- The word shows the value in a form. No other forms are ever recorded of such a value. -/
def Shows : Datum → Form → Word → Prop
  | .int32 n, .int32, u => u = ofInt32 n
  | .int32 n, .jsValue, u => u = Value.boxInt32 n
  | .int52 n, .strictInt52, u => u = n.toUInt64
  | .int52 n, .int52, u => u.toInt64 >>> 12 = n
  | .int52 n, .jsValue, u => u = Value.boxInt52 n
  | .double d, .double, u => u = d.bits
  | .double d, .jsValue, u =>
    u = Value.boxDouble d ∨ d.isNaN = true ∧ u = Value.boxDouble Double.pureNaN
  | .boolean b, .boolean, u => u = ofBool b
  | .boolean b, .jsValue, u => u = Value.boxBoolean b
  | .boxed w, .jsValue, u => u = w
  | .boxed w, .int32, u => Value.isInt32 w = true ∧ u = ofInt32 (Value.unboxInt32 w)
  | .boxed w, .boolean, u => Value.isBoolean w = true ∧ u = ofBool (Value.unboxBoolean w)
  | _, _, _ => False

/-- The word that the lowering boxes a value to, if the facts allow the kinds `ty`. -/
def box (ty : SpecType) : Datum → Word
  | .int32 n => Value.boxInt32 n
  | .int52 n => if ty.isSubsetOf .int32 then Value.boxInt32 n.toInt32 else Value.boxInt52 n
  | .double d =>
    (if ty.couldBeImpureNaN && d.isNaN then Double.pureNaN else d).bits + Value.doubleOffset
  | .boolean b => Value.boxBoolean b
  | .boxed w => w

/-- A word that a value may be boxed to, if the facts allow the kinds `ty`. -/
def BoxesTo (x : Datum) (ty : SpecType) (w : Word) : Prop := x.Shows .jsValue w ∨ w = x.box ty

end Datum

namespace Lir

theorem low32_toUInt64 (n : Int64) : low32 n.toUInt64 = n.toInt32 := by
  apply Int32.toBitVec_inj.1
  simp [low32, BitVec.signExtend_eq_setWidth_of_le]

theorem low32_truncate (w : Word) : low32 w.toUInt32.toUInt64 = low32 w := by
  simp only [low32, UInt32.toUInt32_toUInt64]

/-- The runtime boxes integers of 52 bits as documented, without touching memory. -/
def Machine.BoxesInt52 {σ : Type} (m : Machine σ) (memory : Memory) : Prop :=
  ∀ n t, ∃ t', m.runtime.callHelper .boxInt52 [n] t memory = (Value.boxInt52 n.toInt64, t', memory)

/-- A machine whose runtime only converts numbers. -/
def Machine.plain (f : Function) : Machine Unit where
  func := f
  context := 0
  frame := 0
  runtime := {
    callHelper := fun h args _ memory => (Simulation.plainAnswer 0 h args, (), memory)
    patchpoint := fun _ _ _ memory => (0, (), memory) }

theorem Machine.plain_boxesInt52 (f : Function) (memory : Memory) :
    (plain f).BoxesInt52 memory := fun _ _ => ⟨(), rfl⟩

/-- A machine whose runtime also tells whether values are true. -/
def Machine.truthful (f : Function) : Machine Unit where
  func := f
  context := 0
  frame := 0
  runtime := {
    callHelper := fun h args _ memory => (match h, args with
      | .toBoolean, [w] => ofBool (Value.truthy {} memory w)
      | _, _ => Simulation.plainAnswer 0 h args, (), memory)
    patchpoint := fun _ _ _ memory => (0, (), memory) }

theorem Machine.truthful_boxesInt52 (f : Function) (memory : Memory) :
    (truthful f).BoxesInt52 memory := fun _ _ => ⟨(), rfl⟩

theorem Machine.truthful_tellsTruth (f : Function) (memory : Memory) :
    (truthful f).TellsTruth {} memory := fun _ _ _ _ => ⟨(), rfl⟩

end Lir

namespace Lowering

variable {α : Type} {σ : Type} {m : Machine σ} {c : Config σ} {env : Env} {s s' : State}
  {id : NodeId} {node : Node} {x : Datum} {r : Reg} {known : AbstractValue} {form : Form}

/-! ## Forms that are held -/

/-- The register that holds a node in a form, if it is defined here. -/
def heldIn (env : Env) (s : State) (id : NodeId) (form : Form) : Option Reg :=
  match s.values.lookup (id, form) with
  | none => none
  | some (r, recorded) => if env.dominators.dominates recorded s.block then some r else none

theorem held?_eq : held? id form env s = .ok (heldIn env s id form, s) := by
  rw [held?, get_bind, heldIn]
  cases s.values.lookup (id, form) <;> rfl

theorem held?_bind (f : Option Reg → Lower α) :
    (held? id form >>= f) env s = f (heldIn env s id form) env s :=
  bind_of_ok held?_eq f

theorem record_builder {u : Unit} (h : record id form r env s = .ok (u, s')) :
    s'.builder = s.builder := by
  cases h
  dsimp only
  split <;> rfl

/-- Every form in which the node is held shows its value, and so does the constant of a constant
node. A boxed value that is no constant is held as such. -/
structure Holds (env : Env) (s : State) (c : Config σ) (id : NodeId) (node : Node) (x : Datum) :
    Prop where
  found : env.graph.node id = .ok node
  shown : ∀ form r, heldIn env s id form = some r → ∃ u, x.Shows form u ∧
    c.Has s.builder r form.type u
  constant : ∀ w, node.op.constantWord? = some w → x.Shows .jsValue w
  boxed : ∀ w, x = .boxed w → node.op.constantWord? = none →
    (heldIn env s id .jsValue).isSome = true

theorem Holds.none_of_not_shows (hx : Holds env s c id node x) (h : ∀ u, ¬ x.Shows form u) :
    heldIn env s id form = none := by
  cases hr : heldIn env s id form with
  | none => rfl
  | some r =>
    obtain ⟨u, hu, -⟩ := hx.shown form r hr
    exact absurd hu (h u)

/-! ## Boxing -/

/-- A node that holds an integer of 52 bits, as that integer. -/
theorem asStrictInt52_runs {n : Int64} {e : Edge} (h : asStrictInt52 e env s = .ok (r, s'))
    (hm : s'.builder.Completes m.func) (hc : m.At s.builder c)
    (hx : Holds env s c e.node node (.int52 n))
    (hop : node.op = .int52Constant n ∨ node.op.constantWord? = none) :
    m.Runs s.builder c s'.builder fun c' => c'.Has s'.builder r .i64 n.toUInt64 := by
  rw [asStrictInt52, held?_bind] at h
  cases hs : heldIn env s e.node .strictInt52 with
  | some r₁ =>
    obtain ⟨u, rfl, hr⟩ := hx.shown _ _ hs
    rw [hs] at h
    cases h
    exact .refl hc hr
  | none =>
    rw [hs] at h
    dsimp only at h
    rw [held?_bind] at h
    cases hi : heldIn env s e.node .int52 with
    | some r₁ =>
      obtain ⟨u, rfl, hr⟩ := hx.shown _ _ hi
      rw [hi] at h
      obtain ⟨r₂, b₂, h₂, h⟩ := emit_bind_ok h
      obtain ⟨_, s₃, h₃, h⟩ := bind_ok h
      cases h
      rw [record_builder h₃] at hm ⊢
      refine (Emit.binaryImm_yields hr).congr ?_ (.refl c _) hc h₂ hm
      rfl
    | none =>
      rw [hi] at h
      obtain ⟨node', hnode, h⟩ := getNode_bind_ok h
      rw [hx.found] at hnode
      cases hnode
      rcases hop with hconst | hconst
      · rw [hconst] at h
        obtain ⟨b', hb, rfl⟩ := emit_ok h
        refine (Emit.iconst_yields _).congr ?_ (.refl c _) hc hb hm
        simp
      · -- an operation that yields an integer of 52 bits is held as one
        have hnarrow : heldIn env s e.node .int32 = none := hx.none_of_not_shows fun _ hu => hu
        cases ho : node.op <;> rw [ho] at h hconst <;>
          first
          | dsimp only at h
            rw [held?_bind, hnarrow] at h
            cases h
          | cases hconst

theorem callHelper_one {helper : Helper} {arg : Reg}
    (h : callHelper helper [arg] env s = .ok (r, s')) (hp : helper.paramCount = 1) :
    ∃ b, Emit.call helper [arg] s.builder = .ok (r, b) ∧ s' = { s with builder := b } := by
  rw [callHelper, if_pos (by simp [hp])] at h
  exact emit_ok h

/-- Boxing an integer of 52 bits trusts a fact that says that it has 32. -/
theorem boxStrictInt52_runs {n : Int64} {strict : Reg}
    (h : boxStrictInt52 id strict env s = .ok (r, s')) (hm : s'.builder.Completes m.func)
    (hc : m.At s.builder c) (hr : c.Has s.builder strict .i64 n.toUInt64)
    (hknown : s.facts.factOf env.graph id = .ok known) (hbox : m.BoxesInt52 c.memory) :
    m.Runs s.builder c s'.builder fun c' =>
      c'.Has s'.builder r .i64 (Datum.box known.ty (.int52 n)) := by
  obtain ⟨known', s₁, h₁, h⟩ := bind_ok h
  obtain ⟨hknown', rfl⟩ := factOf_ok h₁
  rw [hknown] at hknown'
  cases hknown'
  rw [Datum.box]
  split at h
  · rename_i hty
    change known.ty.isSubsetOf .int32 = true at hty
    rw [if_pos hty]
    refine Yields.bind (.ofEmit (Emit.truncate_yields hr))
      (fun _ hlow => .ofEmit (boxInt32_yields hlow))
      (.refl c _) hc h hm |>.mono fun c' _ hc' => ?_
    rwa [low32_truncate, low32_toUInt64] at hc'
  · rename_i hty
    change ¬ known.ty.isSubsetOf .int32 = true at hty
    rw [if_neg hty]
    obtain ⟨b, hb, rfl⟩ := callHelper_one h rfl
    exact Emit.call_yields hr (hbox n.toUInt64) (.refl c _) hc hb hm

/-- Boxing the form in which a node is held. -/
theorem boxHeld_runs (h : boxHeld id env s = .ok (r, s')) (hm : s'.builder.Completes m.func)
    (hc : m.At s.builder c) (hx : Holds env s c id node x) (hb : ∀ w, x ≠ .boxed w)
    (hop : node.op.constantWord? = none) (hknown : s.facts.factOf env.graph id = .ok known)
    (hbox : m.BoxesInt52 c.memory) :
    m.Runs s.builder c s'.builder fun c' => c'.Has s'.builder r .i64 (x.box known.ty) := by
  rw [boxHeld, held?_bind] at h
  cases hint : heldIn env s id .int32 with
  | some r₁ =>
    obtain ⟨u, hu, hr⟩ := hx.shown _ _ hint
    rw [hint] at h
    cases x with
    | int32 n =>
      obtain rfl := hu
      refine Yields.ofEmit (boxInt32_yields hr) (.refl c _) hc h hm |>.mono fun c' _ hc' => ?_
      rwa [low32_ofInt32] at hc'
    | boxed w => exact absurd rfl (hb w)
    | _ => exact False.elim hu
  | none =>
  rw [hint] at h
  dsimp only at h
  rw [held?_bind] at h
  cases hbool : heldIn env s id .boolean with
  | some r₁ =>
    obtain ⟨u, hu, hr⟩ := hx.shown _ _ hbool
    rw [hbool] at h
    cases x with
    | boolean b =>
      obtain rfl := hu
      exact Yields.ofEmit (boxBoolean_yields hr) (.refl c _) hc h hm
    | boxed w => exact absurd rfl (hb w)
    | _ => exact False.elim hu
  | none =>
  rw [hbool] at h
  dsimp only at h
  rw [held?_bind] at h
  cases hdouble : heldIn env s id .double with
  | some r₁ =>
    obtain ⟨u, hu, hr⟩ := hx.shown _ _ hdouble
    rw [hdouble] at h
    obtain ⟨known', s₁, h₁, h⟩ := bind_ok h
    obtain ⟨hknown', rfl⟩ := factOf_ok h₁
    rw [hknown] at hknown'
    cases hknown'
    cases x with
    | double d =>
      obtain rfl := hu
      exact Yields.ofEmit (boxDouble_yields hr _) (.refl c _) hc h hm
    | boxed w => exact absurd rfl (hb w)
    | _ => exact False.elim hu
  | none =>
  rw [hdouble] at h
  dsimp only at h
  rw [held?_bind, held?_bind] at h
  split at h
  · rename_i hsome
    obtain ⟨strict, s₁, h₁, h⟩ := bind_ok h
    cases x with
    | int52 n =>
      have e₁ : s.builder.Emits [] s₁.builder := Tidy.after h₁ (.refl hc.wf)
      have e₂ : s₁.builder.Emits [] s'.builder := Tidy.after h (.refl e₁.after)
      have hfacts := (inferInstance : KeepsFacts (asStrictInt52 { node := id })).kept _ _ _ _ h₁
      refine (asStrictInt52_runs h₁ (e₂.toExtends.completes hm) hc hx (.inr hop)).bind
        e₁.toExtends e₂.toGrows fun c₁ hc₁ hk hstrict => ?_
      refine boxStrictInt52_runs h hm hc₁ hstrict (by rw [hfacts.1]; exact hknown) ?_
      rw [hk.memory]
      exact hbox
    | boxed w => exact absurd rfl (hb w)
    | _ =>
      have hstrict : heldIn env s id .strictInt52 = none := hx.none_of_not_shows fun _ hu => hu
      have hshifted : heldIn env s id .int52 = none := hx.none_of_not_shows fun _ hu => hu
      rw [hstrict, hshifted] at hsome
      cases hsome
  · cases h

/-- The word that a node is boxed to shows its value, unless it is boxed here and as the facts say.
-/
theorem boxedNode_runs (hc : m.At s.builder c) (hx : Holds env s c id node x)
    (hknown : s.facts.factOf env.graph id = .ok known) (hbox : m.BoxesInt52 c.memory) :
    ∃ w, (x.Shows .jsValue w ∨ node.op.constantWord? = none ∧ w = x.box known.ty) ∧
      ∀ {r s'}, boxedNode id env s = .ok (r, s') → s'.builder.Completes m.func →
        m.Runs s.builder c s'.builder fun c' => c'.Has s'.builder r .i64 w := by
  unfold boxedNode
  cases hj : heldIn env s id .jsValue with
  | some r₁ =>
    obtain ⟨u, hu, hr⟩ := hx.shown _ _ hj
    refine ⟨u, .inl hu, fun h hm => ?_⟩
    rw [held?_bind, hj] at h
    cases h
    exact .refl hc hr
  | none =>
    cases hw : node.op.constantWord? with
    | some w =>
      refine ⟨w, .inl (hx.constant w hw), fun h hm => ?_⟩
      rw [held?_bind, hj] at h
      obtain ⟨node', hnode, h⟩ := getNode_bind_ok h
      rw [hx.found] at hnode
      cases hnode
      rw [hw] at h
      obtain ⟨r₁, b₁, h₁, h⟩ := emit_bind_ok h
      obtain ⟨_, s₂, h₂, h⟩ := bind_ok h
      cases h
      rw [record_builder h₂] at hm ⊢
      exact Emit.word_yields w (.refl c _) hc h₁ hm
    | none =>
      refine ⟨_, .inr ⟨rfl, rfl⟩, fun h hm => ?_⟩
      rw [held?_bind, hj] at h
      obtain ⟨node', hnode, h⟩ := getNode_bind_ok h
      rw [hx.found] at hnode
      cases hnode
      rw [hw] at h
      obtain ⟨r₁, s₁, h₁, h⟩ := bind_ok h
      obtain ⟨_, s₂, h₂, h⟩ := bind_ok h
      cases h
      rw [record_builder h₂] at hm ⊢
      have hb (w : Word) : x ≠ .boxed w := fun he => by
        have hheld := hx.boxed w he hw
        rw [hj] at hheld
        cases hheld
      exact boxHeld_runs h₁ hm hc hx hb hw hknown hbox

end Lowering

end SpecJit
