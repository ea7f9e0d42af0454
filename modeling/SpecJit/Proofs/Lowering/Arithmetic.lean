import SpecJit.Lowering
import SpecJit.Proofs.Lowering.Evaluation

/-!
# Checks of arithmetic

The checks of an operation follow its mode. Each one leaves under one condition on the words that it
reads, whatever integers these words hold (`checkOverflow_guards`, `checkNegativeZero_guards`,
`checkNegatedZero_guards`); `Operands` says which integers the uses of an operation are.
-/

namespace SpecJit.Lowering

open Lir

section Checks

variable {σ : Type} {m : Machine σ} {env : Env} {b : Builder} {c : Config σ} {id : NodeId}
  {form : Form} {mode : ArithMode} {kind : ExitKind} {lhs rhs r : Reg} {ty ty' : Ty} {v w : Word}
  {t t' : Bool} {o : Except ExitKind Word}

theorem checkOverflow_guards {op : OverflowOp} (hl : c.Has b lhs ty v) (hr : c.Has b rhs ty' w) :
    Guards m env b c (checkOverflow mode kind op lhs rhs) kind (mode.checksOverflow &&
      op.eval ty v w) :=
  .ite fun _ => .bind (.ofEmit (Emit.overflows_yields hl hr)) fun _ ht => guards_speculate ht

theorem checkNegativeZero_guards {isZero isNegative : Emit Reg} [isZero.Tidy] [isNegative.Tidy]
    (hzero : isZero.Yields m b c .i32 (ofBool t))
    (hnegative : isNegative.Yields m b c .i32 (ofBool t')) :
    Guards m env b c (checkNegativeZero mode isZero isNegative) .negativeZero
      (mode.checksNegativeZero && (t && t')) := by
  refine .ite fun _ => .bind (.ofEmit hzero) fun hf ht => ?_
  refine .bind (Yields.later (.ofEmit hnegative) hf) fun hf' ht' => ?_
  exact .bind (.ofEmit ((Emit.binary_yields (ht.later hf') ht').congr (BinaryOp.and_ofBool _ _)))
    fun _ hr => guards_speculate hr

theorem checkNegatedZero_guards (hzero : (Emit.icmpImm .eq r 0).Yields m b c .i32 (ofBool t)) :
    Guards m env b c (checkNegatedZero mode r) .negativeZero (mode.checksNegativeZero && t) :=
  .ite fun _ => .bind (.ofEmit hzero) fun _ ht => guards_speculate ht

/-- A product, with its checks, before the rest of the code. -/
theorem multiply_finishes {f : Reg → Lower Unit} {product : Word} [∀ r, Tidy (f r)]
    [∀ r, KeepsExits (f r)]
    (hl : c.Has b lhs ty v) (hr : c.Has b rhs ty' w)
    (hproduct : ∀ {b' c'}, c.Follows b c' b' → (Emit.binary .mul lhs rhs).Yields m b' c' ty product)
    (hzero : ∀ {r b' c'}, c'.Has b' r ty product → (Emit.icmpImm .eq r 0).Yields m b' c' .i32
      (ofBool t))
    (hnegative : ∀ {b' c'}, c.Follows b c' b' → (eitherNegative lhs rhs).Yields m b' c' .i32
      (ofBool t'))
    (hf : ∀ {r b' c'}, c'.Has b' r ty product → Finishes m env b' c' id form (f r) o) :
    Finishes m env b c id form (multiply mode kind lhs rhs >>= f)
      (if mode.checksOverflow && OverflowOp.mul.eval ty v w then .error kind
        else if mode.checksNegativeZero && (t && t') then .error .negativeZero else o) := by
  simp only [multiply, bind_assoc, pure_bind]
  refine .guard (checkOverflow_guards hl hr) fun _ _ _ hf₁ => ?_
  refine .bind (.ofEmit (hproduct hf₁)) fun hf₂ hr' => ?_
  refine .guard (checkNegativeZero_guards (hzero hr') (hnegative (hf₁.trans hf₂)))
    fun _ _ _ hf₃ => ?_
  exact hf (hr'.later hf₃)

end Checks

/-! ## Uses -/

section Uses

variable {α σ : Type} {m : Machine σ} {env : Env} {s s' : State} {c : Config σ} {id : NodeId}
  {node : Node} {l r : Reg} {a b : α} {form form' : Edge → Lower Reg}
  {Is : State → Config σ → NodeId → α → Prop} {ty ty' : Ty} {word word' : α → Word}

/-- The first use of a node stands for `a`, and the second one, if there is one, for `b`. -/
structure Operands {α : Type} (Is : NodeId → α → Prop) (node : Node) (a b : α) : Prop where
  first : ∀ {e}, node.child 0 = .ok e → Is e.node a
  second : ∀ {e}, node.child 1 = .ok e → Is e.node b
  same : ∀ {e e'}, node.child 0 = .ok e → node.child 1 = .ok e' → e'.node = e.node → b = a

/-- Reading a use in a form, before the rest of the code of node `id`, gives the word for what the
use is, and keeps what other uses are. -/
def ReadsAs (m : Machine σ) (env : Env) (id : NodeId) (form : Edge → Lower Reg)
    (Is : State → Config σ → NodeId → α → Prop) (ty : Ty) (word : α → Word) : Prop :=
  ∀ ⦃e r s s' c n⦄, form e env s = .ok (r, s') → s'.builder.Completes m.func → m.At s.builder c →
    Is s c e.node n → Ready s id →
    Ready s' id ∧ s'.block = s.block ∧ m.Runs s.builder c s'.builder fun c' =>
      c'.Has s'.builder r ty (word n) ∧
      ∀ {x k}, (x = e.node → k = n) → Is s c x k → Is s' c' x k

theorem ReadsAs.first (hform : ReadsAs m env id form Is ty word)
    (h : (do form (← node.child 0) : Lower Reg) env s = .ok (r, s'))
    (hm : s'.builder.Completes m.func) (hc : m.At s.builder c) (hargs : Operands (Is s c) node a b)
    (hready : Ready s id) :
    Ready s' id ∧ s'.block = s.block ∧ m.Runs s.builder c s'.builder fun c' =>
      c'.Has s'.builder r ty (word a) := by
  obtain ⟨e, he, h⟩ := check_bind_ok h
  obtain ⟨hready', hblock, hruns⟩ := hform h hm hc (hargs.first he) hready
  exact ⟨hready', hblock, hruns.mono fun _ _ hr => hr.1⟩

theorem ReadsAs.both [∀ e, Tidy (form e)] [∀ e, Tidy (form' e)]
    (hfirst : ReadsAs m env id form Is ty word)
    (hsecond : ReadsAs m env id form' Is ty' word')
    (h : (do
      let lhs ← form (← node.child 0)
      let rhs ← form' (← node.child 1)
      return (lhs, rhs) : Lower (Reg × Reg)) env s = .ok ((l, r), s'))
    (hm : s'.builder.Completes m.func) (hc : m.At s.builder c) (hargs : Operands (Is s c) node a b)
    (hready : Ready s id) :
    Ready s' id ∧ s'.block = s.block ∧ m.Runs s.builder c s'.builder fun c' =>
      c'.Has s'.builder l ty (word a) ∧ c'.Has s'.builder r ty' (word' b) := by
  obtain ⟨e, he, h⟩ := check_bind_ok h
  obtain ⟨l', s₁, h₁, h⟩ := bind_ok h
  obtain ⟨e', he', h⟩ := check_bind_ok h
  obtain ⟨r', s₂, h₂, h⟩ := bind_ok h
  cases h
  have e₁ : s.builder.Emits [] s₁.builder := Tidy.after h₁ (.refl hc.wf)
  have e₂ : s₁.builder.Emits [] s'.builder := Tidy.after h₂ (.refl e₁.after)
  obtain ⟨hready₁, hblock₁, c₁, hgoes, hc₁, hk, hl, hkeep⟩ :=
    hfirst h₁ (e₂.toExtends.completes hm) hc (hargs.first he) hready
  have hruns₁ : m.Runs s.builder c s₁.builder (· = c₁) := ⟨c₁, hgoes, hc₁, hk, rfl⟩
  have hnext := hkeep (hargs.same he he') (hargs.second he')
  obtain ⟨hready₂, hblock₂, hruns₂⟩ := hsecond h₂ hm hc₁ hnext hready₁
  refine ⟨hready₂, hblock₂.trans hblock₁, hruns₁.bind e₁.toExtends e₂.toGrows fun c' _ _ hc' => ?_⟩
  subst hc'
  exact hruns₂.mono fun c₂ hk₂ hr => ⟨hl.keep e₂.toExtends hk₂, hr.1⟩

end Uses

/-! ## Two arguments -/

namespace TwoArguments

/-- Returns what an operation makes of two arguments. -/
def graph (node : Node) (format : FlushFormat) (result : NodeResult) : Graph where
  name := "twoArguments"
  nodes := #[
    { op := .getStack { operand := .arg 1, slot := .arg 1, format }, result },
    { op := .getStack { operand := .arg 2, slot := .arg 2, format }, result },
    node,
    { op := .ret, children := [{ node := ⟨2⟩ }] }]
  blocks := #[{ index := ⟨0⟩, nodes := #[⟨0⟩, ⟨1⟩, ⟨2⟩, ⟨3⟩] }]
  numArguments := 3
  numLocals := 0

def env (g : Graph) : Env where
  graph := g
  options := {}
  layout := {}
  dominators := { parents := #[some ⟨0⟩], numbers := #[some 0] }
  availabilityHeads := #[]
  phiParams := []
  exitOnly := g.exitOnlyNodes
  context := ⟨0⟩
  frame := ⟨1⟩

/-- Before the operation: registers 2 and 3 hold the arguments. -/
def before (g : Graph) (form : Form) : State where
  builder := {
    func := { name := "twoArguments", blocks := #[{}], types := #[.i64, .i64, .i64, .i64] }
    terminated := #[false]
    current := ⟨0⟩ }
  facts := { blocks := #[], current := .empty g, valid := true }
  availability := .empty g
  values := [((⟨0⟩, form), ⟨2⟩, ⟨0⟩), ((⟨1⟩, form), ⟨3⟩, ⟨0⟩)]

def config (f : Function) (v w : Word) : Config Unit where
  registers := ((Array.replicate f.types.size none).setIfInBounds 2 (some v)).setIfInBounds 3
    (some w)
  memory := {}
  runtimeState := ()

theorem before_at (g : Graph) (form : Form) (f : Function) (v w : Word) :
    (Machine.plain f).At (before g form).builder (config f v w) where
  wf := ⟨rfl, Nat.zero_lt_one⟩
  isOpen := rfl
  block := rfl
  position blk hb := by cases hb; rfl
  registers := by simp [config, Machine.plain]

theorem before_ready (g : Graph) (form : Form) : Ready (before g form) ⟨2⟩ where
  valid := rfl
  depth := rfl
  fresh form' := by cases form' <;> cases form <;> rfl

theorem config_has {g : Graph} {form : Form} {f : Function} {v w : Word} (hf : 3 < f.types.size) :
    (config f v w).Has (before g form).builder ⟨2⟩ .i64 v ∧
    (config f v w).Has (before g form).builder ⟨3⟩ .i64 w := by
  refine ⟨⟨rfl, ?_⟩, rfl, ?_⟩
  · simp [config, Nat.lt_of_succ_lt hf]
  · simp [config, hf]

end TwoArguments

end SpecJit.Lowering
