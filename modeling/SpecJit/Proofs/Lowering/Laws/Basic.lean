import SpecJit.Lowering.Forms
import SpecJit.Proofs.Lir.Growth

/-!
# What holds of all lowering steps

A law is a relation between states that composes, and `Obeys R x` says that it holds between the
states before and after the lowering step `x`. A law that holds of the ways in which steps build
(`Law.Computes`, `Law.Codes`) holds of the steps that are made of them, so that the instances for
the single routines are stated once, for all laws: which facts change (`keepingFacts`), which exits
stay (`keepingExits`), what is recorded (`recordingNothing`), what blocks end with (`Unambiguous`).
A law that code does not matter to (`Law.Uncoded`), or the order of blocks (`Law.Rebuilds`), holds
of more steps. What registers a step reads and what two runs have in common is no law: it says more
than a relation of two states, and depends on the values that the step gives.

A step that obeys one law up to some point and another one from there on is `Staged`: the code of a
node reads its uses first, and then does what is left to do.

`Tidy x` is the instance for steps that leave nothing pending: from a well-formed builder, `x` gets
to a builder in which every block that it made has its terminator, except the one that it goes on in
(`Builder.Emits`). The combinators `diamond`, `when` and `successorBlock` go through blocks that are
pending, and are tidy as a whole.
-/

namespace SpecJit

theorem Node.mem_of_child {node : Node} {i : Nat} {e : Edge} (h : node.child i = .ok e) :
    e ∈ node.children := by
  unfold Node.child Fault.ofOption at h
  split at h
  · rename_i he
    cases h
    exact List.mem_of_getElem? he
  · cases h

namespace Lowering

open Lir

variable {α β : Type} {env : Env} {s s' : State}

/-! ## Inversion -/

theorem bind_ok {x : Lower α} {f : α → Lower β} {r : β × State} (h : (x >>= f) env s = .ok r) :
    ∃ a s₁, x env s = .ok (a, s₁) ∧ f a env s₁ = .ok r := by
  change (x env s >>= fun p => f p.1 env p.2) = .ok r at h
  cases hx : x env s with
  | error e => rw [hx] at h; cases h
  | ok p => rw [hx] at h; exact ⟨p.1, p.2, rfl, h⟩

theorem bind_of_ok {x : Lower α} {a : α} (h : x env s = .ok (a, s')) (f : α → Lower β) :
    (x >>= f) env s = f a env s' := by
  change (x env s >>= fun p => f p.1 env p.2) = _
  rw [h]
  rfl

theorem forM_cons (f : α → Lower Unit) (a : α) (l : List α) :
    (a :: l).forM f = (f a >>= fun _ => l.forM f) := rfl

theorem forM_append (f : α → Lower Unit) (l l' : List α) :
    (l ++ l').forM f env s = (l.forM f >>= fun _ => l'.forM f) env s := by
  induction l generalizing s with
  | nil => rfl
  | cons a l ih =>
    rw [List.cons_append, forM_cons, forM_cons, bind_assoc]
    change (f a env s >>= fun p => _) = (f a env s >>= fun p => _)
    exact congrArg _ (funext fun p => ih)

theorem forM_append_ok {f : α → Lower Unit} {l l' : List α} {u : Unit}
    (h : (l ++ l').forM f env s = .ok (u, s')) :
    ∃ s₁, l.forM f env s = .ok ((), s₁) ∧ l'.forM f env s₁ = .ok (u, s') := by
  rw [forM_append] at h
  obtain ⟨_, s₁, h₁, h⟩ := bind_ok h
  exact ⟨s₁, h₁, h⟩

theorem emit_ok {x : Emit α} {a : α} (h : (liftM x : Lower α) env s = .ok (a, s')) :
    ∃ b', x s.builder = .ok (a, b') ∧ s' = { s with builder := b' } := by
  change emit x env s = _ at h
  dsimp only [emit] at h
  cases hx : x s.builder with
  | error e => rw [hx] at h; cases h
  | ok p =>
    rw [hx] at h
    cases h
    exact ⟨p.2, rfl, rfl⟩

theorem check_ok {x : Except Fault α} {a : α} (h : (liftM x : Lower α) env s = .ok (a, s')) :
    x = .ok a ∧ s' = s := by
  cases x with
  | error e => cases h
  | ok a' => cases h; exact ⟨rfl, rfl⟩

theorem emit_bind_ok {x : Emit α} {f : α → Lower β} {r : β × State}
    (h : ((liftM x : Lower α) >>= f) env s = .ok r) :
    ∃ a b', x s.builder = .ok (a, b') ∧ f a env { s with builder := b' } = .ok r := by
  obtain ⟨a, s₁, h₁, h₂⟩ := bind_ok h
  obtain ⟨b', hb, rfl⟩ := emit_ok h₁
  exact ⟨a, b', hb, h₂⟩

theorem check_bind_ok {x : Except Fault α} {f : α → Lower β} {r : β × State}
    (h : ((liftM x : Lower α) >>= f) env s = .ok r) : ∃ a, x = .ok a ∧ f a env s = .ok r := by
  obtain ⟨a, s₁, h₁, h₂⟩ := bind_ok h
  obtain ⟨hx, rfl⟩ := check_ok h₁
  exact ⟨a, hx, h₂⟩

theorem getNode_bind_ok {id : NodeId} {f : Node → Lower β} {r : β × State}
    (h : (getNode id >>= f) env s = .ok r) :
    ∃ node, env.graph.node id = .ok node ∧ f node env s = .ok r :=
  check_bind_ok h

theorem read_bind (f : Env → Lower α) : ((read : Lower Env) >>= f) env s = f env env s := rfl

theorem get_bind (f : State → Lower α) : ((get : Lower State) >>= f) env s = f s env s := rfl

/-! ## What holds of all steps -/

/-- A relation between the states before and after steps that holds of nothing at all, and of one
step after the other. -/
structure Law where
  rel : Env → State → State → Prop
  refl : ∀ env s, rel env s s
  trans : ∀ {env s s₁ s₂}, rel env s s₁ → rel env s₁ s₂ → rel env s s₂

variable {R : Law}

/-- The law holds between the states before and after the step. -/
class Obeys (R : Law) (x : Lower α) : Prop where
  obeys : ∀ env s a s', x env s = .ok (a, s') → R.rel env s s'

/-- What holds of a step holds of it under a weaker law. -/
theorem Obeys.mono {R' : Law} {x : Lower α} (hx : Obeys R x)
    (h : ∀ env s s', R.rel env s s' → R'.rel env s s') : Obeys R' x where
  obeys env s a s' hok := h env s s' (hx.obeys env s a s' hok)

theorem Obeys.of_ok {x : Lower α} (hx : Obeys R x) {a : α} (h : x env s = .ok (a, s')) :
    R.rel env s s' := hx.obeys env s a s' h

/-- What a law says of builders, all else being equal. -/
def Law.emitted (R : Law) : Builder.Law where
  rel b b' := ∀ env (s : State), R.rel env { s with builder := b } { s with builder := b' }
  refl b env s := R.refl env { s with builder := b }
  trans h₁ h₂ env s := R.trans (h₁ env s) (h₂ env s)

instance (x : Emit α) [hx : x.Obeys R.emitted] : Obeys R (liftM x : Lower α) where
  obeys env s a s' h := by
    obtain ⟨b', hb, rfl⟩ := emit_ok h
    exact hx.obeys s.builder a b' hb env s

theorem obeys_of_eq {x : Lower α} (h : ∀ env s a s', x env s = .ok (a, s') → s' = s) :
    Obeys R x where
  obeys env s a s' hx := by
    rw [h env s a s' hx]
    exact R.refl env s

instance (a : α) : Obeys R (pure a : Lower α) := obeys_of_eq fun _ _ _ _ h => by cases h; rfl

/-- What follows may use that the value is one that the step gives. -/
theorem Obeys.bind_result {x : Lower α} {f : α → Lower β} (hx : Obeys R x)
    (hf : ∀ env s a s', x env s = .ok (a, s') → Obeys R (f a)) : Obeys R (x >>= f) where
  obeys env s c s' h := by
    obtain ⟨a, s₁, h₁, h₂⟩ := bind_ok h
    exact R.trans (hx.of_ok h₁) ((hf env s a s₁ h₁).of_ok h₂)

theorem Obeys.bind {x : Lower α} {f : α → Lower β} (hx : Obeys R x) (hf : ∀ a, Obeys R (f a)) :
    Obeys R (x >>= f) := hx.bind_result fun _ _ a _ _ => hf a

instance (x : Lower α) (f : α → Lower β) [hx : Obeys R x] [hf : ∀ a, Obeys R (f a)] :
    Obeys R (x >>= f) := hx.bind hf

instance (c : Prop) [Decidable c] (x y : Lower α) [hx : Obeys R x] [hy : Obeys R y] :
    Obeys R (if c then x else y) := by
  split
  · exact hx
  · exact hy

instance (x : Except Fault α) : Obeys R (liftM x : Lower α) :=
  obeys_of_eq fun _ _ _ _ h => (check_ok h).2

instance (x : Except Fault α) : Obeys R (check x : Lower α) := inferInstanceAs (Obeys R (liftM x))

instance : Obeys R (read : Lower Env) := obeys_of_eq fun _ _ _ _ h => by cases h; rfl

instance : Obeys R (get : Lower State) := obeys_of_eq fun _ _ _ _ h => by cases h; rfl

instance (cause : CrashCause) : Obeys R (crash cause : Lower α) := ⟨fun _ _ _ _ h => by cases h⟩

theorem Obeys.forM {f : α → Lower Unit} {l : List α} (hf : ∀ a ∈ l, Obeys R (f a)) :
    Obeys R (l.forM f) := by
  induction l with
  | nil => exact inferInstanceAs (Obeys R (pure _))
  | cons a l ih =>
    have := hf a List.mem_cons_self
    have := ih fun b hb => hf b (List.mem_cons_of_mem a hb)
    exact inferInstanceAs (Obeys R (f a >>= fun _ => l.forM f))

instance (f : α → Lower Unit) (l : List α) [hf : ∀ a, Obeys R (f a)] : Obeys R (l.forM f) :=
  .forM fun a _ => hf a

theorem Obeys.mapM {f : α → Lower β} {l : List α} (hf : ∀ a ∈ l, Obeys R (f a)) :
    Obeys R (l.mapM f) := by
  induction l with
  | nil => exact inferInstanceAs (Obeys R (pure _))
  | cons a l ih =>
    have := hf a List.mem_cons_self
    have := ih fun b hb => hf b (List.mem_cons_of_mem a hb)
    rw [List.mapM_cons]
    infer_instance

instance (f : α → Lower β) (l : List α) [hf : ∀ a, Obeys R (f a)] : Obeys R (l.mapM f) :=
  .mapM fun a _ => hf a

instance (f : α → Lower Bool) (l : List α) [∀ a, Obeys R (f a)] : Obeys R (l.anyM f) := by
  induction l with
  | nil => exact inferInstanceAs (Obeys R (pure _))
  | cons a l ih =>
    refine .bind inferInstance fun found => ?_
    split <;> infer_instance

theorem obeys_modify {f : State → State} (h : ∀ env s, R.rel env s (f s)) :
    Obeys R (modify f : Lower Unit) where
  obeys env s _ _ hx := by
    cases hx
    exact h env s

/-! ## Steps of two stages -/

/-- The step obeys `R` up to some point, and `R'` from there on. -/
class Staged (R R' : Law) (x : Lower α) : Prop where
  staged : ∀ env s a s', x env s = .ok (a, s') → ∃ s₁, R.rel env s s₁ ∧ R'.rel env s₁ s'

section Staged

variable {R' : Law} {x : Lower α} {f : α → Lower β}

/-- One stage under one law. -/
theorem Staged.obeys (hx : Staged R R x) : Obeys R x where
  obeys env s a s' h := by
    obtain ⟨s₁, h₁, h₂⟩ := hx.staged env s a s' h
    exact R.trans h₁ h₂

instance (priority := low) [hx : Obeys R' x] : Staged R R' x where
  staged env s a s' h := ⟨s, R.refl env s, hx.obeys env s a s' h⟩

instance (priority := low) [hx : Obeys R x] : Staged R R' x where
  staged env s a s' h := ⟨s', hx.obeys env s a s' h, R'.refl env s'⟩

/-- The second stage starts in the first step. -/
theorem Staged.andThen (hx : Staged R R' x) (hf : ∀ a, Obeys R' (f a)) : Staged R R' (x >>= f) where
  staged env s b s' h := by
    obtain ⟨a, s₂, h₁, h₂⟩ := bind_ok h
    obtain ⟨s₁, hfirst, hsecond⟩ := hx.staged env s a s₂ h₁
    exact ⟨s₁, hfirst, R'.trans hsecond ((hf a).obeys env s₂ b s' h₂)⟩

instance [hx : Staged R R' x] [hf : ∀ a, Obeys R' (f a)] : Staged R R' (x >>= f) := hx.andThen hf

/-- The first stage is not over. -/
theorem Staged.bind (hx : Obeys R x) (hf : ∀ a, Staged R R' (f a)) : Staged R R' (x >>= f) where
  staged env s b s' h := by
    obtain ⟨a, s₂, h₁, h₂⟩ := bind_ok h
    obtain ⟨s₁, hfirst, hsecond⟩ := (hf a).staged env s₂ b s' h₂
    exact ⟨s₁, R.trans (hx.obeys env s a s₂ h₁) hfirst, hsecond⟩

instance [hx : Obeys R x] [hf : ∀ a, Staged R R' (f a)] : Staged R R' (x >>= f) := .bind hx hf

instance (c : Prop) [Decidable c] (x y : Lower α) [hx : Staged R R' x] [hy : Staged R R' y] :
    Staged R R' (if c then x else y) := by
  split
  · exact hx
  · exact hy

end Staged

/-! ## Steps that use the operands of a node -/

section Children

variable {R' : Law} {node : Node} {i : Nat} {f : Edge → Lower β}

theorem obeys_child (hf : ∀ e ∈ node.children, Obeys R (f e)) :
    Obeys R ((liftM (node.child i) : Lower Edge) >>= f) where
  obeys env s a s' h := by
    obtain ⟨e, he, h⟩ := check_bind_ok h
    exact (hf e (Node.mem_of_child he)).obeys env s a s' h

theorem staged_child (hf : ∀ e ∈ node.children, Staged R R' (f e)) :
    Staged R R' ((liftM (node.child i) : Lower Edge) >>= f) where
  staged env s a s' h := by
    obtain ⟨e, he, h⟩ := check_bind_ok h
    exact (hf e (Node.mem_of_child he)).staged env s a s' h

instance (priority := high) [hf : ∀ e : {e // e ∈ node.children}, Staged R R' (f e.1)] :
    Staged R R' ((liftM (node.child i) : Lower Edge) >>= f) :=
  staged_child fun e he => hf ⟨e, he⟩

end Children

/-! Looking things up. -/

instance (id : NodeId) : Obeys R (getNode id) := by unfold getNode; infer_instance

instance (field : CellField) : Obeys R (fieldOffset field) := by unfold fieldOffset; infer_instance

instance (id : NodeId) : Obeys R (factOf id) := by unfold factOf; infer_instance

instance (id : NodeId) : Obeys R (typeOfNode id) := by unfold typeOfNode; infer_instance

instance (id : StructureId) : Obeys R (getStructure id) := by
  refine .bind inferInstance fun env => ?_
  split <;> infer_instance

instance (id : NodeId) (form : Form) : Obeys R (held? id form) := by
  refine .bind inferInstance fun s => ?_
  split <;> infer_instance

instance (id : NodeId) : Obeys R (isRecorded id) := by unfold isRecorded; infer_instance

/-! ## What holds of builders -/

/-- What a law says of the builders of states. -/
def onBuilders (Q : Builder.Law) : Law where
  rel _ s s' := Q.rel s.builder s'.builder
  refl _ s := Q.refl s.builder
  trans := Q.trans

section Builders

variable {Q : Builder.Law}

theorem emitted_onBuilders {b b' : Builder} (h : Q.rel b b') : (onBuilders Q).emitted.rel b b' :=
  fun _ _ => h

instance (x : Emit α) [hx : x.Obeys Q] : x.Obeys (onBuilders Q).emitted where
  obeys b a b' h := emitted_onBuilders (hx.obeys b a b' h)

instance [hQ : Emit.Computing Q] : Emit.Computing (onBuilders Q).emitted where
  compute hinst h := emitted_onBuilders (hQ.compute hinst h)

instance [hQ : Emit.Building Q] : Emit.Building (onBuilders Q).emitted where
  define h := emitted_onBuilders (hQ.define h)
  store h := emitted_onBuilders (hQ.store h)
  terminate ht h := emitted_onBuilders (hQ.terminate ht h)

instance [hQ : Emit.Rebuilding Q] : Emit.Rebuilding (onBuilders Q).emitted where
  createBlock h := emitted_onBuilders (hQ.createBlock h)
  switchTo h := emitted_onBuilders (hQ.switchTo h)
  blockParam h := emitted_onBuilders (hQ.blockParam h)

end Builders

/-- A lowering step that leaves nothing pending. -/
abbrev Tidy (x : Lower α) : Prop := Obeys (onBuilders Builder.settling) x

theorem Tidy.emits {x : Lower α} (hx : Tidy x) (env : Env) (s : State) (a : α) (s' : State)
    (hw : s.builder.WellFormed) (h : x env s = .ok (a, s')) : s.builder.Emits [] s'.builder :=
  hx.obeys env s a s' h hw

/-- A tidy step after other steps. -/
theorem Tidy.after {s₀ : State} {P : List BlockId} {x : Lower α} {a : α} [hx : Tidy x]
    (h : x env s = .ok (a, s')) (e : s₀.builder.Emits P s.builder) :
    s₀.builder.Emits P s'.builder :=
  e.trans (hx.emits env s a s' e.after h)

/-! ## Control -/

/-- An arm as the code that it is. -/
theorem inArm_ok {x : Lower α} {a : α} (h : inArm x env s = .ok (a, s')) :
    ∃ s₁, x env { s with armDepth := s.armDepth + 1 } = .ok (a, s₁) ∧
      s' = { s₁ with armDepth := s₁.armDepth - 1 } := by
  obtain ⟨_, s₁, h₁, h⟩ := bind_ok h
  cases h₁
  obtain ⟨a', s₂, h₂, h⟩ := bind_ok h
  obtain ⟨_, s₃, h₃, h⟩ := bind_ok h
  cases h₃
  cases h
  exact ⟨s₂, h₂, rfl⟩

section Pending

variable {s₀ : State} {P : List BlockId} {u : Unit}

theorem createBlock_after {cold : Bool} {id : BlockId}
    (h : (liftM (Emit.createBlock cold) : Lower BlockId) env s = .ok (id, s'))
    (e : s₀.builder.Emits P s.builder) : s₀.builder.Emits (P ++ [id]) s'.builder := by
  obtain ⟨b', hb, rfl⟩ := emit_ok h
  obtain ⟨rfl, rfl⟩ := Emit.createBlock_ok hb
  exact e.addBlock cold

theorem switchTo_after {p : BlockId}
    (h : (liftM (Emit.switchTo p) : Lower Unit) env s = .ok (u, s'))
    (e : s₀.builder.Emits P s.builder) (hc : s.builder.IsClosed s.builder.current.index)
    (hp : p ∈ P) :
    s₀.builder.Emits (P.erase p) s'.builder := by
  obtain ⟨b', hb, rfl⟩ := emit_ok h
  rw [Emit.switchTo_ok hb]
  exact e.goTo hc hp

theorem blockParam_after {p : BlockId} {ty : Ty} {r : Reg}
    (h : (liftM (Emit.blockParam p ty) : Lower Reg) env s = .ok (r, s'))
    (e : s₀.builder.Emits P s.builder) (hp : p ∈ P) : s₀.builder.Emits P s'.builder := by
  obtain ⟨b', hb, rfl⟩ := emit_ok h
  obtain ⟨-, rfl⟩ := Emit.blockParam_ok hb
  exact (e.trans (Builder.addReg_emits e.after ty)).addParam hp r

/-- A step that ends the current block. -/
theorem terminate_after {t : Terminator}
    (h : (liftM (Emit.terminate t) : Lower Unit) env s = .ok (u, s')) (ht : t ≠ .unreachable)
    (e : s₀.builder.Emits P s.builder) :
    s₀.builder.Emits P s'.builder ∧ s'.builder.IsClosed s'.builder.current.index := by
  obtain ⟨b', hb, rfl⟩ := emit_ok h
  exact ⟨e.trans ((Emit.tidy_terminate ht).emits _ _ _ e.after hb), Emit.terminate_closed e.after
    hb⟩

end Pending

instance (priority := high) (ty : Ty) (cond : Reg) (weight : BranchWeight)
    (thenArm elseArm : Lower Reg) [Tidy thenArm] [Tidy elseArm] :
    Tidy (diamond ty cond weight thenArm elseArm) where
  obeys env s a s' h hw := by
    obtain ⟨thenBlock, s₁, h₁, h⟩ := bind_ok h
    have e₁ := createBlock_after h₁ (.refl hw)
    obtain ⟨elseBlock, s₂, h₂, h⟩ := bind_ok h
    have e₂ := createBlock_after h₂ e₁
    obtain ⟨join, s₃, h₃, h⟩ := bind_ok h
    have e₃ := createBlock_after h₃ e₂
    obtain ⟨result, s₄, h₄, h⟩ := bind_ok h
    have e₄ := blockParam_after h₄ e₃ (by simp)
    obtain ⟨_, s₅, h₅, h⟩ := bind_ok h
    obtain ⟨e₅, c₅⟩ := terminate_after h₅ nofun e₄
    obtain ⟨_, s₁₀, harm, h⟩ := bind_ok h
    obtain ⟨s₉, h₉, rfl⟩ := inArm_ok harm
    obtain ⟨_, s₆, h₆, h₉⟩ := bind_ok h₉
    have e₆ := switchTo_after h₆ e₅ c₅ (by simp)
    obtain ⟨r₁, s₇, h₇, h₉⟩ := bind_ok h₉
    have e₇ := Tidy.after h₇ e₆
    obtain ⟨_, s₈, h₈, h₉⟩ := bind_ok h₉
    obtain ⟨e₈, c₈⟩ := terminate_after h₈ nofun e₇
    obtain ⟨_, s₁₁, h₁₁, h₉⟩ := bind_ok h₉
    have e₁₁ := switchTo_after h₁₁ e₈ c₈ (by simp)
    obtain ⟨r₂, s₁₂, h₁₂, h₉⟩ := bind_ok h₉
    have e₁₂ := Tidy.after h₁₂ e₁₁
    obtain ⟨e₉, c₉⟩ := terminate_after h₉ nofun e₁₂
    obtain ⟨_, s₁₃, h₁₃, h⟩ := bind_ok h
    have e₁₃ := switchTo_after h₁₃ e₉ c₉ (by simp)
    cases h
    simpa using e₁₃

instance (priority := high) (cond : Reg) (weight : BranchWeight) (arm : Lower Unit) [Tidy arm] :
    Tidy (when cond weight arm) where
  obeys env s a s' h hw := by
    obtain ⟨thenBlock, s₁, h₁, h⟩ := bind_ok h
    have e₁ := createBlock_after h₁ (.refl hw)
    obtain ⟨join, s₂, h₂, h⟩ := bind_ok h
    have e₂ := createBlock_after h₂ e₁
    obtain ⟨_, s₃, h₃, h⟩ := bind_ok h
    obtain ⟨e₃, c₃⟩ := terminate_after h₃ nofun e₂
    obtain ⟨_, s₈, harm, h⟩ := bind_ok h
    obtain ⟨s₇, h₇, rfl⟩ := inArm_ok harm
    obtain ⟨_, s₄, h₄, h₇⟩ := bind_ok h₇
    have e₄ := switchTo_after h₄ e₃ c₃ (by simp)
    obtain ⟨_, s₅, h₅, h₇⟩ := bind_ok h₇
    have e₅ := Tidy.after h₅ e₄
    obtain ⟨t, s₆, h₆, h₇⟩ := bind_ok h₇
    obtain ⟨_, hb, rfl⟩ := emit_ok h₆
    obtain ⟨rfl, ht⟩ := Emit.isTerminated_ok hb
    -- the arm may have left already; otherwise it joins
    have ⟨e₇, c₇⟩ : s.builder.Emits ([] ++ [thenBlock] ++ [join] |>.erase thenBlock) s₇.builder ∧
        s₇.builder.IsClosed s₇.builder.current.index := by
      cases t with
      | false => exact terminate_after h₇ nofun e₅
      | true => cases h₇; exact ⟨e₅, ht⟩
    have e₈ := switchTo_after h e₇ c₇ (by simp)
    simpa using e₈

instance (target : BlockIndex) : Obeys R (phiArguments target) := by
  refine .bind inferInstance fun s => .bind inferInstance fun env => .bind inferInstance
    fun phis => ?_
  have (phi : NodeId) : Obeys R (match s.upsilons.lookup phi with
      | some r => pure r
      | none => crash (.noUpsilon phi target) : Lower Reg) := by split <;> infer_instance
  infer_instance

instance (target : BlockIndex) : Tidy (successorBlock target) where
  obeys env s a s' h hw := by
    obtain ⟨args, s₁, h₁, h⟩ := bind_ok h
    have e₁ := Tidy.after h₁ (.refl hw)
    rw [read_bind] at h
    obtain ⟨block, -, h⟩ := check_bind_ok h
    by_cases hargs : args.isEmpty = true
    · rw [if_pos hargs] at h
      cases h
      exact e₁
    · rw [if_neg hargs] at h
      -- the current block is left for the edge and taken up again
      obtain ⟨here, b₂, h₂, h⟩ := emit_bind_ok h
      cases h₂
      obtain ⟨edge, b₃, h₃, h⟩ := emit_bind_ok h
      obtain ⟨rfl, rfl⟩ := Emit.createBlock_ok h₃
      obtain ⟨_, b₄, h₄, h⟩ := emit_bind_ok h
      obtain rfl := Emit.switchTo_ok h₄
      obtain ⟨_, b₅, h₅, h⟩ := emit_bind_ok h
      obtain ⟨_, b₆, h₆, h⟩ := emit_bind_ok h
      obtain rfl := Emit.switchTo_ok h₆
      cases h
      rw [Emit.terminate_addBlock e₁.after h₅]
      exact e₁.trans (Builder.addClosed_emits e₁.after nofun)

/-! ## Ways to build -/

/-- The law does not depend on counts, and sees no difference in an arm. -/
class Law.Frames (R : Law) : Prop where
  counts : ∀ env s (f : Stats → Stats), R.rel env s { s with stats := f s.stats }
  arms : ∀ {env s s₁}, R.rel env { s with armDepth := s.armDepth + 1 } s₁ →
    R.rel env s { s₁ with armDepth := s₁.armDepth - 1 }

/-- The law holds of steps that compute and leave if a check fails. -/
class Law.Speculates (R : Law) : Prop where
  computing : Emit.Computing R.emitted
  speculates : ∀ kind profile failing, Obeys R (speculate kind profile failing)

/-- The law holds of steps that choose between two arms, too. -/
class Law.Computes (R : Law) : Prop extends R.Speculates, R.Frames where
  chooses : ∀ ty cond weight {x y} [Tidy x] [Tidy y] [Obeys R x] [Obeys R y],
    Obeys R (diamond ty cond weight x y)

/-- The law holds of steps that emit any code, too, and of arms that stand alone. -/
class Law.Codes (R : Law) : Prop extends R.Computes where
  building : Emit.Building R.emitted
  captures : ∀ kind profile, Obeys R (buildExit kind profile)
  whens : ∀ cond weight {x} [Tidy x] [Obeys R x], Obeys R (when cond weight x)

/-- The law holds of integers that the runtime boxes. -/
class Law.Boxes (R : Law) : Prop where
  boxes : ∀ {strict r b b'}, Emit.call .boxInt52 [strict] b = .ok (r, b') → R.emitted.rel b b'

/-- The law holds of ends of blocks where a check can only fail. -/
class Law.Leaves (R : Law) : Prop where
  leaves : ∀ kind, Obeys R (terminate kind)

/-- The law holds of facts about the node that are narrowed. -/
class Law.Narrows (R : Law) (id : NodeId) : Prop where
  narrows : ∀ {env s facts mask}, s.facts.filter env.graph id mask = .ok facts →
    R.rel env s { s with facts }

/-- The law holds of machine forms that are noted for the node. -/
class Law.Notes (R : Law) (id : NodeId) : Prop where
  notes : ∀ {form} r, form ≠ .jsValue → form ≠ .storage → Obeys R (record id form r)

/-- The law holds of all that is recorded. -/
class Law.Records (R : Law) : Prop where
  records : ∀ id form r, Obeys R (record id form r)

attribute [instance] Law.Speculates.computing Law.Codes.building Law.Records.records

-- a shortcut, which keeps the search for instances short
instance (priority := high) [R.Computes] : Emit.Computing R.emitted := inferInstance

instance [hR : R.Codes] : R.Boxes where
  boxes h := hR.building.define h

instance [R.Records] (id : NodeId) : R.Notes id where
  notes _ _ _ := inferInstance

instance (f : Stats → Stats) [hR : R.Frames] : Obeys R (countStats f) where
  obeys env s _ _ h := by
    cases h
    exact hR.counts env s f

instance [R.Frames] : Obeys R elided := inferInstanceAs (Obeys R (countStats _))

instance [R.Frames] : Obeys R countCheck := inferInstanceAs (Obeys R (countStats _))

instance [hR : R.Frames] (x : Lower α) [hx : Obeys R x] : Obeys R (inArm x) where
  obeys env s a s' h := by
    obtain ⟨s₁, h₁, rfl⟩ := inArm_ok h
    exact hR.arms (hx.of_ok h₁)

instance [hR : R.Computes] (ty : Ty) (cond : Reg) (weight : BranchWeight) (x y : Lower Reg)
    [Tidy x] [Tidy y] [Obeys R x] [Obeys R y] : Obeys R (diamond ty cond weight x y) :=
  hR.chooses ty cond weight

instance [hR : R.Codes] (kind : ExitKind) (profile : Option Reg) :
    Obeys R (buildExit kind profile) := hR.captures kind profile

instance [hR : R.Speculates] (kind : ExitKind) (profile : Option Reg) (failing : Reg) :
    Obeys R (speculate kind profile failing) := hR.speculates kind profile failing

instance [hR : R.Codes] (cond : Reg) (weight : BranchWeight) (x : Lower Unit) [Tidy x]
    [Obeys R x] : Obeys R (when cond weight x) := hR.whens cond weight

instance [hR : R.Leaves] (kind : ExitKind) : Obeys R (terminate kind) := hR.leaves kind

instance [R.Codes] (helper : Helper) (args : List Reg) : Obeys R (callHelper helper args) := by
  unfold callHelper
  infer_instance

/-! ## Laws that blocks do not matter to -/

/-- The law holds of steps that emit code in any order of blocks. -/
class Law.Rebuilds (R : Law) : Prop extends R.Frames where
  rebuilding : Emit.Rebuilding R.emitted
  captures : ∀ kind profile, Obeys R (buildExit kind profile)

section Rebuilds

variable [hR : R.Rebuilds]

attribute [instance] Law.Rebuilds.rebuilding

set_option synthInstance.maxSize 1000 in
instance : R.Codes where
  computing := inferInstance
  chooses _ _ _ := by
    unfold diamond
    infer_instance
  captures := hR.captures
  speculates kind profile _ := by
    have := hR.captures kind profile
    unfold speculate
    infer_instance
  building := inferInstance
  whens _ _ := by
    unfold when
    infer_instance

/-- The law holds of facts that control never gets to. -/
class Law.Invalidates (R : Law) : Prop where
  gives_up : ∀ env s, R.rel env s { s with facts := s.facts.invalidate }
  marks : ∀ {env s facts block}, s.facts.markForReverification env.graph block = .ok facts →
    R.rel env s { s with facts }

instance [hI : R.Invalidates] : Obeys R invalidateDominated where
  obeys env s a s' h := by
    rw [invalidateDominated, read_bind, get_bind] at h
    obtain ⟨facts, hfacts, h⟩ := check_bind_ok h
    cases h
    generalize env.graph.blockIndices.filter (env.dominators.strictlyDominates s.block) = below
      at hfacts
    suffices ∀ f : AbstractState, below.foldlM (fun f b => f.markForReverification env.graph b) f =
        .ok facts → R.rel env { s with facts := f } { s with facts } from this s.facts hfacts
    clear hfacts
    induction below with
    | nil =>
      intro f hf
      cases hf
      exact R.refl env _
    | cons block below ih =>
      intro f hf
      obtain ⟨f₁, h₁, hf⟩ := bind_eq_ok_iff.1 hf
      exact R.trans (hI.marks h₁) (ih f₁ hf)

instance [hI : R.Invalidates] : R.Leaves where
  leaves kind := by
    have hcount : Obeys R (modify fun s : State => { s with
        stats.terminatedBlocks := s.stats.terminatedBlocks + 1, facts := s.facts.invalidate } :
          Lower Unit) :=
      obeys_modify fun env s => R.trans (hI.gives_up env s) (hR.counts env _ fun stats =>
        { stats with terminatedBlocks := stats.terminatedBlocks + 1 })
    unfold terminate
    infer_instance

set_option synthInstance.maxSize 1000 in
instance (target : BlockIndex) : Obeys R (successorBlock target) := by
  unfold successorBlock
  infer_instance

end Rebuilds

/-! ## Two laws at once -/

/-- What two laws say. -/
def Law.and (R R' : Law) : Law where
  rel env s s' := R.rel env s s' ∧ R'.rel env s s'
  refl env s := ⟨R.refl env s, R'.refl env s⟩
  trans h₁ h₂ := ⟨R.trans h₁.1 h₂.1, R'.trans h₁.2 h₂.2⟩

section And

variable {R' : Law}

instance (priority := low) (x : Lower α) [hx : Obeys R x] [hx' : Obeys R' x] :
    Obeys (R.and R') x where
  obeys env s a s' h := ⟨hx.obeys env s a s' h, hx'.obeys env s a s' h⟩

theorem Obeys.left {x : Lower α} (hx : Obeys (R.and R') x) : Obeys R x :=
  hx.mono fun _ _ _ h => h.1

theorem Obeys.right {x : Lower α} (hx : Obeys (R.and R') x) : Obeys R' x :=
  hx.mono fun _ _ _ h => h.2

instance [hR : R.Codes] [hR' : R'.Codes] : (R.and R').Codes where
  computing := ⟨fun hinst h env s => ⟨hR.computing.compute hinst h env s,
    hR'.computing.compute hinst h env s⟩⟩
  speculates _ _ _ := inferInstance
  counts env s f := ⟨hR.counts env s f, hR'.counts env s f⟩
  arms h := ⟨hR.arms h.1, hR'.arms h.2⟩
  chooses _ _ _ hx hy _ _ hRx hRy := by
    have := hRx.left
    have := hRx.right
    have := hRy.left
    have := hRy.right
    infer_instance
  building := {
    define := fun h env s => ⟨hR.building.define h env s, hR'.building.define h env s⟩
    store := fun h env s => ⟨hR.building.store h env s, hR'.building.store h env s⟩
    terminate := fun ht h env s => ⟨hR.building.terminate ht h env s,
      hR'.building.terminate ht h env s⟩ }
  captures _ _ := inferInstance
  whens _ _ _ _ hRx := by
    have := hRx.left
    have := hRx.right
    infer_instance

end And

/-! ## What holds of all else than code -/

/-- The law does not depend on the code. -/
class Law.Uncoded (R : Law) : Prop extends R.Frames where
  code : ∀ env s b, R.rel env s { s with builder := b }

instance (priority := high) [hR : R.Uncoded] (x : Emit α) : Obeys R (liftM x : Lower α) where
  obeys env s a s' h := by
    obtain ⟨b', -, rfl⟩ := emit_ok h
    exact hR.code env s b'

instance [hR : R.Uncoded] : Emit.Rebuilding R.emitted where
  define _ env s := hR.code env { s with builder := _ } _
  store _ env s := hR.code env { s with builder := _ } _
  terminate _ _ env s := hR.code env { s with builder := _ } _
  createBlock _ env s := hR.code env { s with builder := _ } _
  switchTo _ env s := hR.code env { s with builder := _ } _
  blockParam _ env s := hR.code env { s with builder := _ } _

section Builders

variable {Q : Builder.Law}

instance : (onBuilders Q).Frames where
  counts _ s _ := Q.refl s.builder
  arms h := h

instance (id : NodeId) : (onBuilders Q).Narrows id where
  narrows _ := Q.refl _

instance : (onBuilders Q).Records where
  records id form r := obeys_modify fun env s => by
    dsimp only
    split <;> exact Q.refl s.builder

instance : (onBuilders Q).Invalidates where
  gives_up _ s := Q.refl s.builder
  marks _ := Q.refl _

end Builders

end Lowering

end SpecJit
