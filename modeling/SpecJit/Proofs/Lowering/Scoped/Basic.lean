import SpecJit.Proofs.Lir.Scoped
import SpecJit.Proofs.Lowering.CellUses

/-!
# Lowering steps that keep to a scoping

The lowering remembers which register holds a node in which form. What makes this sound is that a
remembered register is defined wherever the lowering may use it: `Consistent strict env S s` says
that the code so far keeps to the scoping `S`, that every record that counts in the current block
names a register that is defined here and, if `strict`, that records and code are well typed.

`Scoped strict env Γ x P`: from a consistent state in which the facts `Γ` hold, the lowering step
`x` gets to a consistent state in which the facts `P a` hold of its result `a`. On the way the code
grows, what was defined stays defined, and new records are made for the current block only, and
outside of arms only (`Follows`). The class is closed under sequencing and choice.

A routine that makes blocks and goes through them one after the other leaves the place it started
from. `Detour` follows it: what was defined at the start is defined in every block that was made
there.
-/

namespace SpecJit

open Lir

/-- The type of a register that holds a value in this form. -/
@[reducible] def Form.ty : Form → Ty
  | .int32 | .boolean => .i32
  | .double => .f64
  | .int52 | .strictInt52 | .jsValue | .storage => .i64

theorem NodeResult.machineType_eq {result : NodeResult} {form : Form} (h : result.form? = some form)
    :
    result.machineType = form.ty := by
  cases result <;> cases h <;> rfl

/-- The type of the register that holds a node. -/
def Graph.typeOfResult (g : Graph) (id : NodeId) : Ty :=
  ((g.node? id).map (·.result.machineType)).getD .i64

theorem Graph.node_eq_ok {g : Graph} {id : NodeId} {node : Node} :
    g.node id = .ok node ↔ g.node? id = some node := by
  rw [Graph.node]
  cases g.node? id <;> simp [Fault.ofOption]

theorem Graph.typeOfResult_of_node {g : Graph} {id : NodeId} {node : Node}
    (h : g.node id = .ok node) :
    g.typeOfResult id = node.result.machineType := by
  simp [typeOfResult, node_eq_ok.1 h]

/-- The block lists the node. -/
def Graph.Lists (g : Graph) (b : BlockIndex) (id : NodeId) : Prop :=
  ∃ blk, g.block? b = some blk ∧ id ∈ blk.nodes

namespace Lowering

variable {α β : Type} {strict : Bool} {env : Env} {Γ Δ : List Fact} {S S' S'' : Scoping}
  {s s' s'' : State}

/-! ## Consistent states -/

/-- What the lowering remembers is true of the code (module doc). -/
structure Consistent (strict : Bool) (env : Env) (S : Scoping) (s : State) : Prop where
  sound : s.builder.Sound strict S
  fixed : Hold strict S s.builder (s.builder.Here S) [.reg env.context .i64, .reg env.frame .i64]
  typed : strict = true → ∀ v ∈ s.values, s.builder.func.HasType v.2.1 v.1.2.ty
  held : ∀ v ∈ s.values, env.dominators.dominates v.2.2 s.block = true → s.builder.Here S v.2.1
  upsilons : ∀ u ∈ s.upsilons, s.builder.Here S u.2 ∧
    (strict = true → ∀ node, env.graph.node u.1 = .ok node →
    s.builder.func.HasType u.2 node.result.machineType)
  phis : ∀ id r, env.phiParams.lookup id = some r → env.graph.Lists s.block id →
    (Fact.reg r (env.graph.typeOfResult id)).Holds strict S s.builder (s.builder.Here S)

/-- One state comes after another while a block of the graph is lowered. -/
structure Follows (strict : Bool) (S : Scoping) (s : State) (S' : Scoping) (s' : State) : Prop where
  grown : s.builder.Grown strict S S' s'.builder
  here : ∀ r, s.builder.Here S r → s'.builder.Here S' r
  block : s'.block = s.block
  armDepth : s'.armDepth = s.armDepth
  upsilons : s'.upsilons = s.upsilons
  values : ∃ new, s'.values = new ++ s.values ∧ (∀ v ∈ new, v.2.2 = s.block) ∧
    (s.armDepth ≠ 0 → new = [])

theorem Follows.refl (h : s.builder.Sound strict S) : Follows strict S s S s :=
  ⟨.refl h, fun _ h => h, rfl, rfl, rfl, [], rfl, nofun, fun _ => rfl⟩

theorem Follows.trans (h₁ : Follows strict S s S' s') (h₂ : Follows strict S' s' S'' s'') :
    Follows strict S s S'' s'' := by
  obtain ⟨new₁, hv₁, hb₁, ha₁⟩ := h₁.values
  obtain ⟨new₂, hv₂, hb₂, ha₂⟩ := h₂.values
  refine ⟨h₁.grown.trans h₂.grown, fun r hr => h₂.here r (h₁.here r hr), h₂.block.trans h₁.block,
    h₂.armDepth.trans h₁.armDepth, h₂.upsilons.trans h₁.upsilons, new₂ ++ new₁, by
      rw [hv₂, hv₁, List.append_assoc], ?_, ?_⟩
  · intro v hv
    rcases List.mem_append.1 hv with hv | hv
    · rw [← h₁.block]
      exact hb₂ v hv
    · exact hb₁ v hv
  · intro ha
    rw [ha₁ ha, ha₂ (by rwa [h₁.armDepth])]
    rfl

/-- More code, and the same records. -/
theorem Consistent.grow (h : Consistent strict env S s) (e : s.builder.Grown strict S S' s'.builder)
    (here : ∀ r, s.builder.Here S r → s'.builder.Here S' r) (hvalues : s'.values = s.values)
    (hblock : s'.block = s.block) (hupsilons : s'.upsilons = s.upsilons) :
    Consistent strict env S' s' where
  sound := e.after
  fixed := h.fixed.grow e here
  typed hs v hv := e.func.types _ _ (h.typed hs v (hvalues ▸ hv))
  held v hv hd := here _ (h.held v (hvalues ▸ hv) (hblock ▸ hd))
  upsilons u hu := by
    rw [hupsilons] at hu
    exact ⟨here _ (h.upsilons u hu).1, fun hs node hn => e.func.types _ _
      ((h.upsilons u hu).2 hs node hn)⟩
  phis id r hr hlists := (h.phis id r hr (hblock ▸ hlists)).grow e here

/-! ## The class -/

/-- A lowering step that keeps to the scoping (module doc). -/
class Scoped (strict : Bool) (env : Env) (Γ : List Fact) (x : Lower α)
    (P : outParam (α → List Fact)) : Prop where
  follows : ∀ S s a s', Consistent strict env S s → Hold strict S s.builder (s.builder.Here S) Γ →
    x env s = .ok (a, s') →
    ∃ S', Follows strict S s S' s' ∧ Consistent strict env S' s' ∧ Hold strict S' s'.builder
      (s'.builder.Here S') (P a)

/-- A step that changes neither the code nor what is recorded. -/
theorem scoped_of_still {x : Lower α} {P : α → List Fact}
    (h : ∀ s a s', x env s = .ok (a, s') → s'.builder = s.builder ∧ s'.values = s.values ∧
      s'.block = s.block ∧
      s'.armDepth = s.armDepth ∧ s'.upsilons = s.upsilons)
    (hP : ∀ S s a s', Consistent strict env S s → Hold strict S s.builder (s.builder.Here S) Γ →
      x env s = .ok (a, s') →
      Hold strict S s.builder (s.builder.Here S) (P a)) : Scoped strict env Γ x P where
  follows S s a s' hs hΓ hx := by
    obtain ⟨hb, hvalues, hblock, harm, hups⟩ := h s a s' hx
    have hF : Follows strict S s S s' :=
      ⟨by
        rw [hb]; exact .refl hs.sound, fun r hr => by
          rw [hb]; exact hr, hblock, harm, hups, [], hvalues, nofun, fun _ => rfl⟩
    refine ⟨S, hF, hs.grow hF.grown hF.here hvalues hblock hups, ?_⟩
    rw [hb]
    exact hP S s a s' hs hΓ hx

/-- A step that changes nothing that counts tells nothing. -/
theorem scoped_still {x : Lower α}
    (h : ∀ s a s', x env s = .ok (a, s') → s'.builder = s.builder ∧ s'.values = s.values ∧
      s'.block = s.block ∧
      s'.armDepth = s.armDepth ∧ s'.upsilons = s.upsilons) : Scoped strict env Γ x fun _ => [] :=
  scoped_of_still h fun _ _ _ _ _ _ _ => .nil

theorem scoped_of_error {x : Lower α} {P : α → List Fact} (h : ∀ s, ∃ f, x env s = .error f) :
    Scoped strict env Γ x P where
  follows S s a s' _ _ hx := by
    obtain ⟨f, hf⟩ := h s
    rw [hf] at hx
    cases hx

/-- A step that needs fewer facts. -/
theorem Scoped.weaken {x : Lower α} {P : α → List Fact} (hx : Scoped strict env Γ x P)
    (hΓ : ∀ {S b V}, Hold strict S b V Δ → Hold strict S b V Γ) : Scoped strict env Δ x P :=
  ⟨fun S s a s' hs hΔ h => hx.follows S s a s' hs (hΓ hΔ) h⟩

theorem pure_ok {a a' : α} (h : (pure a : Lower α) env s = .ok (a', s')) : a' = a ∧ s' = s := by
  cases h
  exact ⟨rfl, rfl⟩

instance (priority := low) (a : α) : Scoped strict env Γ (pure a : Lower α) fun _ => [] :=
  scoped_still fun _ _ _ h => by obtain ⟨-, rfl⟩ := pure_ok h; exact ⟨rfl, rfl, rfl, rfl, rfl⟩

/-- A value that facts are known of. -/
theorem scoped_pure {a : α} {P : α → List Fact}
    (h : ∀ {S b V}, Hold strict S b V Γ → Hold strict S b V (P a)) :
    Scoped strict env Γ (pure a : Lower α) P :=
  scoped_of_still (fun _ _ _ h => by obtain ⟨-, rfl⟩ := pure_ok h; exact ⟨rfl, rfl, rfl, rfl, rfl⟩)
    fun S s a' s' _ hΓ hx => by
      obtain ⟨rfl, -⟩ := pure_ok hx
      exact h hΓ

instance (r : Reg) {ty : Ty} [h : Known Γ r ty] :
    Scoped strict env Γ (pure r : Lower Reg) fun r => [.reg r ty] :=
  scoped_pure fun hΓ => .cons (h.holds hΓ) .nil

instance (r₁ r₂ : Reg) {ty₁ ty₂ : Ty} [h₁ : Known Γ r₁ ty₁] [h₂ : Known Γ r₂ ty₂] :
    Scoped strict env Γ (pure (r₁, r₂) : Lower (Reg × Reg)) fun p => [.reg p.1 ty₁, .reg p.2 ty₂] :=
  scoped_pure fun hΓ => .cons (h₁.holds hΓ) (.cons (h₂.holds hΓ) .nil)

instance (r : Reg) {ty : Ty} [h : Known Γ r ty] :
    Scoped strict env Γ (pure [r] : Lower (List Reg)) fun rs => [.list rs [ty]] :=
  scoped_pure fun hΓ => .cons ⟨rfl, fun p hp => by
    cases List.mem_singleton.1 hp
    exact h.holds hΓ⟩ .nil

instance : Scoped strict env Γ (pure [] : Lower (List Reg)) fun rs => [.list rs []] :=
  scoped_pure fun _ => .cons ⟨rfl, nofun⟩ .nil

instance {P : α → List Fact} {Q : β → List Fact} (x : Lower α) (f : α → Lower β)
    [hx : Scoped strict env Γ x P] [hf : ∀ a, Scoped strict env (P a ++ Γ) (f a) Q] :
    Scoped strict env Γ (x >>= f) Q where
  follows S s c s' hs hΓ h := by
    obtain ⟨a, s₁, h₁, h₂⟩ := bind_ok h
    obtain ⟨S₁, hF₁, hC₁, hP⟩ := hx.follows S s a s₁ hs hΓ h₁
    obtain ⟨S₂, hF₂, hC₂, hQ⟩ :=
      (hf a).follows S₁ s₁ c s' hC₁ (hP.append (hΓ.grow hF₁.grown hF₁.here)) h₂
    exact ⟨S₂, hF₁.trans hF₂, hC₂, hQ⟩

theorem Scoped.bind {P : α → List Fact} {Q : β → List Fact} {x : Lower α} {f : α → Lower β}
    (hx : Scoped strict env Γ x P) (hf : ∀ a, Scoped strict env (P a ++ Γ) (f a) Q) :
    Scoped strict env Γ (x >>= f) Q := inferInstance

/-- What follows may use that the value is one that the step gives. -/
theorem Scoped.bind_result {P : α → List Fact} {Q : β → List Fact} {x : Lower α} {f : α → Lower β}
    (hx : Scoped strict env Γ x P)
    (hf : ∀ a s s', x env s = .ok (a, s') → Scoped strict env (P a ++ Γ) (f a) Q) :
    Scoped strict env Γ (x >>= f) Q where
  follows S s c s' hs hΓ h := by
    obtain ⟨a, s₁, h₁, h₂⟩ := bind_ok h
    obtain ⟨S₁, hF₁, hC₁, hP⟩ := hx.follows S s a s₁ hs hΓ h₁
    obtain ⟨S₂, hF₂, hC₂, hQ⟩ :=
      (hf a s s₁ h₁).follows S₁ s₁ c s' hC₁ (hP.append (hΓ.grow hF₁.grown hF₁.here)) h₂
    exact ⟨S₂, hF₁.trans hF₂, hC₂, hQ⟩

/-- The context and the frame are known everywhere. -/
instance (priority := high) {P : α → List Fact} (f : Env → Lower α)
    [hf : Scoped strict env (.reg env.context .i64 :: .reg env.frame .i64 :: Γ) (f env) P] :
    Scoped strict env Γ ((read : Lower Env) >>= f) P where
  follows S s a s' hs hΓ h := hf.follows S s a s' hs (hs.fixed.append hΓ) h

instance : Scoped strict env Γ (read : Lower Env) fun _ => [] :=
  scoped_still fun _ _ _ h => by cases h; exact ⟨rfl, rfl, rfl, rfl, rfl⟩

instance {P : α → List Fact} (p : Prop) [Decidable p] (x y : Lower α) [hx : Scoped strict env Γ x P]
    [hy : Scoped strict env Γ y P] : Scoped strict env Γ (if p then x else y) P := by
  split
  · exact hx
  · exact hy

instance {P : α → List Fact} (x : Emit α) [hx : x.Scoped strict Γ P] :
    Scoped strict env Γ (liftM x : Lower α) P where
  follows S s a s' hs hΓ h := by
    obtain ⟨b', hb, rfl⟩ := emit_ok h
    obtain ⟨S', e, here, hP⟩ := hx.grows S s.builder a b' hs.sound hΓ hb
    exact ⟨S', ⟨e, here, rfl, rfl, rfl, [], rfl, nofun, fun _ => rfl⟩, hs.grow e here rfl rfl rfl,
      hP⟩

instance (x : Except Fault α) : Scoped strict env Γ (liftM x : Lower α) fun _ => [] :=
  scoped_still fun _ _ _ h => by obtain ⟨-, rfl⟩ := check_ok h; exact ⟨rfl, rfl, rfl, rfl, rfl⟩

instance (x : Except Fault α) : Scoped strict env Γ (check x : Lower α) fun _ => [] :=
  inferInstanceAs (Scoped strict env Γ (liftM x : Lower α) _)

instance : Scoped strict env Γ (get : Lower State) fun _ => [] :=
  scoped_still fun _ _ _ h => by cases h; exact ⟨rfl, rfl, rfl, rfl, rfl⟩

theorem scoped_modify {f : State → State}
    (h : ∀ s, (f s).builder = s.builder ∧ (f s).values = s.values ∧
    (f s).block = s.block ∧ (f s).armDepth = s.armDepth ∧ (f s).upsilons = s.upsilons) :
    Scoped strict env Γ (modify f : Lower Unit) fun _ => [] :=
  scoped_still fun s _ _ hx => by cases hx; exact h s

/-- Behind a crash anything holds. -/
theorem scoped_crash {P : α → List Fact} {cause : CrashCause} :
    Scoped strict env Γ (crash cause : Lower α) P :=
  scoped_of_error fun _ => ⟨_, rfl⟩

instance (cause : CrashCause) : Scoped strict env Γ (crash cause : Lower α) fun _ => [] :=
  scoped_crash

instance (priority := high) {P : α → List Fact} (p : Prop) [Decidable p] (x : Lower α)
    (cause : CrashCause) [hx : Scoped strict env Γ x P] :
    Scoped strict env Γ (if p then x else crash cause) P := by
  split
  · exact hx
  · exact scoped_crash

/-- A list gone through step by step. -/
theorem scoped_forM {f : α → Lower Unit} {l : List α}
    (hf : ∀ a ∈ l, Scoped strict env Γ (f a) fun _ => []) :
    Scoped strict env Γ (l.forM f) fun _ => [] := by
  induction l with
  | nil => exact inferInstanceAs (Scoped strict env Γ (pure PUnit.unit : Lower PUnit) _)
  | cons a l ih =>
    refine .bind (hf a (by simp)) fun _ => ?_
    exact ih fun b hb => hf b (by simp [hb])

instance (f : α → Lower Unit) (l : List α) [hf : ∀ a, Scoped strict env Γ (f a) fun _ => []] :
    Scoped strict env Γ (l.forM f) fun _ => [] := scoped_forM fun a _ => hf a

instance (f : α → Lower β) (l : List α) [hf : ∀ Γ a, Scoped strict env Γ (f a) fun _ => []] :
    Scoped strict env Γ (l.mapM f) fun _ => [] := by
  induction l generalizing Γ with
  | nil => exact inferInstanceAs (Scoped strict env Γ (pure []) _)
  | cons a l ih => rw [List.mapM_cons]; infer_instance

/-- A list of registers of one type, computed one by one. -/
theorem scoped_mapM {ty : Ty} {f : α → Lower Reg} {l : List α}
    (hf : ∀ a ∈ l, ∀ Δ, Scoped strict env (Δ ++ Γ) (f a) fun r => [.reg r ty]) :
    Scoped strict env Γ (l.mapM f) fun rs => [.all rs ty] := by
  suffices h : ∀ Δ, Scoped strict env (Δ ++ Γ) (l.mapM f) fun rs => [.all rs ty] from h []
  induction l with
  | nil =>
    intro Δ
    rw [List.mapM_nil]
    exact scoped_pure fun _ => .cons (by simp [Fact.Holds]) .nil
  | cons a l ih =>
    intro Δ
    rw [List.mapM_cons]
    refine .bind (hf a (by simp) Δ) fun r => .bind (P := fun rs => [.all rs ty]) ?_ fun rs =>
      scoped_pure fun hΓ => .cons ?_ .nil
    · have := ih (fun b hb => hf b (by simp [hb])) ([.reg r ty] ++ Δ)
      rwa [List.append_assoc] at this
    · intro r' hr'
      rcases List.mem_cons.1 hr' with rfl | hr'
      · exact (hΓ.right (Fact.reg _ ty) (by simp))
      · exact hΓ.left (Fact.all rs ty) (by simp) r' hr'

instance (f : α → Lower Reg) (l : List α) {ty : Ty}
    [hf : ∀ Γ a, Scoped strict env Γ (f a) fun r => [.reg r ty]] :
    Scoped strict env Γ (l.mapM f) fun rs => [.all rs ty] := scoped_mapM fun a _ Δ => hf (Δ ++ Γ) a

theorem scoped_child {P : α → List Fact} {node : Node} {i : Nat} {f : Edge → Lower α}
    (hf : ∀ e, node.children[i]? = some e → Scoped strict env Γ (f e) P) :
    Scoped strict env Γ ((liftM (node.child i) : Lower Edge) >>= f) P where
  follows S s a s' hs hΓ h := by
    obtain ⟨e, he, h⟩ := check_bind_ok h
    rw [Node.child] at he
    cases hc : node.children[i]? with
    | none => rw [hc] at he; cases he
    | some e' =>
      rw [hc] at he
      cases he
      exact (hf e hc).follows S s a s' hs hΓ h

/-! ## Nodes -/

/-- The node with this name. -/
class Named (env : Env) (id : NodeId) (node : outParam Node) : Prop where
  found : env.graph.node id = .ok node

/-- A register of the type can be the result of the node. Types count if `strict`. -/
class Fits (strict : Bool) (env : Env) (id : NodeId) (ty : Ty) : Prop where
  fits : strict = true → ∀ node form, env.graph.node id = .ok node → node.result.form? = some form →
    form.ty = ty

theorem Named.unique {id : NodeId} {node node' : Node} (h : Named env id node)
    (h' : Named env id node') : node' = node := by
  have := h'.found
  rw [h.found] at this
  cases this
  rfl

/-- A register of the type that goes with the result of the node. -/
theorem Fits.of_result {id : NodeId} {node : Node} {result : NodeResult} [hn : Named env id node]
    (h : node.result = result) : Fits strict env id result.machineType where
  fits _ node' form hn' hform := by
    rw [Named.unique hn ⟨hn'⟩, h] at hform
    exact (NodeResult.machineType_eq hform).symm

theorem scoped_getNode {P : α → List Fact} {id : NodeId} {f : Node → Lower α}
    (hf : ∀ node, Named env id node → Scoped strict env Γ (f node) P) :
    Scoped strict env Γ (getNode id >>= f) P where
  follows S s a s' hs hΓ h := by
    obtain ⟨node, hn, h⟩ := getNode_bind_ok h
    exact (hf node ⟨hn⟩).follows S s a s' hs hΓ h

instance (id : NodeId) : Scoped strict env Γ (getNode id) fun _ => [] := by
  unfold getNode
  infer_instance

instance (priority := high) {P : α → List Fact} (id : NodeId) (f : Node → Lower α)
    [hf : ∀ node [Named env id node], Scoped strict env Γ (f node) P] :
    Scoped strict env Γ (getNode id >>= f) P :=
  scoped_getNode fun node h => @hf node h

instance (field : CellField) : Scoped strict env Γ (fieldOffset field) fun _ => [] := by
  unfold fieldOffset
  infer_instance

instance (id : NodeId) : Scoped strict env Γ (factOf id) fun _ => [] := by
  unfold factOf
  infer_instance

instance (id : NodeId) : Scoped strict env Γ (typeOfNode id) fun _ => [] := by
  unfold typeOfNode
  infer_instance

instance (id : StructureId) : Scoped strict env Γ (getStructure id) fun _ => [] := by
  unfold getStructure
  have (o : Option Structure) : Scoped strict env (.reg env.context .i64 :: .reg env.frame .i64 ::
    Γ)
      (match o with | some s => pure s | none => crash (.unknownStructure id) : Lower Structure)
        fun _ => [] := by
    split <;> infer_instance
  infer_instance

instance (f : Stats → Stats) : Scoped strict env Γ (countStats f) fun _ => [] :=
  scoped_modify fun _ => ⟨rfl, rfl, rfl, rfl, rfl⟩

instance : Scoped strict env Γ elided fun _ => [] :=
  inferInstanceAs (Scoped strict env Γ (countStats _) _)

/-! ## Records -/

/-- What is found to be held is defined here, in the form that was asked for. -/
theorem Consistent.of_held {id : NodeId} {form : Form} {o : Option Reg}
    (hs : Consistent strict env S s) (h : held? id form env s = .ok (o, s')) :
    s' = s ∧ ∀ r, o = some r → Hold strict S s.builder (s.builder.Here S) [.reg r form.ty] := by
  rw [held?, get_bind] at h
  cases hl : s.values.lookup (id, form) with
  | none =>
    simp only [hl] at h
    cases h
    exact ⟨rfl, by simp⟩
  | some v =>
    obtain ⟨r, recorded⟩ := v
    simp only [hl] at h
    rw [read_bind] at h
    cases h
    refine ⟨rfl, fun r' hr' => ?_⟩
    split at hr'
    · rename_i hd
      cases hr'
      obtain ⟨l₁, l₂, hsplit, -⟩ := List.lookup_eq_some_iff.1 hl
      have hmem : ((id, form), r, recorded) ∈ s.values := by simp [hsplit]
      exact .cons ⟨hs.held _ hmem hd, fun hst => hs.typed hst _ hmem⟩ .nil
    · cases hr'

/-- The two ways in which a look for a record goes on. -/
theorem scoped_held {P : α → List Fact} {id : NodeId} {form : Form} {f : Option Reg → Lower α}
    (hsome : ∀ r, Scoped strict env (.reg r form.ty :: Γ) (f (some r)) P)
    (hnone : Scoped strict env Γ (f none) P) :
    Scoped strict env Γ (held? id form >>= f) P where
  follows S s a s' hs hΓ h := by
    obtain ⟨o, s₁, h₁, h⟩ := bind_ok h
    obtain ⟨rfl, hheld⟩ := hs.of_held h₁
    cases o with
    | none => exact hnone.follows S _ a s' hs hΓ h
    | some r => exact (hsome r).follows S _ a s' hs ((hheld r rfl).append hΓ) h

instance (priority := high) {P : α → List Fact} (id : NodeId) (form : Form)
    (f : Option Reg → Lower α) [hsome : ∀ r, Scoped strict env (.reg r form.ty :: Γ) (f (some r)) P]
    [hnone : Scoped strict env Γ (f none) P] :
    Scoped strict env Γ (held? id form >>= f) P := scoped_held hsome hnone

/-- A record of a register that is defined. -/
instance (id : NodeId) (form : Form) (r : Reg) [hr : Known Γ r form.ty] :
    Scoped strict env Γ (record id form r) fun _ => [] where
  follows S s a s' hs hΓ h := by
    have hr := hr.holds hΓ
    have hs' : s' = if s.armDepth = 0 then { s with values := ((id, form), r, s.block) :: s.values }
      else s := by
      cases h
      rfl
    refine ⟨S, ?_⟩
    split at hs'
    · rename_i ha
      subst hs'
      refine ⟨⟨.refl hs.sound, fun _ h => h, rfl, rfl, rfl, [((id, form), r, s.block)], rfl,
        by simp, fun h => absurd ha h⟩,
        ⟨hs.sound, hs.fixed, fun hst v hv => ?_, fun v hv hd => ?_, hs.upsilons, hs.phis⟩, .nil⟩
      · rcases List.mem_cons.1 hv with rfl | hv
        · exact hr.2 hst
        · exact hs.typed hst v hv
      · rcases List.mem_cons.1 hv with rfl | hv
        · exact hr.1
        · exact hs.held v hv hd
    · subst hs'
      exact ⟨.refl hs.sound, hs, .nil⟩

instance (id : NodeId) : Scoped strict env Γ (isRecorded id) fun _ => [] := by
  unfold isRecorded
  infer_instance

instance (id : NodeId) (r : Reg) {ty : Ty} [hr : Known Γ r ty] [hfits : Fits strict env id ty] :
    Scoped strict env Γ (setResult id r) fun _ => [] := by
  refine scoped_getNode fun node hn => ?_
  split
  · rename_i form hform
    refine ⟨fun S s a s' hs hΓ h => ?_⟩
    have hreg : (Fact.reg r form.ty).Holds strict S s.builder (s.builder.Here S) :=
      ⟨(hr.holds hΓ).1, fun hst => by
        rw [hfits.fits hst node form hn.found hform]
        exact (hr.holds hΓ).2 hst⟩
    exact (inferInstance : Scoped strict env [.reg r form.ty] (record id form r) _).follows S s a s'
      hs (.cons hreg .nil) h
  · infer_instance

/-! ## Detours -/

/-- A block that was made to be gone to later, with its parameters. -/
structure Pending where
  block : BlockId
  params : List (Reg × Ty) := []

/-- The block as a target of control. -/
def Pending.target (p : Pending) : Fact := .leads [p.block] (p.params.map (·.2))

/-- The parameters of the block. -/
def Pending.values (p : Pending) : List Fact := p.params.map fun q => .reg q.1 q.2

/-- Code was added behind the state `s₀`, inside of `depth` arms. In the blocks `P`, which may still
be gone to, the registers are in scope that were defined at the start. -/
structure Detour (strict : Bool) (S₀ : Scoping) (s₀ : State) (P : List Pending) (depth : Nat)
    (S : Scoping) (s : State) :
    Prop where
  grown : s₀.builder.Grown strict S₀ S s.builder
  here : ∀ r, s₀.builder.Here S₀ r → s.builder.Here S r
  values : s.values = s₀.values
  block : s.block = s₀.block
  upsilons : s.upsilons = s₀.upsilons
  armDepth : s.armDepth = s₀.armDepth + depth
  waits : ∀ p ∈ P, S p.block.index = s₀.builder.Here S₀ ∧ ∃ blk,
    s.builder.func.blocks[p.block.index]? = some blk ∧
    blk.params = p.params.map (·.1) ∧ ∀ q ∈ p.params, s.builder.func.HasType q.1 q.2

namespace Detour

variable {S₀ : Scoping} {s₀ : State} {P : List Pending} {p : Pending} {depth : Nat} {u : Unit}

theorem start (h : Consistent strict env S₀ s₀) : Detour strict S₀ s₀ [] 0 S₀ s₀ :=
  ⟨.refl h.sound, fun _ h => h, rfl, rfl, rfl, rfl, nofun⟩

theorem consistent (d : Detour strict S₀ s₀ P depth S s) (h : Consistent strict env S₀ s₀) :
    Consistent strict env S s :=
  h.grow d.grown d.here d.values d.block d.upsilons

/-- What held at the start holds. -/
theorem hold (d : Detour strict S₀ s₀ P depth S s)
    (hΓ : Hold strict S₀ s₀.builder (s₀.builder.Here S₀) Γ) :
    Hold strict S s.builder (s.builder.Here S) Γ := hΓ.grow d.grown d.here

theorem follows (d : Detour strict S₀ s₀ P 0 S s) : Follows strict S₀ s₀ S s :=
  ⟨d.grown, d.here, d.block, d.armDepth, d.upsilons, [], d.values, nofun, fun _ => rfl⟩

/-- A pending block may be gone to. -/
theorem leads (d : Detour strict S₀ s₀ P depth S s) (hp : p ∈ P) :
    p.target.Holds strict S s.builder (s.builder.Here S) := by
  obtain ⟨hscope, blk, hblk, hparams, htyped⟩ := d.waits p hp
  intro q hq
  cases List.mem_singleton.1 hq
  refine ⟨⟨blk, hblk, by simp [hparams], fun _ q hq => ?_⟩, fun r hr => d.here r (hscope ▸ hr)⟩
  rw [hparams, List.zip_map'] at hq
  obtain ⟨q', hq', rfl⟩ := List.mem_map.1 hq
  exact htyped q' hq'

/-- More code behind a detour. -/
theorem grow (d : Detour strict S₀ s₀ P depth S s) (e : s.builder.Grown strict S S' s'.builder)
    (here : ∀ r, s₀.builder.Here S₀ r → s'.builder.Here S' r) (hvalues : s'.values = s.values)
    (hblock : s'.block = s.block) (hupsilons : s'.upsilons = s.upsilons)
    (harm : s'.armDepth = s.armDepth) : Detour strict S₀ s₀ P depth S' s' := by
  refine ⟨d.grown.trans e, here, hvalues.trans d.values, hblock.trans d.block,
    hupsilons.trans d.upsilons,
    harm.trans d.armDepth, fun p hp => ?_⟩
  obtain ⟨hscope, blk, hblk, hparams, htyped⟩ := d.waits p hp
  obtain ⟨blk', hblk', hp'⟩ := e.func.params _ _ hblk
  refine ⟨(e.scope _ (Array.getElem?_eq_some_iff.1 hblk).1).trans hscope, blk', hblk',
    hp'.trans hparams, fun q hq => ?_⟩
  exact e.func.types _ _ (htyped q hq)

/-- Inside of an arm nothing is recorded. -/
theorem follow (d : Detour strict S₀ s₀ P depth S s) (hF : Follows strict S s S' s')
    (ha : s₀.armDepth + depth ≠ 0) :
    Detour strict S₀ s₀ P depth S' s' := by
  obtain ⟨new, hvalues, -, hnew⟩ := hF.values
  rw [hnew (by rw [d.armDepth]; exact ha)] at hvalues
  exact d.grow hF.grown (fun r hr => hF.here r (d.here r hr)) hvalues hF.block hF.upsilons
    hF.armDepth

/-- A step inside of an arm. -/
theorem step {x : Lower α} {a : α} {Q : α → List Fact} [hx : Scoped strict env Γ x Q]
    (d : Detour strict S₀ s₀ P depth S s) (hs : Consistent strict env S₀ s₀)
    (hΓ : Hold strict S s.builder (s.builder.Here S) Γ) (h : x env s = .ok (a, s'))
    (ha : s₀.armDepth + depth ≠ 0 := by omega) :
    ∃ S', Detour strict S₀ s₀ P depth S' s' ∧ Hold strict S' s'.builder (s'.builder.Here S')
      (Q a ++ Γ) := by
  obtain ⟨S', hF, -, hQ⟩ := hx.follows S s a s' (d.consistent hs) hΓ h
  exact ⟨S', d.follow hF ha, hQ.append (hΓ.grow hF.grown hF.here)⟩

/-- A step that records nothing. -/
theorem quiet {x : Lower α} {a : α} {Q : α → List Fact} [hx : Scoped strict env Γ x Q]
    [hq : RecordsNothing x] (d : Detour strict S₀ s₀ P depth S s) (hs : Consistent strict env S₀ s₀)
    (hΓ : Hold strict S s.builder (s.builder.Here S) Γ) (h : x env s = .ok (a, s')) :
    ∃ S', Detour strict S₀ s₀ P depth S' s' ∧ Hold strict S' s'.builder (s'.builder.Here S')
      (Q a ++ Γ) := by
  obtain ⟨S', hF, -, hQ⟩ := hx.follows S s a s' (d.consistent hs) hΓ h
  exact ⟨S', d.grow hF.grown (fun r hr => hF.here r (d.here r hr)) (hq.kept env s a s' h).1 hF.block
    hF.upsilons hF.armDepth,
    hQ.append (hΓ.grow hF.grown hF.here)⟩

/-- A new block. -/
theorem createBlock {cold : Bool} {id : BlockId} (d : Detour strict S₀ s₀ P depth S s)
    (hΓ : Hold strict S s.builder (s.builder.Here S) Γ)
    (h : (liftM (Emit.createBlock cold) : Lower BlockId) env s = .ok (id, s')) :
    ∃ S', Detour strict S₀ s₀ (⟨id, []⟩ :: P) depth S' s' ∧ Hold strict S' s'.builder
      (s'.builder.Here S') Γ := by
  obtain ⟨b', hb, rfl⟩ := emit_ok h
  obtain ⟨rfl, rfl⟩ := Emit.createBlock_ok hb
  have hsound := d.grown.after
  have e := Builder.addBlock_grown hsound cold (s₀.builder.Here S₀)
  have here (r : Reg) (hr : s.builder.Here S r) := hr.addBlock hsound.wf cold (s₀.builder.Here S₀)
  have d' : Detour strict S₀ s₀ P depth _ { s with builder := s.builder.addBlock cold } :=
    d.grow e (fun r hr => here r (d.here r hr)) rfl rfl rfl rfl
  refine ⟨_, ⟨d'.grown, d'.here, d'.values, d'.block, d'.upsilons, d'.armDepth, fun p hp => ?_⟩,
    hΓ.grow e here⟩
  rcases List.mem_cons.1 hp with rfl | hp
  · exact ⟨Scoping.add_self .., { cold }, by simp [Builder.addBlock], rfl, nofun⟩
  · exact d'.waits p hp

/-- A new block with a parameter. -/
theorem createJoin {cold : Bool} {id : BlockId} {ty : Ty} {r : Reg} {s₁ : State}
    (d : Detour strict S₀ s₀ P depth S s) (hΓ : Hold strict S s.builder (s.builder.Here S) Γ)
    (h : (liftM (Emit.createBlock cold) : Lower BlockId) env s = .ok (id, s₁))
    (h' : (liftM (Emit.blockParam id ty) : Lower Reg) env s₁ = .ok (r, s')) :
    ∃ S', Detour strict S₀ s₀ (⟨id, [(r, ty)]⟩ :: P) depth S' s' ∧ Hold strict S' s'.builder
      (s'.builder.Here S') Γ := by
  obtain ⟨b₁, hb₁, rfl⟩ := emit_ok h
  obtain ⟨rfl, rfl⟩ := Emit.createBlock_ok hb₁
  obtain ⟨b', hb', rfl⟩ := emit_ok h'
  obtain ⟨rfl, rfl⟩ := Emit.blockParam_ok hb'
  have hsound := d.grown.after
  have e := Builder.addJoin_grown hsound cold ty (s₀.builder.Here S₀)
  have here (r : Reg) (hr : s.builder.Here S r) := hr.addJoin hsound.wf cold ty (s₀.builder.Here S₀)
  have d' : Detour strict S₀ s₀ P depth _ { s with
      builder := ((s.builder.addBlock cold).addReg ty).addParam ⟨s.builder.func.blocks.size⟩
        ⟨s.builder.func.types.size⟩ } :=
    d.grow e (fun r hr => here r (d.here r hr)) rfl rfl rfl rfl
  refine ⟨_, ⟨d'.grown, d'.here, d'.values, d'.block, d'.upsilons, d'.armDepth, fun p hp => ?_⟩,
    hΓ.grow e here⟩
  rcases List.mem_cons.1 hp with rfl | hp
  · refine ⟨Scoping.add_self .., { params := [⟨s.builder.func.types.size⟩], cold }, ?_, rfl, ?_⟩
    · simp only [Builder.addBlock, Builder.addReg, Builder.addParam, Array.getElem?_modify,
        Array.getElem?_push_size]
      rfl
    · simp [Builder.addBlock, Builder.addReg, Builder.addParam, Function.HasType]
  · exact d'.waits p hp

/-- Going to a pending block. -/
theorem switchTo (d : Detour strict S₀ s₀ P depth S s) (hp : p ∈ P)
    (h : (liftM (Emit.switchTo p.block) : Lower Unit) env s = .ok (u, s')) :
    Detour strict S₀ s₀ P depth S s' ∧ Hold strict S s'.builder (s'.builder.Here S) p.values := by
  obtain ⟨b', hb, rfl⟩ := emit_ok h
  obtain rfl := Emit.switchTo_ok hb
  obtain ⟨hscope, blk, hblk, hparams, htyped⟩ := d.waits p hp
  have hlt := (Array.getElem?_eq_some_iff.1 hblk).1
  refine ⟨d.grow (Builder.goTo_grown d.grown.after hlt) (fun r hr => ?_) rfl rfl rfl rfl,
    fun F hF => ?_⟩
  · exact Builder.here_goTo hlt (by rw [hscope]; exact hr)
  · obtain ⟨q, hq, rfl⟩ := List.mem_map.1 hF
    exact ⟨Builder.here_param hblk (by rw [hparams]; exact List.mem_map_of_mem hq),
      fun _ => htyped q hq⟩

/-- Going into arms. -/
theorem enter (d : Detour strict S₀ s₀ P depth S s) :
    Detour strict S₀ s₀ P (depth + 1) S { s with armDepth := s.armDepth + 1 } :=
  ⟨d.grown, d.here, d.values, d.block, d.upsilons, by simp [d.armDepth, Nat.add_assoc], d.waits⟩

/-- Coming out of arms. -/
theorem leave (d : Detour strict S₀ s₀ P (depth + 1) S s) :
    Detour strict S₀ s₀ P depth S { s with armDepth := s.armDepth - 1 } :=
  ⟨d.grown, d.here, d.values, d.block, d.upsilons, by simp [d.armDepth, ← Nat.add_assoc], d.waits⟩

end Detour

/-! ## Control -/

instance (ty : Ty) (cond : Reg) (weight : BranchWeight) (thenArm elseArm : Lower Reg)
    [hc : Known Γ cond .i32] [hthen : Scoped strict env Γ thenArm fun r => [.reg r ty]]
    [helse : Scoped strict env Γ elseArm fun r => [.reg r ty]] :
    Scoped strict env Γ (diamond ty cond weight thenArm elseArm) fun r => [.reg r ty] where
  follows S s a s' hs hΓ h := by
    obtain ⟨thenBlock, s₁, h₁, h⟩ := bind_ok h
    obtain ⟨S₁, d₁, hΓ₁⟩ := (Detour.start hs).createBlock hΓ h₁
    obtain ⟨elseBlock, s₂, h₂, h⟩ := bind_ok h
    obtain ⟨S₂, d₂, hΓ₂⟩ := d₁.createBlock hΓ₁ h₂
    obtain ⟨join, s₃, h₃, h⟩ := bind_ok h
    obtain ⟨result, s₄, h₄, h⟩ := bind_ok h
    obtain ⟨S₄, d₄, hΓ₄⟩ := d₂.createJoin hΓ₂ h₃ h₄
    obtain ⟨_, s₅, h₅, h⟩ := bind_ok h
    obtain ⟨S₅, d₅, -⟩ := d₄.quiet (Γ := .leads [thenBlock] [] :: .leads [elseBlock] [] :: Γ) hs
      (.cons (d₄.leads (p := ⟨thenBlock, []⟩) (by simp))
        (.cons (d₄.leads (p := ⟨elseBlock, []⟩) (by simp)) hΓ₄)) h₅
    obtain ⟨_, s₁₃, harm, h⟩ := bind_ok h
    obtain ⟨s₁₂, h₁₂, rfl⟩ := inArm_ok harm
    obtain ⟨_, s₆, h₆, h₁₂⟩ := bind_ok h₁₂
    obtain ⟨d₆, -⟩ := d₅.enter.switchTo (p := ⟨thenBlock, []⟩) (by simp) h₆
    obtain ⟨r₁, s₇, h₇, h₁₂⟩ := bind_ok h₁₂
    obtain ⟨S₇, d₇, hΓ₇⟩ := d₆.step hs (d₆.hold hΓ) h₇
    obtain ⟨_, s₈, h₈, h₁₂⟩ := bind_ok h₁₂
    obtain ⟨S₈, d₈, -⟩ :=
      d₇.step (Γ := .leads [join] [ty] :: _) hs
        (.cons (d₇.leads (p := ⟨join, [(result, ty)]⟩) (by simp)) hΓ₇) h₈
    obtain ⟨_, s₉, h₉, h₁₂⟩ := bind_ok h₁₂
    obtain ⟨d₉, -⟩ := d₈.switchTo (p := ⟨elseBlock, []⟩) (by simp) h₉
    obtain ⟨r₂, s₁₀, h₁₀, h₁₂⟩ := bind_ok h₁₂
    obtain ⟨S₁₀, d₁₀, hΓ₁₀⟩ := d₉.step hs (d₉.hold hΓ) h₁₀
    obtain ⟨S₁₂, d₁₂, -⟩ :=
      d₁₀.step (Γ := .leads [join] [ty] :: _) hs
        (.cons (d₁₀.leads (p := ⟨join, [(result, ty)]⟩) (by simp)) hΓ₁₀) h₁₂
    obtain ⟨_, s₁₄, h₁₄, h⟩ := bind_ok h
    obtain ⟨d₁₄, hresult⟩ := d₁₂.leave.switchTo (p := ⟨join, [(result, ty)]⟩) (by simp) h₁₄
    obtain ⟨rfl, rfl⟩ := pure_ok h
    exact ⟨S₁₂, d₁₄.follows, d₁₄.consistent hs, hresult⟩

instance (cond : Reg) (weight : BranchWeight) (arm : Lower Unit) [hc : Known Γ cond .i32]
    [harm : Scoped strict env Γ arm fun _ => []] :
    Scoped strict env Γ (when cond weight arm) fun _ => [] where
  follows S s a s' hs hΓ h := by
    obtain ⟨thenBlock, s₁, h₁, h⟩ := bind_ok h
    obtain ⟨S₁, d₁, hΓ₁⟩ := (Detour.start hs).createBlock hΓ h₁
    obtain ⟨join, s₂, h₂, h⟩ := bind_ok h
    obtain ⟨S₂, d₂, hΓ₂⟩ := d₁.createBlock hΓ₁ h₂
    obtain ⟨_, s₃, h₃, h⟩ := bind_ok h
    obtain ⟨S₃, d₃, -⟩ := d₂.quiet (Γ := .leads [thenBlock] [] :: .leads [join] [] :: Γ) hs
      (.cons (d₂.leads (p := ⟨thenBlock, []⟩) (by simp))
        (.cons (d₂.leads (p := ⟨join, []⟩) (by simp)) hΓ₂)) h₃
    obtain ⟨_, s₈, harm, h⟩ := bind_ok h
    obtain ⟨s₇, h₇, rfl⟩ := inArm_ok harm
    obtain ⟨_, s₄, h₄, h₇⟩ := bind_ok h₇
    obtain ⟨d₄, -⟩ := d₃.enter.switchTo (p := ⟨thenBlock, []⟩) (by simp) h₄
    obtain ⟨_, s₅, h₅, h₇⟩ := bind_ok h₇
    obtain ⟨S₅, d₅, hΓ₅⟩ := d₄.step hs (d₄.hold hΓ) h₅
    -- the arm joins unless it left
    obtain ⟨S₇, d₇, -⟩ :=
      d₅.step (Γ := [.leads [join] []]) hs (.cons (d₅.leads (p := ⟨join, []⟩) (by simp)) .nil) h₇
    obtain ⟨d₈, -⟩ := d₇.leave.switchTo (p := ⟨join, []⟩) (by simp) h
    exact ⟨S₇, d₈.follows, d₈.consistent hs, .nil⟩

/-! ## The runtime -/

instance (helper : Helper) (args : List Reg) [KnownAll Γ args .i64] :
    Scoped strict env Γ (callHelper helper args) fun r => [.reg r .i64] := by
  unfold callHelper
  infer_instance

instance (cell : Reg) [Known Γ cell .i64] :
    Scoped strict env Γ (writeBarrier cell) fun _ => [] := by
  unfold writeBarrier
  infer_instance

end Lowering

end SpecJit
